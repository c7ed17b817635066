/-
# Muxly.Core.Traversals -- the two traversals of an accepted document

`walkPreorder` and `collectSubtreePostorderAlloc` keep no set of visited nodes. On a document that
`validate` accepts each of them stops, and what it visits is a listing of the tree: all of it, every
node once, in the order of the links.
-/
import Muxly.Core.Accepted
import Muxly.Core.Layers
import Muxly.Core.Removals
import Muxly.Tree.Listing

namespace Muxly.Core

open Muxly.Control Muxly.Data Muxly.Tree

namespace Document

variable {d : Document}

/-- A fold over ids that looks each of them up is a fold over the nodes. -/
theorem foldlM_lookup {ε σ : Type} (fail : Failure → ε) (visit : σ → Node → Except ε σ) (e : Err)
    {xs : List Nat} (hlive : ∀ x ∈ xs, ∃ n, d.lookup x = some n) (s : σ) :
    xs.foldlM (fun s x => (d.nodeOr x e).mapError fail >>= visit s) s =
      (xs.filterMap d.lookup).foldlM visit s := by
  induction xs generalizing s with
  | nil => rfl
  | cons x xs ih =>
      obtain ⟨n, hn⟩ := hlive x (List.mem_cons_self ..)
      have hstep : ((d.nodeOr x e).mapError fail >>= visit s) = visit s n := by
        rw [nodeOr_of_lookup hn]
        rfl
      rw [List.foldlM_cons, List.filterMap_cons_some hn, List.foldlM_cons, hstep]
      refine congrArg (visit s n >>= ·) (funext fun s' => ?_)
      exact ih (fun y hy => hlive y (List.mem_cons_of_mem _ hy)) s'

namespace Accepted

variable {order : List Nat}

theorem listed (h : Accepted d order) : ∃ post, Listed d.childrenOf [d.rootNodeId] order post :=
  Listed.of_walk h.walk

/-- The tree below a live node is listed within the order of the document. -/
theorem listed_subtree (h : Accepted d order) {x : Nat} {n : Node} (hx : d.lookup x = some n) :
    ∃ pre post, Listed d.childrenOf [x] pre post ∧ pre.Sublist order := by
  obtain ⟨whole, hwhole⟩ := h.listed
  obtain ⟨below, below', hbelow, hpre, -⟩ := hwhole.subtree (h.live.mpr ⟨n, hx⟩)
  exact ⟨_, _, .cons hbelow .nil, by simpa using hpre⟩

/-- The loop of `collectSubtreePostorderAlloc` returns the postorder listing. -/
theorem collectSubtreePostorder_eq (h : Accepted d order) {x : Nat} {n : Node}
    (hx : d.lookup x = some n) {pre post : List Nat} (hlisted : Listed d.childrenOf [x] pre post)
    (hsub : pre.Sublist order) : d.collectSubtreePostorder x = .ok post := by
  have hlive : ∀ y ∈ pre, ∃ m, d.lookup y = some m := fun y hy => h.live.mp (hsub.subset hy)
  have hlength : pre.length ≤ d.nodeSlots.length :=
    length_le_slots (h.nodup.sublist hsub) hlive
  obtain ⟨fuel, hfuel⟩ : ∃ fuel, 2 * d.nodeSlots.length + 1 = 2 * pre.length + (fuel + 1) :=
    ⟨2 * (d.nodeSlots.length - pre.length), by omega⟩
  rw [collectSubtreePostorder, nodeOr_of_lookup hx, ok_bind, hfuel]
  refine (hlisted.stackLoop_frames Failure.outOfFuel ?_ ?_ (fuel + 1) [] []).trans rfl
  · intro y hy acc
    obtain ⟨m, hm⟩ := hlive y hy
    rw [nodeOr_of_lookup hm]
    rfl
  · intro y hy acc
    obtain ⟨m, hm⟩ := hlive y hy
    rw [nodeOr_of_lookup hm, childrenOf_eq hm]
    rfl

end Accepted

/-- On every document that `validate` accepts, whatever the visitor does, `walkPreorder` runs it over
the live nodes, each once, what lies below a node after it and siblings in the order of their list.
From every live node `collectSubtreePostorderAlloc` returns the node and what lies below it, each
once and after all that lies below it. -/
theorem traversals_list_tree (hid : ∀ {x n}, d.lookup x = some n → n.id = x)
    {summary : ValidationSummary} (hvalidate : d.validate = .ok summary) :
    (∃ order : List Nat, order.Nodup ∧ (∀ x, x ∈ order ↔ ∃ n, d.lookup x = some n) ∧
      (∀ x y, d.Below x y → [x, y].Sublist order) ∧ (∀ x, (d.childrenOf x).Sublist order) ∧
      ∀ {ε σ : Type} (fail : Failure → ε) (visit : σ → Node → Except ε σ) (s : σ),
        d.walkPreorderWith fail visit s = (order.filterMap d.lookup).foldlM visit s) ∧
    ∀ x, (∃ n, d.lookup x = some n) → ∃ postorder, d.collectSubtreePostorder x = .ok postorder ∧
      postorder.Nodup ∧ (∀ y, y ∈ postorder ↔ d.Descends x y) ∧
      ∀ y z, y ∈ postorder → d.Below y z → [z, y].Sublist postorder := by
  obtain ⟨order, h⟩ := exists_accepted hid hvalidate
  obtain ⟨post, hlisted⟩ := h.listed
  have hdead : ∀ {x}, x ∉ order → d.childrenOf x = [] := by
    intro x hx
    cases hlook : d.lookup x with
    | none => rw [childrenOf, hlook]; rfl
    | some n => exact absurd (h.live.mpr ⟨n, hlook⟩) hx
  constructor
  · refine ⟨order, h.nodup, fun x => h.live, fun x y hbelow => ?_, fun x => ?_, ?_⟩
    · refine (hlisted.around ?_ hbelow).1
      by_contra hx
      obtain ⟨c, hc, -⟩ := Relation.TransGen.head'_iff.mp hbelow
      rw [hdead hx] at hc
      cases hc
    · by_cases hx : x ∈ order
      · exact hlisted.next_sublist hx
      · rw [hdead hx]
        exact List.nil_sublist order
    · intro ε σ fail visit s
      rw [h.walkPreorderWith_eq]
      exact foldlM_lookup fail visit _ (fun x hx => h.live.mp hx) s
  · rintro x ⟨n, hx⟩
    obtain ⟨pre, post, hsubtree, hsub⟩ := h.listed_subtree hx
    have hperm := hsubtree.perm
    refine ⟨post, h.collectSubtreePostorder_eq hx hsubtree hsub, ?_, fun y => ?_, ?_⟩
    · exact hperm.nodup_iff.mpr (h.nodup.sublist hsub)
    · rw [hperm.mem_iff, hsubtree.mem_iff]
      simp [Descends]
    · intro y z hy hbelow
      exact (hsubtree.around (hperm.mem_iff.mp hy) hbelow).2

/-- A leaf and a container with a leaf of its own. -/
def smallTree : Document :=
  let leaf := (Document.appendNode 1 .textLeaf (ascii "a") .none (Document.init 1 (ascii "demo"))).2
  let container := (Document.appendNode 1 .container (ascii "b") .none leaf).2
  (Document.appendNode 3 .textLeaf (ascii "c") .none container).2

theorem valid_smallTree : smallTree.Valid := by
  have hleaf := (Document.appendNode_sound 1 .textLeaf (ascii "a") .none _
    (Document.valid_init 1 (ascii "demo"))).1
  have hcontainer := (Document.appendNode_sound 1 .container (ascii "b") .none _ hleaf).1
  exact (Document.appendNode_sound 3 .textLeaf (ascii "c") .none _ hcontainer).1

theorem traversals_list_smallTree :
    (∃ order : List Nat, order.Nodup ∧ (∀ x, x ∈ order ↔ ∃ n, smallTree.lookup x = some n) ∧
      (∀ x y, smallTree.Below x y → [x, y].Sublist order) ∧
      (∀ x, (smallTree.childrenOf x).Sublist order) ∧
      ∀ {ε σ : Type} (fail : Failure → ε) (visit : σ → Node → Except ε σ) (s : σ),
        smallTree.walkPreorderWith fail visit s = (order.filterMap smallTree.lookup).foldlM visit s) ∧
    ∀ x, (∃ n, smallTree.lookup x = some n) →
      ∃ postorder, smallTree.collectSubtreePostorder x = .ok postorder ∧
      postorder.Nodup ∧ (∀ y, y ∈ postorder ↔ smallTree.Descends x y) ∧
      ∀ y z, y ∈ postorder → smallTree.Below y z → [z, y].Sublist postorder :=
  traversals_list_tree valid_smallTree.shape.id_eq valid_smallTree.validate_ok

end Document

end Muxly.Core
