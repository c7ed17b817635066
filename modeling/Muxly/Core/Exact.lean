/-
# Muxly.Core.Exact -- what `validate` decides, on any document

Nothing is assumed here of the links of a document: they may dangle, be shared or run in a circle. The
walk of `validate` stops all the same, for it never visits a node twice, and what it accepts is what
the links say: `WellFormed` speaks of reachability only, and no walk occurs in it.
-/
import Muxly.Core.Accepted

namespace Muxly.Core

open Muxly.Control Muxly.Tree

namespace Document

variable {d : Document}

/-- The node links to the child. -/
def Links (d : Document) (nodeId childId : Nat) : Prop :=
  ∃ n, d.lookup nodeId = some n ∧ childId ∈ n.children

/-- What `validate` is there to decide. -/
structure WellFormed (d : Document) : Prop where
  root : ∃ r, d.lookup d.rootNodeId = some r ∧ r.parentId = none ∧ r.kind = .document
  reachable : ∀ {x n}, d.lookup x = some n → Relation.ReflTransGen d.Links d.rootNodeId x
  child : ∀ {x n}, d.lookup x = some n → ∀ c ∈ n.children,
    ∃ m, d.lookup c = some m ∧ m.parentId = some x
  nodup : ∀ {x n}, d.lookup x = some n → n.children.Nodup
  count : d.liveNodeCount = sumNodes (fun _ => 1) d
  bytes : d.contentBytes = sumNodes (fun n => n.content.length) d
  viewRoot : ∀ x, d.viewRootNodeId = some x → ∃ n, d.lookup x = some n
  elided : ∀ x ∈ d.elidedNodeIds, ∃ n, d.lookup x = some n

theorem links_iff {x c : Nat} : d.Links x c ↔ c ∈ d.childrenOf x := by
  rw [mem_childrenOf]
  rfl

/-- The links, as a walk follows them. -/
theorem links_eq : d.Links = fun x c => c ∈ d.childrenOf x := by
  funext x c
  exact propext links_iff

/-- The live nodes, listed in any order, are as many as the sum says. -/
theorem length_eq_sumNodes {order : List Nat} (hnodup : order.Nodup)
    (hlive : ∀ {x}, x ∈ order ↔ ∃ n, d.lookup x = some n) :
    order.length = sumNodes (fun _ => 1) d := by
  have hone : ∀ x ∈ order, slotWeight (fun _ => 1) (d.lookup x) = 1 := by
    intro x hx
    obtain ⟨n, hn⟩ := hlive.mp hx
    rw [hn]
    rfl
  have hsum := sum_slotWeight_eq (fun _ => 1) hnodup hlive
  rw [List.map_congr_left hone] at hsum
  simpa using hsum

/-! ## What is accepted is well formed -/

theorem Accepted.wellFormed {order : List Nat} (h : Accepted d order) : WellFormed d where
  root := by
    obtain ⟨r, hr⟩ := h.live.mp h.root_mem
    have hhangs := (h.hangs hr).root (h.id_eq hr)
    exact ⟨r, hr, hhangs⟩
  reachable := by
    intro x n hx
    obtain ⟨r, hr, hreach⟩ := h.walk.reached (h.live.mpr ⟨n, hx⟩)
    rw [links_eq, ← List.mem_singleton.mp hr]
    exact hreach
  child := by
    intro x n hx c hc
    have hlinked := (h.hangs hx).child c hc
    rw [h.id_eq hx] at hlinked
    exact hlinked
  nodup hx := (h.hangs hx).nodup
  count := h.count.symm.trans (length_eq_sumNodes h.nodup h.live)
  bytes := by
    rw [← h.bytes]
    exact sum_slotWeight_eq (fun n => n.content.length) h.nodup h.live
  viewRoot := h.viewRoot
  elided := h.elided

/-! ## What is well formed is accepted -/

namespace WellFormed

/-- The parent that a slot names. -/
def parentOf (d : Document) (x : Nat) : Option Nat := (d.lookup x).bind (·.parentId)

/-- The ids that a slot stands for and that are live. -/
def liveIds (d : Document) : List Nat :=
  (List.range' 1 d.nodeSlots.length).filter fun x => (d.lookup x).isSome

theorem mem_liveIds {x : Nat} : x ∈ liveIds d ↔ ∃ n, d.lookup x = some n := by
  rw [liveIds, List.mem_filter, Option.isSome_iff_exists]
  refine ⟨And.right, fun h => ⟨?_, h⟩⟩
  obtain ⟨n, hn⟩ := h
  have hpos := lookup_pos hn
  have hle := lookup_le hn
  rw [List.mem_range'_1]
  omega

/-- The links have a walk, for each child names its parent. -/
theorem exists_order (h : WellFormed d) : ∃ order, Walk d.childrenOf [d.rootNodeId] order ∧
    order.Nodup ∧ ∀ {x}, x ∈ order ↔ ∃ n, d.lookup x = some n := by
  obtain ⟨r, hr, hparent, -⟩ := h.root
  have hnext : ∀ x ∈ liveIds d, (d.childrenOf x).Nodup ∧
      ∀ c ∈ d.childrenOf x, c ∈ liveIds d ∧ parentOf d c = some x := by
    intro x hx
    obtain ⟨n, hn⟩ := mem_liveIds.mp hx
    rw [childrenOf_eq hn]
    refine ⟨h.nodup hn, fun c hc => ?_⟩
    obtain ⟨m, hm, hparent⟩ := h.child hn c hc
    refine ⟨mem_liveIds.mpr ⟨m, hm⟩, ?_⟩
    rw [parentOf, hm]
    exact hparent
  have hwalk := @Walk.exists_of_parent _ _ [d.rootNodeId] _ _ hnext []
    (by simpa using mem_liveIds.mpr ⟨r, hr⟩) (by simp) ?_
  · obtain ⟨order, hwalk, hnodup, hsub⟩ := hwalk
    rw [List.nil_append] at hnodup
    refine ⟨order, hwalk, hnodup, fun {x} => ⟨fun hx => mem_liveIds.mp (hsub hx), ?_⟩⟩
    rintro ⟨n, hn⟩
    have hreach := h.reachable hn
    rw [links_eq] at hreach
    exact hwalk.mem_of_reached (hwalk.subset (List.mem_cons_self ..)) hreach
  · -- the root is on the stack at first, and nothing pushes it
    intro y hy p hp
    rw [List.nil_append, List.mem_singleton] at hy
    rw [hy, parentOf, hr, Option.bind_some, hparent] at hp
    cases hp

/-- A live node but the root is linked from its parent. -/
theorem parent (h : WellFormed d) {x : Nat} {n : Node} (hx : d.lookup x = some n)
    (hne : x ≠ d.rootNodeId) :
    ∃ p m, n.parentId = some p ∧ d.lookup p = some m ∧ x ∈ m.children := by
  rcases (h.reachable hx).cases_tail with heq | ⟨p, -, m, hm, hmem⟩
  · exact absurd heq hne
  · obtain ⟨n', hn', hparent⟩ := h.child hm x hmem
    obtain rfl := Option.some.inj (hx.symm.trans hn')
    exact ⟨p, m, hparent, hm, hmem⟩

theorem hangs (h : WellFormed d) (hid : ∀ {x n}, d.lookup x = some n → n.id = x) {x : Nat}
    {n : Node} (hx : d.lookup x = some n) : d.Hangs n where
  root := by
    intro hroot
    obtain ⟨r, hr, hlinks⟩ := h.root
    rw [← hroot, hid hx, hx] at hr
    obtain rfl := Option.some.inj hr
    exact hlinks
  parent hne := by
    rw [hid hx] at hne ⊢
    exact h.parent hx hne
  nodup := h.nodup hx
  child := by
    rw [hid hx]
    exact h.child hx

theorem accepted (h : WellFormed d) (hid : ∀ {x n}, d.lookup x = some n → n.id = x)
    (husize : d.contentBytes < u64Limit) : ∃ order, Accepted d order := by
  obtain ⟨order, hwalk, hnodup, hlive⟩ := h.exists_order
  refine ⟨order, hid, hwalk, hnodup, hlive, fun hx => h.hangs hid hx, ?_, ?_, husize, h.viewRoot,
    h.elided⟩
  · exact (length_eq_sumNodes hnodup hlive).trans h.count.symm
  · rw [h.bytes]
    exact sum_slotWeight_eq (fun n => n.content.length) hnodup hlive

end WellFormed

/-! ## The walk stops -/

theorem bind_ne_outOfFuel {α β : Type} {x : Except Failure α} {f : α → Except Failure β}
    (hx : x ≠ .error .outOfFuel) (hf : ∀ a, f a ≠ .error .outOfFuel) :
    (x >>= f) ≠ .error .outOfFuel := by
  cases x with
  | error failure =>
      intro h
      exact hx (congrArg Except.error (Except.error.inj h))
  | ok a => exact hf a

theorem error_ne_outOfFuel {α : Type} (e : Err) :
    (throw (.error e) : Except Failure α) ≠ .error .outOfFuel := nofun

/-- A check that throws its error, and what follows it. -/
theorem check_ne_outOfFuel {α : Type} {p : Prop} [Decidable p] (e : Err)
    {k : PUnit → Except Failure α} (hk : k ⟨⟩ ≠ .error .outOfFuel) :
    (if p then (throw (.error e) : Except Failure PUnit) >>= k else k ⟨⟩) ≠
      .error .outOfFuel := by
  split
  · exact bind_ne_outOfFuel (error_ne_outOfFuel _) fun _ => hk
  · exact hk

theorem pure_ne_outOfFuel {α : Type} (a : α) :
    (pure a : Except Failure α) ≠ .error .outOfFuel := nofun

theorem nodeOr_ne_outOfFuel (x : Nat) (e : Err) : d.nodeOr x e ≠ .error .outOfFuel := by
  rw [nodeOr, findNode]
  split
  · intro h
    cases h
  · rw [ok_bind]
    split
    · exact pure_ne_outOfFuel _
    · exact error_ne_outOfFuel _

theorem forM_ne_outOfFuel {f : Nat → Except Failure Unit} (hf : ∀ x, f x ≠ .error .outOfFuel)
    (xs : List Nat) : xs.forM f ≠ .error .outOfFuel := by
  induction xs with
  | nil => exact pure_ne_outOfFuel _
  | cons x xs ih => exact bind_ne_outOfFuel (hf x) fun _ => ih

theorem validateChildren_ne_outOfFuel (node : Node) (childSeen children : List Nat) :
    d.validateChildren node childSeen children ≠ .error .outOfFuel := by
  induction children generalizing childSeen with
  | nil => exact nofun
  | cons c children ih =>
      rw [validateChildren]
      refine check_ne_outOfFuel _ (bind_ne_outOfFuel (nodeOr_ne_outOfFuel _ _) fun child => ?_)
      exact check_ne_outOfFuel _ (ih _)

theorem validateNode_ne_outOfFuel (s : ValidateState) (node : Node) :
    d.validateNode s node ≠ .error .outOfFuel := by
  have hdone : (do
      d.validateChildren node [] node.children
      return { seen := s.seen ++ [node.id], contentBytes := s.contentBytes + node.content.length } :
        Except Failure ValidateState) ≠ .error .outOfFuel :=
    bind_ne_outOfFuel (validateChildren_ne_outOfFuel _ _ _) fun _ => pure_ne_outOfFuel _
  rw [validateNode]
  refine check_ne_outOfFuel _ (check_ne_outOfFuel _ ?_)
  by_cases hroot : node.id = d.rootNodeId
  · simp only [if_pos hroot]
    exact check_ne_outOfFuel _ (check_ne_outOfFuel _ hdone)
  · simp only [if_neg hroot]
    cases node.parentId with
    | none => exact bind_ne_outOfFuel (error_ne_outOfFuel _) fun _ => hdone
    | some p =>
        exact bind_ne_outOfFuel (nodeOr_ne_outOfFuel _ _) fun parent => check_ne_outOfFuel _ hdone

/-- The walk of `validate` visits an id once, so the slots bound its length. -/
theorem walkPreorder_validateNode_ne_outOfFuel
    (hid : ∀ {x n}, d.lookup x = some n → n.id = x) :
    d.walkPreorder d.validateNode ⟨[], 0⟩ ≠ .error .outOfFuel := by
  simp only [walkPreorder, walkPreorderWith, mapError_self]
  refine bind_ne_outOfFuel (nodeOr_ne_outOfFuel _ _) fun _ => ?_
  refine Tree.stackLoop_ne_outOfFuel
    (P := fun s : ValidateState => s.seen.Nodup ∧ ∀ x ∈ s.seen, ∃ n, d.lookup x = some n)
    (m := fun s => d.nodeSlots.length - s.seen.length) ?_ ?_ ⟨List.nodup_nil, by simp⟩ ?_
  · intro x s
    exact bind_ne_outOfFuel (nodeOr_ne_outOfFuel _ _) fun node =>
      bind_ne_outOfFuel (validateNode_ne_outOfFuel _ _) fun _ => pure_ne_outOfFuel _
  · rintro x s pushed s' ⟨hnodup, hlive⟩ hvisit
    obtain ⟨n, hn, hvisit⟩ := bind_eq_ok.mp hvisit
    obtain ⟨s₁, hs₁, heq⟩ := bind_eq_ok.mp hvisit
    obtain ⟨rfl, rfl⟩ := Prod.mk.inj (Except.ok.inj heq)
    obtain ⟨hfresh, -, -, rfl⟩ := validateNode_eq_ok.mp hs₁
    have hn' : d.lookup n.id = some n := by
      have hlook := nodeOr_eq_ok.mp hn
      rw [hid hlook]
      exact hlook
    have hnodup' : (s.seen ++ [n.id]).Nodup :=
      List.nodup_append.mpr ⟨hnodup, List.nodup_singleton _, fun y hy z hz heq =>
        hfresh (List.mem_singleton.mp hz ▸ heq ▸ hy)⟩
    have hlive' : ∀ y ∈ s.seen ++ [n.id], ∃ m, d.lookup y = some m := by
      intro y hy
      rcases List.mem_append.mp hy with hy | hy
      · exact hlive y hy
      · exact ⟨n, List.mem_singleton.mp hy ▸ hn'⟩
    have hle := length_le_slots hnodup' hlive'
    refine ⟨⟨hnodup', hlive'⟩, ?_⟩
    show d.nodeSlots.length - (s.seen ++ [n.id]).length < d.nodeSlots.length - s.seen.length
    rw [List.length_append, List.length_singleton] at hle ⊢
    omega
  · show d.nodeSlots.length - 0 < d.nodeSlots.length + 1
    omega

/-- `validate` stops on every document. -/
theorem validate_ne_outOfFuel (hid : ∀ {x n}, d.lookup x = some n → n.id = x) :
    d.validate ≠ .error .outOfFuel := by
  have hend (visited : ValidateState) : (do
      d.elidedNodeIds.forM fun nodeId => do
        let _ ← d.nodeOr nodeId .unknownElidedNode
      return { nodeCount := d.liveNodeCount, contentBytes := visited.contentBytes } :
        Except Failure ValidationSummary) ≠ .error .outOfFuel :=
    bind_ne_outOfFuel (forM_ne_outOfFuel (fun x => bind_ne_outOfFuel (nodeOr_ne_outOfFuel _ _)
      fun _ => pure_ne_outOfFuel _) _) fun _ => pure_ne_outOfFuel _
  rw [validate]
  refine bind_ne_outOfFuel (nodeOr_ne_outOfFuel _ _) fun _ => ?_
  refine bind_ne_outOfFuel (walkPreorder_validateNode_ne_outOfFuel hid) fun visited => ?_
  refine check_ne_outOfFuel _ (check_ne_outOfFuel _ (check_ne_outOfFuel _ ?_))
  cases d.viewRootNodeId with
  | none => exact hend visited
  | some x => exact bind_ne_outOfFuel (nodeOr_ne_outOfFuel _ _) fun _ => hend visited

/-! ## The decision -/

/-- `validate` stops on every document whose slots hold the nodes of their numbers, and accepts it
exactly when it is well formed. The byte count is a `usize`. -/
theorem validate_exact (d : Document) (hid : ∀ {x n}, d.lookup x = some n → n.id = x)
    (husize : d.contentBytes < u64Limit) :
    d.validate ≠ .error .outOfFuel ∧ ((∃ summary, d.validate = .ok summary) ↔ WellFormed d) := by
  refine ⟨validate_ne_outOfFuel hid, ?_, fun h => ?_⟩
  · rintro ⟨summary, h⟩
    obtain ⟨order, haccepted⟩ := exists_accepted hid h
    exact haccepted.wellFormed
  · obtain ⟨order, haccepted⟩ := h.accepted hid husize
    exact ⟨_, haccepted.validate_ok⟩

/-- Two nodes that link to each other, next to a root that links to neither. -/
def circle : Document :=
  { Document.init 1 (ascii "demo") with
    nodeSlots := [some (Node.init 1 .document (ascii "demo") none .none),
      some { Node.init 2 .container (ascii "a") (some 3) .none with children := [3] },
      some { Node.init 3 .container (ascii "b") (some 2) .none with children := [2] }]
    liveNodeCount := 3 }

theorem validate_exact_circle : circle.validate ≠ .error .outOfFuel ∧
    ((∃ summary, circle.validate = .ok summary) ↔ WellFormed circle) := by
  refine validate_exact circle ?_ (by decide)
  intro x n hx
  match x, hx with
  | 1, hx
  | 2, hx
  | 3, hx =>
      obtain rfl := Option.some.inj hx
      rfl

end Document

end Muxly.Core
