/-
# Muxly.Core.Tidy -- what no mutation gives to a node

The root is created without a source and no mutation gives it one, so a node that is found by its
pane is never the root. A name is made by the slug of a title, so it has no byte outside the
alphabet of names. `Settled` adds both to `Sound`.
-/
import Mathlib.Init
import Muxly.Core.Mutations
import Muxly.Core.Names

namespace Muxly.Core

open Muxly.Control Muxly.Data Muxly.Tree

namespace Document

/-- The source of the root and the name of any node. -/
structure TidyNode (x : Nat) (n : Node) : Prop where
  plain : x = 1 → n.source = .none
  nameBytes : ∀ name, n.name = some name → ∀ c ∈ name, isValidNodeNameByte c = true

/-- Every live node is tidy. -/
def Tidy (d : Document) : Prop := ∀ x n, d.lookup x = some n → TidyNode x n

/-- A node with the same name, and with the same source if it is the root. -/
theorem TidyNode.update {x : Nat} {n n' : Node} (h : TidyNode x n) (hname : n'.name = n.name)
    (hsource : x = 1 → n'.source = n.source) : TidyNode x n' where
  plain hx1 := (hsource hx1).trans (h.plain hx1)
  nameBytes name hn := h.nameBytes name (hname ▸ hn)

/-- A later document that is tidy if the first one was. -/
structure Settles (d d' : Document) : Prop where
  evolves : Evolves d d'
  tidy : Tidy d → Tidy d'

theorem settles_progress : Action.Progress Settles where
  refl d := ⟨evolves_progress.refl d, fun h => h⟩
  trans h h' := ⟨evolves_progress.trans h.evolves h'.evolves, fun ht => h'.tidy (h.tidy ht)⟩

/-- A mutation that is sound and keeps nodes tidy. -/
abbrev Settled {α : Type} (m : DocM α) : Prop := Action.Advances Valid Settles m

theorem Settled.sound {α : Type} {m : DocM α} (h : Settled m) : Sound m := fun d hv =>
  ⟨(h d hv).1, (h d hv).2.evolves⟩

theorem Sound.settled {α : Type} {m : DocM α} (h : Sound m)
    (htidy : ∀ d, Valid d → Tidy d → Tidy (m d).2) : Settled m := fun d hv =>
  ⟨(h d hv).1, (h d hv).2, htidy d hv⟩

theorem settled_view {α : Type} (f : Document → Except Failure α) : Settled (Action.view f) :=
  Action.advances_view settles_progress f

theorem settled_of_unchanged {α : Type} {m : DocM α} (h : ∀ d, (m d).2 = d) : Settled m :=
  Action.advances_of_unchanged settles_progress h

/-! ## Elementary edits -/

theorem Tidy.modifyNode {d : Document} (h : Tidy d) {x : Nat} {f : Node → Node}
    (hname : ∀ n, (f n).name = n.name) (hsource : x = 1 → ∀ n, (f n).source = n.source) :
    Tidy (d.modifyNode x f) := by
  intro y n hn
  rw [lookup_modifyNode] at hn
  split at hn
  · rename_i hx
    subst hx
    obtain ⟨m, hm, rfl⟩ := Option.map_eq_some_iff.mp hn
    exact (h _ m hm).update (hname m) fun hx1 => hsource hx1 m
  · exact h y n hn

theorem Tidy.withContent {d : Document} (h : Tidy d) {x bytes : Nat} {f : Node → Node}
    (hname : ∀ n, (f n).name = n.name) (hsource : ∀ n, (f n).source = n.source) :
    Tidy (d.withContent x f bytes) :=
  h.modifyNode (x := x) hname fun _ => hsource

theorem Tidy.pruned {d : Document} (h : Tidy d) {p x : Nat} {postorder : List Nat}
    (hr : Removable d p x postorder) (total : Nat) : Tidy (d.pruned p x postorder total) := by
  intro y n hn
  rw [hr.lookup_pruned] at hn
  split at hn
  · cases hn
  · obtain ⟨m, hm, rfl⟩ := Option.map_eq_some_iff.mp hn
    apply (h y m hm).update
    · split <;> rfl
    · intro _
      split <;> rfl

theorem Tidy.attached {d : Document} (h : Tidy d) (hs : Shape d) {p : Nat} {node : Node}
    (ha : Attachable d p node)
    (hname : ∀ name, node.name = some name → ∀ c ∈ name, isValidNodeNameByte c = true) :
    Tidy (d.bumped.attached p node) := by
  intro y n hn
  obtain ⟨r, hr, -⟩ := hs.root
  rw [ha.lookup_bumped hs] at hn
  split at hn
  · rename_i hy
    cases hn
    refine ⟨fun hy1 => ?_, hname⟩
    -- The new id is not the root's, which is live.
    rw [← hy1, hy, ha.fresh hs] at hr
    cases hr
  · split at hn
    · obtain ⟨m, hm, rfl⟩ := Option.map_eq_some_iff.mp hn
      exact (h y m hm).update rfl fun _ => rfl
    · exact h y n hn

/-! ## Operations -/

theorem appendNode_settled (p : Nat) (kind : NodeKind) (title : Bytes) (source : Source) :
    Settled (appendNode p kind title source) := by
  refine (appendNode_sound p kind title source).settled fun d hv htidy => ?_
  rcases appendNode_cases hv.shape p kind title source with
    ⟨-, hp, name, hname, heq⟩ | ⟨-, -, heq⟩ | ⟨-, heq⟩
  · rw [heq]
    obtain ⟨m, hm⟩ := hp
    refine htidy.attached hv.shape (attachable_prepared ⟨m, hm⟩ kind title source name) ?_
    intro text htext
    obtain rfl : name = some text := htext
    exact defaultChildName_bytes hv.shape.bumped hm hname
  · rw [heq]
    exact htidy
  · rw [heq]
    exact htidy

/-- An edit that leaves content and links alone, and the source of the root. -/
theorem updateKnownNode_settled (x : Nat) {f : Node → Node} (hf : KeepsLinks f)
    (hc : ∀ n, (f n).content = n.content) (hsource : x = 1 → ∀ n, (f n).source = n.source) :
    Settled (updateKnownNode x f) := by
  refine (updateKnownNode_sound x hf hc).settled fun d hv htidy => ?_
  cases hx : d.lookup x with
  | none =>
      rw [updateKnownNode_of_missing hx]
      exact htidy
  | some n =>
      rw [updateKnownNode_of_lookup hx]
      exact htidy.modifyNode hf.name hsource

theorem setNodeTitle_settled (x : Nat) (title : Bytes) : Settled (setNodeTitle x title) :=
  updateKnownNode_settled x (keepsLinks_setTitle title) (fun _ => rfl) fun _ _ => rfl

theorem setFollowTail_settled (x : Nat) (enabled : Bool) : Settled (setFollowTail x enabled) :=
  updateKnownNode_settled x ⟨fun _ => rfl, fun _ => rfl, fun _ => rfl, fun _ => rfl, fun _ => rfl⟩
    (fun _ => rfl) fun _ _ => rfl

theorem setNodeBackendId_settled (x : Nat) (backendId : Bytes) :
    Settled (setNodeBackendId x backendId) :=
  updateKnownNode_settled x (keepsLinks_setBackendId backendId) (fun _ => rfl) fun _ _ => rfl

theorem setStableNodeContent_settled (x : Nat) (content : Bytes) :
    Settled (setStableNodeContent x content) := by
  refine (setStableNodeContent_sound x content).settled fun d hv htidy => ?_
  cases hx : d.lookup x with
  | none =>
      have heq : setStableNodeContent x content d = (.error (.panic .danglingNode), d) := by
        simp only [setStableNodeContent, Action.bind_apply, Action.view_apply, deref, hx,
          Action.next_error]
      rw [heq]
      exact htidy
  | some n =>
      rw [setContent_eq hx]
      split
      · exact htidy.withContent (fun _ => rfl) fun _ => rfl
      · exact htidy

theorem appendTextToStableNode_settled (x : Nat) (chunk : Bytes) :
    Settled (appendTextToStableNode x chunk) := by
  refine (appendTextToStableNode_sound x chunk).settled fun d hv htidy => ?_
  cases hx : d.lookup x with
  | none =>
      have heq : (appendTextToStableNode x chunk d).2 = d := by
        simp only [appendTextToStableNode, Action.bind_apply, Action.view_apply]
        cases d.reserveAdditionalContentBytes chunk.length with
        | error e => rfl
        | ok _ => simp only [Action.next_ok, Action.bind_apply, Action.view_apply, deref, hx,
            Action.next_error]
      rw [heq]
      exact htidy
  | some n =>
      rw [appendText_eq hx]
      split
      · exact htidy.withContent (fun _ => rfl) fun _ => rfl
      · exact htidy

/-- Only a tty node is frozen, and the root is none. -/
theorem freezeTtyNodeAsArtifact_settled (x : Nat) (kind : TerminalArtifactKind)
    (sections : TerminalArtifactSections) :
    Settled (freezeTtyNodeAsArtifact x kind sections) := by
  refine (freezeTtyNodeAsArtifact_sound x kind sections).settled fun d hv htidy => ?_
  rw [freezeTtyNodeAsArtifact, Action.bind_apply, Action.view_apply]
  cases hx : d.lookup x with
  | none =>
      rw [nodeOr_of_missing hx]
      exact htidy
  | some n =>
      rw [nodeOr_of_lookup hx, Action.next_ok]
      cases hsource : n.source with
      | tty tty =>
          refine htidy.modifyNode (fun _ => rfl) fun hx1 => ?_
          rw [(htidy x n hx).plain hx1] at hsource
          cases hsource
      | none => exact htidy
      | terminalArtifact artifact => exact htidy
      | file file => exact htidy

theorem removeNode_settled {d : Document} (hv : Valid d) {x : Nat} (hx1 : x ≠ 1) :
    Valid (removeNode x d).2 ∧ Settles d (removeNode x d).2 := by
  obtain ⟨hvalid, hevolves⟩ := removeNode_sound hv hx1
  refine ⟨hvalid, hevolves, fun htidy => ?_⟩
  rcases removeNode_cases hv hx1 with ⟨n, p, hx, hleaf, hp, heq⟩ | ⟨f, heq⟩
  · have hpost : [x].Perm (hv.shape.forest.postorder x) := by
      rw [hv.shape.postorder_leaf hx hleaf]
    rw [heq]
    exact htidy.pruned (hv.removal hx hp hpost).1 _
  · rw [heq]
    exact htidy

theorem removeSubtree_settled (x : Nat) : Settled (removeSubtree x) := by
  refine (removeSubtree_sound x).settled fun d hv htidy => ?_
  rcases removeSubtree_cases hv x with ⟨n, p, hx, hp, heq⟩ | ⟨f, heq⟩
  · rw [heq]
    exact htidy.pruned (hv.removal hx hp (List.Perm.refl _)).1 _
  · rw [heq]
    exact htidy

/-! ### View state -/

/-- A mutation of the view leaves every node alone. -/
theorem settled_of_lookup {α : Type} {m : DocM α} (h : Sound m)
    (hlook : ∀ d x, (m d).2.lookup x = d.lookup x) : Settled m :=
  h.settled fun d _ htidy x n hn => htidy x n (by rwa [hlook d x] at hn)

theorem lookup_checkedView (x : Nat) (root : Document → Option Nat)
    (elided : Document → List Nat) (d : Document) (y : Nat) :
    ((do
      let _ ← Action.view fun d => d.nodeOr x .unknownNode
      modify fun d => d.withView (root d) (elided d) : DocM Unit) d).2.lookup y = d.lookup y := by
  rw [Action.bind_apply, Action.view_apply]
  cases d.nodeOr x .unknownNode with
  | error e => rfl
  | ok n => rfl

theorem setViewRoot_settled (x : Nat) : Settled (setViewRoot x) :=
  settled_of_lookup (setViewRoot_sound x)
    (lookup_checkedView x (fun _ => some x) fun d => d.elidedNodeIds)

theorem toggleElided_settled (x : Nat) : Settled (toggleElided x) :=
  settled_of_lookup (toggleElided_sound x) (lookup_checkedView x (fun d => d.viewRootNodeId) _)

theorem setElided_settled (x : Nat) (enabled : Bool) : Settled (setElided x enabled) :=
  settled_of_lookup (setElided_sound x enabled)
    (lookup_checkedView x (fun d => d.viewRootNodeId) _)

theorem clearViewRoot_settled : Settled clearViewRoot :=
  settled_of_lookup clearViewRoot_sound fun _ _ => rfl

theorem resetView_settled : Settled resetView := settled_of_lookup resetView_sound fun _ _ => rfl

theorem freeze_settled : Settled freeze := fun _ hv =>
  ⟨⟨⟨hv.shape.id_eq, hv.shape.rootNodeId, hv.shape.root, hv.shape.parent, hv.shape.child,
      hv.shape.nodup, hv.shape.fresh, hv.shape.count⟩, hv.linked, hv.bytes, hv.cap, hv.capLimit,
      hv.viewRoot, hv.elided, hv.elidedNodup⟩,
    ⟨⟨le_refl _, fun {_ n} hx => .inr ⟨n, hx, .refl _ n⟩⟩, fun h => h⟩⟩

theorem tidy_init (id : Nat) (title : Bytes) : Tidy (init id title) := by
  intro x n hn
  rcases x with _ | _ | x
  · cases hn
  · cases hn
    exact ⟨fun _ => rfl, fun name hname => defaultNodeName_bytes hname⟩
  · cases hn

end Document

end Muxly.Core
