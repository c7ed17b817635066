/-
# Muxly.Daemon.Removal -- what a removal finds and takes

The two reads of `removeNodeWithRuntime`: the mode and the parent of a node, then the nodes that go
and their content. On a valid document with no other thread the removal takes exactly the subtree
of the node, or changes nothing.
-/
import Mathlib.Init
import Muxly.Daemon.Commits
import Muxly.Daemon.Planning
import Muxly.Daemon.Sequential

namespace Muxly.Daemon

open Muxly.Control Muxly.Core Muxly.Sync Muxly.Tree
open Document

/-! ## The reads -/

/-- The modes that take the whole subtree of a node. -/
def RemoveExecutionMode.isRecursive (mode : RemoveExecutionMode) : Prop :=
  mode = .recursiveDomainSafe ∨ mode = .recursiveCoordinatorSafe

instance (mode : RemoveExecutionMode) : Decidable mode.isRecursive :=
  inferInstanceAs (Decidable (_ ∨ _))

/-- The node that a removal resolves. -/
structure Resolved (d : Document) (x : Nat) (mode : RemoveExecutionMode) (p : Nat) (n : Node) :
    Prop where
  notRoot : x ≠ d.rootNodeId
  node : d.lookup x = some n
  parentId : n.parentId = some p
  parent : ∃ m, d.lookup p = some m
  leaf : mode.isRecursive ∨ n.children = []

theorem resolveRemoval_ok {d : Document} {x p : Nat} {mode : RemoveExecutionMode}
    (h : resolveRemoval d x = .ok (mode, p)) :
    classifyRemoveExecutionMode d x = .ok mode ∧ ∃ n, Resolved d x mode p n := by
  unfold resolveRemoval at h
  obtain ⟨mode', hmode, h⟩ := bind_eq_ok.mp h
  split at h
  · cases h
  · rename_i hpolicy
    obtain ⟨hreject, hunsupported⟩ := not_or.mp hpolicy
    obtain ⟨-, -, h⟩ := bind_eq_ok.mp h
    obtain ⟨n, hn, h⟩ := bind_eq_ok.mp h
    have hx := nodeOr_eq_ok.mp hn
    obtain ⟨hroot, n', p', m, hx', hp', hm⟩ := classify_ok hmode hreject
    rw [hx] at hx'
    cases hx'
    rw [hp'] at h
    cases h
    refine ⟨hmode, n, hroot, hx, hp', ⟨m, hm⟩, ?_⟩
    -- Only a mode for leaves is not recursive, and it is chosen for leaves alone.
    rw [classify_eq hroot hx hp' hm] at hmode
    by_cases hleaf : n.children = []
    · exact .inr hleaf
    · left
      rw [if_neg hleaf] at hmode
      split at hmode
      · cases hmode
        exact .inr rfl
      · obtain ⟨o, -, hmode⟩ := bind_eq_ok.mp hmode
        cases o with
        | none =>
            cases hmode
            exact absurd rfl hunsupported
        | some domainId =>
            simp only at hmode
            split at hmode
            · cases hmode
              exact absurd rfl hunsupported
            · obtain ⟨-, -, hmode⟩ := bind_eq_ok.mp hmode
              obtain ⟨b, -, hmode⟩ := bind_eq_ok.mp hmode
              cases b with
              | true =>
                  cases hmode
                  exact .inr rfl
              | false =>
                  cases hmode
                  exact .inl rfl

/-- What a removal measures is the subtree of the node, when the mode fits the node. -/
theorem measureRemoval_eq {d : Document} (hv : Valid d) {x p : Nat} {mode : RemoveExecutionMode}
    {n : Node} (hr : Resolved d x mode p n) :
    ∃ postorder, postorder.Perm (hv.shape.forest.postorder x) ∧
      measureRemoval d mode x = .ok (postorder, (postorder.map d.contentLength).sum) := by
  unfold measureRemoval
  by_cases hrec : mode.isRecursive
  · obtain ⟨-, htotal, -⟩ := hv.removal hr.node hr.parentId (List.Perm.refl _)
    refine ⟨_, .refl _, ?_⟩
    have hrec' : mode = .recursiveDomainSafe ∨ mode = .recursiveCoordinatorSafe := hrec
    rw [if_pos hrec', hv.shape.collectSubtreePostorder_eq hr.node, ok_bind]
    show (d.totalContentBytesForNodes _ >>= _) = _
    rw [htotal]
    rfl
  · have hleaf := hr.leaf.resolve_left hrec
    have hpost : [x].Perm (hv.shape.forest.postorder x) := by
      rw [hv.shape.postorder_leaf hr.node hleaf]
    obtain ⟨-, htotal, -⟩ := hv.removal hr.node hr.parentId hpost
    refine ⟨[x], hpost, ?_⟩
    have hrec' : ¬ (mode = .recursiveDomainSafe ∨ mode = .recursiveCoordinatorSafe) := hrec
    rw [if_neg hrec', pure_eq_ok, ok_bind]
    show (d.totalContentBytesForNodes [x] >>= _) = _
    rw [htotal]
    rfl

/-! ## The whole removal -/

/-- All that a removal that runs alone can do. -/
theorem removal_cases {e : DocumentEntry} (hv : Valid e.document) (x : Nat) :
    (∃ f, Sequential.removeNodeWithRuntime x e = (.error f, e)) ∨
    (∃ n p postorder, x ≠ 1 ∧ e.document.lookup x = some n ∧ n.parentId = some p ∧
      postorder.Perm (hv.shape.forest.postorder x) ∧
      Sequential.removeNodeWithRuntime x e = (.ok (),
        { e with
          document :=
            e.document.pruned p x postorder (postorder.map e.document.contentLength).sum
          }.markTopologyChanged)) := by
  cases hresolve : resolveRemoval e.document x with
  | error f =>
      refine .inl ⟨f, ?_⟩
      simp only [Sequential.removeNodeWithRuntime, Action.bind_apply, Action.view_apply, hresolve,
        Action.next_error]
  | ok resolved =>
      obtain ⟨mode, p⟩ := resolved
      obtain ⟨-, n, hr⟩ := resolveRemoval_ok hresolve
      obtain ⟨postorder, hpost, hmeasure⟩ := measureRemoval_eq hv hr
      obtain ⟨hremovable, -, -, -⟩ := hv.removal hr.node hr.parentId hpost
      have hle := hv.sum_content_le hremovable.nodup hremovable.live
      have hrun : Sequential.removeNodeWithRuntime x e
          = commitRemoval p x postorder (postorder.map e.document.contentLength).sum e := by
        simp only [Sequential.removeNodeWithRuntime, Action.bind_apply, Action.view_apply, hresolve,
          Action.next_ok, hmeasure]
      rw [hrun]
      rcases commitRemoval_cases hv.shape hremovable (postorder.map e.document.contentLength).sum
        with heq | ⟨hdrift, -⟩ | ⟨-, heq⟩
      · exact .inl ⟨_, heq⟩
      · omega
      · have hroot := hr.notRoot
        rw [hv.shape.rootNodeId] at hroot
        exact .inr ⟨n, p, postorder, hroot, hr.node, hr.parentId, hpost, heq⟩

end Muxly.Daemon
