/-
# Muxly.Core.Valid -- the document invariant, and that `validate` accepts it

`Valid` adds to `Shape` what holds when operations run one after another: every node is linked from
the root, the byte count is right and under the cap, and the view state names live nodes.
Every mutation keeps it, and `validate` succeeds on it.
-/
import Muxly.Core.Edits

namespace Muxly.Core

open Muxly.Control Muxly.Data Muxly.Tree

namespace Document

/-- The content length of a node, as a weight. -/
def contentWeight (n : Node) : Nat := n.content.length

/-- The document invariant. -/
structure Valid (d : Document) : Prop where
  shape : Shape d
  linked : Linked d
  bytes : d.contentBytes = sumNodes contentWeight d
  cap : d.contentBytes ≤ d.maxContentBytes
  capLimit : d.maxContentBytes < u64Limit
  viewRoot : ∀ x, d.viewRootNodeId = some x → ∃ n, d.lookup x = some n
  elided : ∀ x ∈ d.elidedNodeIds, ∃ n, d.lookup x = some n
  elidedNodup : d.elidedNodeIds.Nodup

namespace Valid

variable {d : Document} (hv : Valid d)

/-! ## Reachability -/

include hv in
/-- Every live node lies below the root. -/
theorem below_root {x : Nat} {n : Node} (hx : d.lookup x = some n) :
    hv.shape.forest.Below 1 x := by
  induction x using Nat.strong_induction_on generalizing n with
  | _ x ih =>
      by_cases hx1 : x = 1
      · subst hx1
        exact hv.shape.forest.below_self 1
      · obtain ⟨p, hp, -, hlt⟩ := hv.shape.parent hx hx1
        obtain ⟨m, hm, hmem⟩ := hv.linked hx hp
        exact (ih p hlt hm).trans (hv.shape.forest.below_child (mem_childrenOf.mpr ⟨m, hm, hmem⟩))

include hv in
theorem mem_preorder_root {x : Nat} :
    x ∈ hv.shape.forest.preorder 1 ↔ ∃ n, d.lookup x = some n := by
  rw [Forest.mem_preorder]
  constructor
  · obtain ⟨r, hr, -⟩ := hv.shape.root
    exact hv.shape.live_of_below hr
  · rintro ⟨n, hn⟩
    exact hv.below_root hn

end Valid

/-- A sum over all live ids is the sum over the slots. -/
theorem sum_live_eq (w : Node → Nat) {d : Document} {xs : List Nat} (hnodup : xs.Nodup)
    (hmem : ∀ x, x ∈ xs ↔ ∃ n, d.lookup x = some n) :
    (xs.map fun x => slotWeight w (d.lookup x)).sum = sumNodes w d := by
  have hpos : ∀ x ∈ xs, x ≠ 0 := fun x hx => by
    obtain ⟨n, hn⟩ := (hmem x).mp hx
    exact lookup_pos hn
  have hsum := sumNodes_foldl_dropped w xs hnodup fun x hx => (hmem x).mp hx
  have hempty : ∀ x, (xs.foldl dropped d).lookup x = none := by
    intro x
    rw [lookup_foldl_dropped xs d hpos]
    split
    · rfl
    · rename_i hx
      cases hl : d.lookup x with
      | none => rfl
      | some n => exact absurd ((hmem x).mpr ⟨n, hl⟩) hx
  have hzero : sumNodes w (xs.foldl dropped d) = 0 := by
    refine List.sum_eq_zero fun v hmem => ?_
    obtain ⟨slot, hslot, rfl⟩ := List.mem_map.mp hmem
    obtain ⟨i, hi, hget⟩ := List.mem_iff_getElem.mp hslot
    have hnone := hempty (i + 1)
    rw [lookup_succ, List.getElem?_eq_getElem hi, hget] at hnone
    cases slot with
    | none => rfl
    | some n => cases hnone
  omega

namespace Valid

variable {d : Document} (hv : Valid d)
include hv

theorem sum_preorder (w : Node → Nat) :
    ((hv.shape.forest.preorder 1).map fun x => slotWeight w (d.lookup x)).sum = sumNodes w d :=
  sum_live_eq w (hv.shape.forest.nodup_preorder 1) fun _ => hv.mem_preorder_root

/-- What some of the live nodes hold is at most what the document counts. -/
theorem sum_content_le {xs : List Nat} (hnodup : xs.Nodup)
    (hlive : ∀ x ∈ xs, ∃ n, d.lookup x = some n) :
    (xs.map d.contentLength).sum ≤ d.contentBytes := by
  have hsum := sumNodes_foldl_dropped contentWeight xs hnodup hlive
  have hbytes := hv.bytes
  have hmap : (xs.map d.contentLength).sum
      = (xs.map fun x => slotWeight contentWeight (d.lookup x)).sum := rfl
  omega

/-! ## `validate` succeeds -/

omit hv in
theorem validateChildren_ok {node : Node} (children childSeen : List Nat)
    (hnodup : (childSeen ++ children).Nodup)
    (hchild : ∀ c ∈ children, ∃ m, d.lookup c = some m ∧ m.parentId = some node.id) :
    d.validateChildren node childSeen children = .ok () := by
  induction children generalizing childSeen with
  | nil => rfl
  | cons c rest ih =>
      obtain ⟨m, hm, hp⟩ := hchild c (List.mem_cons_self ..)
      have hfresh : c ∉ childSeen := by
        intro hc
        exact (List.nodup_append.mp hnodup).2.2 c hc c (List.mem_cons_self ..) rfl
      have hnodup' : (c :: childSeen ++ rest).Nodup := by
        refine (List.Perm.nodup_iff ?_).mp hnodup
        exact List.perm_middle
      rw [validateChildren, if_neg hfresh]
      simp only [nodeOr_of_lookup hm, ok_bind, hp, ne_eq, not_true_eq_false, if_false]
      exact ih (c :: childSeen) hnodup' fun y hy => hchild y (List.mem_cons_of_mem _ hy)

theorem validateNode_ok {x : Nat} {n : Node} (hx : d.lookup x = some n) (s : ValidateState)
    (hfresh : x ∉ s.seen) (hcap : s.contentBytes + n.content.length < u64Limit) :
    d.validateNode s n
      = .ok { seen := s.seen ++ [x], contentBytes := s.contentBytes + n.content.length } := by
  have hid := hv.shape.id_eq hx
  have hchildren : d.validateChildren n [] n.children = .ok () := by
    refine validateChildren_ok n.children [] (hv.shape.nodup hx) fun c hc => ?_
    rw [hid]
    exact hv.shape.child hx hc
  have hcap' : ¬ u64Limit ≤ s.contentBytes + n.content.length := by omega
  rw [validateNode, hid, if_neg hfresh, if_neg hcap', hv.shape.rootNodeId]
  by_cases hx1 : x = 1
  · subst hx1
    obtain ⟨r, hr, hnone, hdoc⟩ := hv.shape.root
    rw [hr] at hx
    cases hx
    simp only [if_true, hnone, hdoc, Option.isSome_none, Bool.false_eq_true, if_false, ne_eq,
      not_true_eq_false, hchildren, ok_bind, pure_eq_ok]
  · obtain ⟨p, hp, -⟩ := hv.shape.parent hx hx1
    obtain ⟨m, hm, hmem⟩ := hv.linked hx hp
    simp only [if_neg hx1, hp, nodeOr_of_lookup hm, ok_bind, hmem, not_true_eq_false, if_false,
      hchildren, pure_eq_ok]

theorem validate_walk :
    d.walkPreorder d.validateNode ⟨[], 0⟩
      = .ok { seen := hv.shape.forest.preorder 1, contentBytes := d.contentBytes } := by
  rw [hv.shape.walkPreorder_eq]
  have hfold : ∀ (xs : List Nat) (s : ValidateState), (s.seen ++ xs).Nodup →
      (∀ x ∈ xs, ∃ n, d.lookup x = some n) →
      s.contentBytes + (xs.map d.contentLength).sum < u64Limit →
      xs.foldlM (fun s x => d.nodeOr x .unknownNode >>= d.validateNode s) s
        = .ok { seen := s.seen ++ xs
                contentBytes := s.contentBytes + (xs.map d.contentLength).sum } := by
    intro xs
    induction xs with
    | nil =>
        intro s _ _ _
        rw [List.append_nil]
        rfl
    | cons x rest ih =>
        intro s hnodup hlive hcap
        obtain ⟨n, hn⟩ := hlive x (List.mem_cons_self ..)
        have hlen : d.contentLength x = n.content.length := by rw [contentLength, hn]; rfl
        have hfresh : x ∉ s.seen := fun hx =>
          (List.nodup_append.mp hnodup).2.2 x hx x (List.mem_cons_self ..) rfl
        simp only [List.map_cons, List.sum_cons, hlen] at hcap ⊢
        rw [List.foldlM_cons, nodeOr_of_lookup hn, ok_bind,
          hv.validateNode_ok hn s hfresh (by omega), ok_bind]
        have hrest := ih { seen := s.seen ++ [x], contentBytes := s.contentBytes + n.content.length }
          (by simpa using hnodup) (fun y hy => hlive y (List.mem_cons_of_mem _ hy))
          (by simp only; omega)
        rw [hrest, List.append_assoc, List.singleton_append, Nat.add_assoc]
  have hsum : ((hv.shape.forest.preorder 1).map d.contentLength).sum = d.contentBytes := by
    rw [hv.bytes]
    exact hv.sum_preorder contentWeight
  have hcap := hv.cap
  have hlimit := hv.capLimit
  have h := hfold (hv.shape.forest.preorder 1) ⟨[], 0⟩
    (by simpa using hv.shape.forest.nodup_preorder 1) (fun x hx => hv.mem_preorder_root.mp hx)
    (by simp only [hsum]; omega)
  simpa [hsum] using h

/-- `validate` accepts every valid document. -/
theorem validate_ok :
    d.validate = .ok { nodeCount := d.liveNodeCount, contentBytes := d.contentBytes } := by
  obtain ⟨r, hr, -⟩ := hv.shape.root
  have hcount : (hv.shape.forest.preorder 1).length = d.liveNodeCount := by
    rw [hv.shape.count, ← hv.sum_preorder]
    exact (sum_ones_eq_length _ fun x hx => hv.mem_preorder_root.mp hx).symm
  have hslots : (d.nodeSlots.any fun slot => slot.any fun node =>
      decide (node.id ∉ hv.shape.forest.preorder 1)) = false := by
    rw [List.any_eq_false]
    intro slot hslot
    cases slot with
    | none => simp
    | some node =>
        obtain ⟨i, hi, hget⟩ := List.mem_iff_getElem.mp hslot
        have hlook : d.lookup (i + 1) = some node := by
          rw [lookup_succ, List.getElem?_eq_getElem hi, hget]
          rfl
        have hmem := hv.mem_preorder_root.mpr ⟨node, hlook⟩
        rw [← hv.shape.id_eq hlook] at hmem
        simpa using hmem
  have helided : (d.elidedNodeIds.forM fun nodeId => do
      let _ ← d.nodeOr nodeId .unknownElidedNode) = (.ok () : Except Failure Unit) := by
    refine forM_ok fun x hx => ?_
    obtain ⟨n, hn⟩ := hv.elided x hx
    rw [nodeOr_of_lookup hn]
    rfl
  rw [validate, hv.shape.rootNodeId, nodeOr_of_lookup hr, ok_bind, hv.validate_walk, ok_bind]
  simp only [hcount, ne_eq, not_true_eq_false, if_false, hslots, Bool.false_eq_true]
  cases hview : d.viewRootNodeId with
  | none =>
      simp only [helided, ok_bind]
      rfl
  | some x =>
      obtain ⟨n, hn⟩ := hv.viewRoot x hview
      simp only [nodeOr_of_lookup hn, helided, ok_bind]
      rfl

end Valid

end Document

end Muxly.Core
