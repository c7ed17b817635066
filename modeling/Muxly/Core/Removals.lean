/-
# Muxly.Core.Removals -- what a removal takes away, and the order of what it leaves

`Removed` says what the two removals are for: the node and all that lies below it are gone, every
other node is as it was, the content count and the view state follow. `removeSubtree` does that on
every node it accepts. `removeNode` does too, except that it lets the root go when the root is all
there is, and what is left is no document any more.

Both take the node out of its parent's list by `swapRemove`, which puts the last sibling in its
place. The listing of the tree keeps its order when at most one sibling came after the node.
-/
import Muxly.Core.Mutations

namespace Muxly.Core

open Muxly.Control Muxly.Data Muxly.Tree

namespace Document

/-- `y` is `x` or lies below it. -/
def Descends (d : Document) (x y : Nat) : Prop :=
  Relation.ReflTransGen (fun p c => c ∈ d.childrenOf p) x y

/-- What a document has besides its nodes, their counts and its view state. -/
def frameOf (d : Document) : Nat × Bytes × LifecycleState × Nat × Nat × Nat :=
  (d.id, d.title, d.lifecycle, d.rootNodeId, d.maxContentBytes, d.nextNodeId)

/-- `d'` is `d` without `x` and all that lies below it. -/
structure Removed (d : Document) (x : Nat) (d' : Document) : Prop where
  target : ∃ n, d.lookup x = some n
  valid : Valid d'
  gone : ∀ y, d.Descends x y → d'.lookup y = none
  dead : ∀ y, d.lookup y = none → d'.lookup y = none
  /-- A survivor keeps everything but, if it is the parent of `x`, the entry of `x`. -/
  kept : ∀ y n, d.lookup y = some n → ¬ d.Descends x y → ∃ children,
    d'.lookup y = some { n with children := children } ∧
      children.Perm (n.children.erase x) ∧ (x ∉ n.children → children = n.children)
  bytes : ∃ removed : List Nat, removed.Nodup ∧ (∀ y, y ∈ removed ↔ d.Descends x y) ∧
    d'.contentBytes + (removed.map d.contentLength).sum = d.contentBytes
  viewRoot : ∀ y, d'.viewRootNodeId = some y ↔ d.viewRootNodeId = some y ∧ ¬ d.Descends x y
  elided : ∀ y, y ∈ d'.elidedNodeIds ↔ y ∈ d.elidedNodeIds ∧ ¬ d.Descends x y
  frame : frameOf d' = frameOf d

/-- A removal either returns an error and changes nothing, or removes exactly the subtree. -/
def RemovesOrRefuses (d : Document) (x : Nat) (r : Except Failure Unit × Document) : Prop :=
  (∃ e, r = (.error (.error e), d)) ∨ ∃ d', r = (.ok (), d') ∧ Removed d x d'

theorem foldl_dropped_frame (postorder : List Nat) (d : Document) :
    frameOf (postorder.foldl dropped d) = frameOf d := by
  induction postorder generalizing d with
  | nil => rfl
  | cons x rest ih => exact ih (d.dropped x)

/-- Pruning a listing of the subtree of `x` removes it. -/
theorem Valid.removed_pruned {d : Document} (hv : Valid d) {p x : Nat} {n : Node}
    (hx : d.lookup x = some n) (hp : n.parentId = some p) {postorder : List Nat}
    (hpost : postorder.Perm (hv.shape.forest.postorder x)) :
    Removed d x (d.pruned p x postorder (postorder.map d.contentLength).sum) := by
  obtain ⟨hr, -, -, hvalid⟩ := hv.removal hx hp hpost
  have hmem : ∀ y, y ∈ postorder ↔ d.Descends x y := fun y =>
    hpost.mem_iff.trans (Forest.mem_postorder _)
  refine ⟨⟨n, hx⟩, hvalid, fun y hy => ?_, fun y hy => ?_, fun y m hy hxy => ?_, ?_, fun y => ?_,
    fun y => ?_, ?_⟩
  · rw [hr.lookup_pruned, if_pos ((hmem y).mpr hy)]
  · rw [hr.lookup_pruned, hy]
    split <;> rfl
  · rw [hr.lookup_pruned, if_neg (mt (hmem y).mp hxy), hy]
    by_cases hyp : y = p
    · refine ⟨swapRemoveFirst x m.children, by simp only [Option.map_some, if_pos hyp]; rfl,
        swapRemoveFirst_perm x m.children, swapRemoveFirst_of_not_mem⟩
    · have hxm : x ∉ m.children := by
        intro hxm
        obtain ⟨k, hk, hkp⟩ := hv.shape.child hy hxm
        rw [hx] at hk
        cases hk
        exact hyp (Option.some.inj (hkp.symm.trans hp))
      refine ⟨m.children, by simp only [Option.map_some, if_neg hyp], ?_, fun _ => rfl⟩
      rw [List.erase_of_not_mem hxm]
  · refine ⟨postorder, hr.nodup, hmem, ?_⟩
    have hold : (d.pruned p x postorder (postorder.map d.contentLength).sum).contentBytes
        = d.contentBytes - (postorder.map d.contentLength).sum :=
      congrArg (· - _) (contentBytes_foldl_dropped postorder (d.detached p x))
    have hle := hv.sum_content_le hr.nodup hr.live
    omega
  · rw [← hmem y]
    exact viewRoot_foldl_dropped postorder (d.detached p x) y
  · rw [← hmem y]
    exact (elided_foldl_dropped postorder (d := d.detached p x) hv.elidedNodup).2 y
  · exact foldl_dropped_frame postorder (d.detached p x)

/-- A refusal of a node that is not there is an error unless the id is zero. -/
theorem missing_eq_error {x : Nat} (hx : x ≠ 0) (e : Err) : missing x e = .error e := if_neg hx

/-- Nothing is removed at the id that the code asserts away. -/
theorem not_removesOrRefuses_zero {d : Document} {r : Except Failure Unit × Document}
    (hr : r = (.error (.panic .zeroNodeId), d)) : ¬ RemovesOrRefuses d 0 r := by
  rintro (⟨e, h⟩ | ⟨d', h, -⟩)
  · rw [hr] at h
    cases h
  · rw [hr] at h
    cases h

/-- `removeSubtree` removes the subtree or refuses, on every node id. -/
theorem Valid.removeSubtree_outcome {d : Document} (hv : Valid d) (x : Nat) :
    RemovesOrRefuses d x (removeSubtree x d) ↔ x ≠ 0 := by
  constructor
  · rintro h rfl
    have hroot : 0 ≠ d.rootNodeId := by
      rw [hv.shape.rootNodeId]
      exact Nat.zero_ne_one
    exact not_removesOrRefuses_zero (removeSubtree_missing hroot (lookup_zero d)) h
  · intro hx0
    by_cases hroot : x = d.rootNodeId
    · rw [hroot]
      exact .inl ⟨_, removeSubtree_root d⟩
    · cases hx : d.lookup x with
      | none =>
          refine .inl ⟨.unknownNode, ?_⟩
          rw [removeSubtree_missing hroot hx, missing_eq_error hx0]
      | some n =>
          have hx1 : x ≠ 1 := by rwa [hv.shape.rootNodeId] at hroot
          obtain ⟨p, hp, -⟩ := hv.shape.parent hx hx1
          exact .inr ⟨_, hv.removeSubtree_live hroot hx hp,
            hv.removed_pruned hx hp (List.Perm.refl _)⟩

/-- What is left when the root goes is not a document. -/
theorem Hollow.not_valid {d : Document} (hh : Hollow d) : ¬ Valid d := by
  intro hv
  obtain ⟨r, hr, -⟩ := hv.shape.root
  rw [hh.lookup] at hr
  cases hr

/-- `removeNode` removes a leaf or refuses, on every node id but that of a root without children. -/
theorem Valid.removeNode_outcome {d : Document} (hv : Valid d) (x : Nat) :
    RemovesOrRefuses d x (removeNode x d) ↔
      x ≠ 0 ∧ ¬ (x = d.rootNodeId ∧ d.childrenOf x = []) := by
  have hroot := hv.shape.rootNodeId
  constructor
  · refine fun h => ⟨?_, ?_⟩
    · rintro rfl
      exact not_removesOrRefuses_zero (removeNode_missing (lookup_zero d)) h
    · rintro ⟨hx, hchildren⟩
      rw [hroot] at hx
      subst hx
      obtain ⟨r, hr, -⟩ := hv.shape.root
      obtain ⟨d', heq, hh⟩ := hv.removeNode_only hr (childrenOf_eq hr ▸ hchildren)
      rw [heq] at h
      rcases h with ⟨e, h⟩ | ⟨d'', h, hremoved⟩
      · cases h
      · cases h
        exact hh.not_valid hremoved.valid
  · rintro ⟨hx0, hinner⟩
    cases hx : d.lookup x with
    | none =>
        refine .inl ⟨.unknownNode, ?_⟩
        rw [removeNode_missing hx, missing_eq_error hx0]
    | some n =>
        by_cases hleaf : n.children = []
        · have hx1 : x ≠ 1 := fun h => hinner ⟨h.trans hroot.symm, (childrenOf_eq hx).trans hleaf⟩
          obtain ⟨p, hp, -⟩ := hv.shape.parent hx hx1
          have hpost : [x].Perm (hv.shape.forest.postorder x) := by
            rw [hv.shape.postorder_leaf hx hleaf]
          exact .inr ⟨_, hv.removeNode_leaf hx hleaf hp, hv.removed_pruned hx hp hpost⟩
        · exact .inl ⟨_, removeNode_inner hx hleaf⟩

/-- On every document: `removeSubtree` removes exactly the subtree or refuses it, and so does
`removeNode`, unless it is asked for the root and the root has no children. -/
theorem removal_outcome {d : Document} (hv : Valid d) (x : Nat) :
    (RemovesOrRefuses d x (removeSubtree x d) ↔ x ≠ 0) ∧
    (RemovesOrRefuses d x (removeNode x d) ↔
      x ≠ 0 ∧ ¬ (x = d.rootNodeId ∧ d.childrenOf x = [])) :=
  ⟨hv.removeSubtree_outcome x, hv.removeNode_outcome x⟩

/-- A new document refuses to remove its root as a subtree, but not as a leaf. -/
theorem removal_outcome_init :
    RemovesOrRefuses (init 1 [100]) 1 (removeSubtree 1 (init 1 [100])) ∧
      ¬ RemovesOrRefuses (init 1 [100]) 1 (removeNode 1 (init 1 [100])) :=
  ⟨(removal_outcome (valid_init 1 [100]) 1).1.mpr (by decide),
    fun h => ((removal_outcome (valid_init 1 [100]) 1).2.mp h).2 ⟨rfl, rfl⟩⟩

/-- The call succeeds and takes the only node. -/
theorem root_removed : ¬ ∀ d : Document, Valid d → ∀ x ≠ 0,
    RemovesOrRefuses d x (removeNode x d) ∧ RemovesOrRefuses d x (removeSubtree x d) := by
  intro h
  have hrun : (removeNode 1 (init 1 [100])).1 = .ok () := by decide +kernel
  have hgone : (removeNode 1 (init 1 [100])).2.lookup 1 = none := by decide +kernel
  rcases (h _ (valid_init 1 [100]) 1 one_ne_zero).1 with ⟨e, heq⟩ | ⟨d', heq, hremoved⟩
  · rw [heq] at hrun
    cases hrun
  · rw [heq] at hgone
    obtain ⟨r, hr, -⟩ := hremoved.valid.shape.root
    rw [hgone] at hr
    cases hr

/-! ## The order of the survivors -/

/-- The listing of the new document is the old one with the dead ids deleted. -/
def KeepsPreorder (d d' : Document) : Prop :=
  ∃ before, d.collectPreorderNodeIds = .ok before ∧
    d'.collectPreorderNodeIds = .ok (before.filter fun y => (d'.lookup y).isSome)

/-- The siblings that come after `x`. -/
def laterSiblings (d : Document) (x : Nat) : List Nat :=
  match (d.lookup x).bind Node.parentId with
  | some p => ((d.childrenOf p).dropWhile (· ≠ x)).tail
  | none => []

theorem laterSiblings_eq {d : Document} {x p : Nat} {n : Node} (hx : d.lookup x = some n)
    (hp : n.parentId = some p) {as bs : List Nat} (hsplit : d.childrenOf p = as ++ x :: bs)
    (hfresh : x ∉ as) : d.laterSiblings x = bs := by
  have hskip : (as ++ x :: bs).dropWhile (· ≠ x) = x :: bs := by
    rw [List.dropWhile_append_of_pos]
    · simp
    · intro a ha
      simpa using fun h : a = x => hfresh (h ▸ ha)
  have hparent : (d.lookup x).bind Node.parentId = some p := by rw [hx]; exact hp
  rw [laterSiblings, hparent]
  show ((d.childrenOf p).dropWhile (· ≠ x)).tail = bs
  rw [hsplit, hskip, List.tail_cons]

/-- Two listings of one set of numbers in the order of a third one are equal. -/
theorem eq_of_sublist_perm {xs ys zs : List Nat} (hz : zs.Nodup) (hx : xs.Sublist zs)
    (hy : ys.Sublist zs) (hperm : xs.Perm ys) : xs = ys := by
  induction zs generalizing xs ys with
  | nil => rw [List.sublist_nil.mp hx, List.sublist_nil.mp hy]
  | cons z zs ih =>
      obtain ⟨hfresh, hz⟩ := List.nodup_cons.mp hz
      cases hx with
      | cons _ hx =>
          cases hy with
          | cons _ hy => exact ih hz hx hy hperm
          | cons_cons _ hy =>
              exact absurd (hx.subset (hperm.mem_iff.mpr (List.mem_cons_self ..))) hfresh
      | cons_cons _ hx =>
          cases hy with
          | cons _ hy =>
              exact absurd (hy.subset (hperm.mem_iff.mp (List.mem_cons_self ..))) hfresh
          | cons_cons _ hy => rw [ih hz hx hy ((List.perm_cons z).mp hperm)]

/-- No child is listed twice. -/
theorem erase_childrenOf {d : Document} (hv : Valid d) (x y : Nat) :
    (d.childrenOf y).erase x = (d.childrenOf y).filter (· ≠ x) := by
  have hnodup : (d.childrenOf y).Nodup := hv.shape.forest.nodup y
  rw [hnodup.erase_eq_filter]
  exact List.filter_congr fun c _ => by simp [bne, Bool.beq_eq_decide_eq]

namespace Removed

variable {d d' : Document} {x : Nat} (hr : Removed d x d')
include hr

theorem isSome_iff {y : Nat} {n : Node} (hy : d.lookup y = some n) :
    (d'.lookup y).isSome = true ↔ ¬ d.Descends x y := by
  constructor
  · intro h hxy
    rw [hr.gone y hxy] at h
    cases h
  · intro hxy
    obtain ⟨children, hy', -⟩ := hr.kept y n hy hxy
    rw [hy']
    rfl

/-- A node of the tree is left unless it lies below `x`. -/
theorem isSome_of_below (hv : Valid d) {y : Nat} (hy : hv.shape.forest.Below 1 y) :
    (d'.lookup y).isSome = true ↔ ¬ hv.shape.forest.Below x y := by
  obtain ⟨r, hroot, -⟩ := hv.shape.root
  obtain ⟨k, hk⟩ := hv.shape.live_of_below hroot hy
  exact hr.isSome_iff hk

/-- Of the children of the parent of `x`, all but `x` are left. -/
theorem filter_siblings (hv : Valid d) {p : Nat} {m : Node} (hm : d.lookup p = some m)
    (hmem : x ∈ m.children) :
    (d.childrenOf p).filter (fun y => (d'.lookup y).isSome) = (d.childrenOf p).erase x := by
  rw [erase_childrenOf hv]
  refine List.filter_congr fun c hc => ?_
  have hbelow : hv.shape.forest.Below 1 c :=
    (hv.below_root hm).trans (hv.shape.forest.below_child hc)
  have hcx : c ≠ x ↔ ¬ hv.shape.forest.Below x c := by
    constructor
    · intro hcx hxc
      exact hv.shape.forest.siblings_disjoint (mem_childrenOf.mpr ⟨m, hm, hmem⟩) hc hcx.symm hxc
        (hv.shape.forest.below_self c)
    · rintro hxc rfl
      exact hxc (hv.shape.forest.below_self c)
  rw [Bool.eq_iff_iff, hr.isSome_of_below hv hbelow, ← hcx, decide_eq_true_iff]

/-- When the listing keeps its order, so does the parent's list, which stands in it. -/
theorem childrenOf_of_keepsPreorder (hv : Valid d) {p : Nat} {m : Node} (hm : d.lookup p = some m)
    (hmem : x ∈ m.children) (hpx : ¬ hv.shape.forest.Below x p) (h : KeepsPreorder d d') :
    d'.childrenOf p = (d.childrenOf p).erase x := by
  obtain ⟨children, hp', hperm, -⟩ := hr.kept p m hm hpx
  obtain ⟨before, hb, ha⟩ := h
  rw [hv.shape.collectPreorderNodeIds_eq] at hb
  cases hb
  rw [hr.valid.shape.collectPreorderNodeIds_eq] at ha
  have hlist := Except.ok.inj ha
  -- Both child lists stand in the new listing in its order.
  have hnew := hr.valid.shape.forest.children_sublist_preorder (hr.valid.below_root hp')
  have hold := (hv.shape.forest.children_sublist_preorder (hv.below_root hm)).filter
    fun y => (d'.lookup y).isSome
  rw [← hlist] at hold
  have hsame : (d.childrenOf p).filter (fun y => (d'.lookup y).isSome)
      = (d.childrenOf p).erase x := hr.filter_siblings hv hm hmem
  refine eq_of_sublist_perm (hr.valid.shape.forest.nodup_preorder 1) hnew (hsame ▸ hold) ?_
  rw [childrenOf_eq hp', childrenOf_eq hm]
  exact hperm

/-- When the parent's list keeps its order, so does the listing: no other list changes. -/
theorem keepsPreorder_of_childrenOf (hv : Valid d) {p : Nat} {m : Node} (hm : d.lookup p = some m)
    (hmem : x ∈ m.children) (hx1 : ¬ hv.shape.forest.Below x 1)
    (hchildren : d'.childrenOf p = (d.childrenOf p).erase x) : KeepsPreorder d d' := by
  refine ⟨_, hv.shape.collectPreorderNodeIds_eq, ?_⟩
  rw [hr.valid.shape.collectPreorderNodeIds_eq]
  refine congrArg Except.ok (Forest.preorder_cut (fun _ hy => hr.isSome_of_below hv hy) ?_
    (hv.shape.forest.below_self 1) hx1)
  intro y hy hxy
  show d'.childrenOf y = (d.childrenOf y).filter (· ≠ x)
  rw [← erase_childrenOf hv]
  by_cases hyp : y = p
  · rw [hyp, hchildren]
  · obtain ⟨r, hroot, -⟩ := hv.shape.root
    obtain ⟨k, hk⟩ := hv.shape.live_of_below hroot hy
    obtain ⟨kept, hy', -, hsame⟩ := hr.kept y k hk hxy
    have hxk : x ∉ k.children := fun hxk => hyp (hv.shape.forest.parent_unique
      (mem_childrenOf.mpr ⟨k, hk, hxk⟩) (mem_childrenOf.mpr ⟨m, hm, hmem⟩))
    rw [childrenOf_eq hy', childrenOf_eq hk, hsame hxk, List.erase_of_not_mem hxk]

/-- The order stays when the parent of `x` keeps the order of its other children. -/
theorem keepsPreorder_iff (hv : Valid d) {p : Nat} {n : Node} (hx : d.lookup x = some n)
    (hp : n.parentId = some p) :
    KeepsPreorder d d' ↔ d'.childrenOf p = (d.childrenOf p).erase x := by
  obtain ⟨m, hm, hmem⟩ := hv.linked hx hp
  obtain ⟨hp1, hlt⟩ := hv.shape.parent_lt hx hp
  have hpx : ¬ hv.shape.forest.Below x p := fun h => absurd h.le hlt.not_ge
  have hx1 : ¬ hv.shape.forest.Below x 1 := fun h => by
    have hle := h.le
    omega
  exact ⟨hr.childrenOf_of_keepsPreorder hv hm hmem hpx,
    hr.keepsPreorder_of_childrenOf hv hm hmem hx1⟩

end Removed

/-- Pruning keeps the order when at most one sibling came after the node. -/
theorem Valid.keepsPreorder_pruned {d : Document} (hv : Valid d) {p x : Nat} {n : Node}
    (hx : d.lookup x = some n) (hp : n.parentId = some p) {postorder : List Nat}
    (hpost : postorder.Perm (hv.shape.forest.postorder x)) :
    KeepsPreorder d (d.pruned p x postorder (postorder.map d.contentLength).sum) ↔
      (d.laterSiblings x).length ≤ 1 := by
  obtain ⟨hr, -, -, -⟩ := hv.removal hx hp hpost
  obtain ⟨m, hm, hmem⟩ := hv.linked hx hp
  obtain ⟨as, bs, hsplit, hfresh⟩ := List.eq_append_cons_of_mem hmem
  have hbs : bs.Nodup := by
    have hnodup := hv.shape.nodup hm
    rw [hsplit] at hnodup
    exact hnodup.of_append_right.of_cons
  have hp' : p ∉ postorder := by
    intro hpP
    have hle := (hv.shape.forest.mem_postorder.mp (hpost.mem_iff.mp hpP)).le
    exact absurd hle (hv.shape.parent_lt hx hp).2.not_ge
  have hchildren : (d.pruned p x postorder (postorder.map d.contentLength).sum).childrenOf p
      = swapRemoveFirst x m.children := by
    refine childrenOf_eq (n := m.dropChild x) ?_
    rw [hr.lookup_pruned, if_neg hp', hm, Option.map_some, if_pos rfl]
  rw [(hv.removed_pruned hx hp hpost).keepsPreorder_iff hv hx hp, hchildren, childrenOf_eq hm,
    laterSiblings_eq hx hp ((childrenOf_eq hm).trans hsplit) hfresh, hsplit,
    List.erase_append_right _ hfresh, List.erase_cons_head]
  exact swapRemoveFirst_ordered hfresh hbs

/-- Without a root there is no listing. -/
theorem Hollow.not_keepsPreorder {d d' : Document} (hh : Hollow d') : ¬ KeepsPreorder d d' := by
  rintro ⟨before, -, h⟩
  rw [collectPreorderNodeIds, walkPreorder, walkPreorderWith,
    nodeOr_of_missing (hh.lookup d'.rootNodeId)] at h
  cases h

/-- A removal that succeeds keeps the listing in order exactly when at most one sibling came after
the node. A root that `removeNode` took leaves nothing to list. -/
theorem removal_order {d : Document} (hv : Valid d) (x : Nat) (d' : Document) :
    (removeSubtree x d = (.ok (), d') →
      (KeepsPreorder d d' ↔ (d.laterSiblings x).length ≤ 1)) ∧
    (removeNode x d = (.ok (), d') →
      (KeepsPreorder d d' ↔ x ≠ d.rootNodeId ∧ (d.laterSiblings x).length ≤ 1)) := by
  constructor
  · intro h
    rcases removeSubtree_cases hv x with ⟨n, p, hx, hp, heq⟩ | ⟨f, heq⟩
    · rw [h] at heq
      cases heq
      exact hv.keepsPreorder_pruned hx hp (List.Perm.refl _)
    · rw [h] at heq
      cases heq
  · intro h
    rw [hv.shape.rootNodeId]
    by_cases hx1 : x = 1
    · subst hx1
      have hh : Hollow d' := by
        rcases removeNode_root hv with hh | heq
        · rwa [h] at hh
        · rw [h] at heq
          cases heq
      exact iff_of_false hh.not_keepsPreorder fun hne => hne.1 rfl
    · rcases removeNode_cases hv hx1 with ⟨n, p, hx, hleaf, hp, heq⟩ | ⟨f, heq⟩
      · rw [h] at heq
        cases heq
        have hpost : [x].Perm (hv.shape.forest.postorder x) := by
          rw [hv.shape.postorder_leaf hx hleaf]
        rw [hv.keepsPreorder_pruned hx hp hpost]
        exact ⟨fun hlater => ⟨hx1, hlater⟩, fun hlater => hlater.2⟩
      · rw [h] at heq
        cases heq

/-- A document whose root has the children 2, 3 and 4. -/
def threeChildren : Document :=
  let one := (appendNode 1 .textLeaf [97] .none (init 1 [100])).2
  let two := (appendNode 1 .textLeaf [98] .none one).2
  (appendNode 1 .textLeaf [99] .none two).2

theorem valid_threeChildren : Valid threeChildren := by
  have hone := (appendNode_sound 1 .textLeaf [97] .none _ (valid_init 1 [100])).1
  have htwo := (appendNode_sound 1 .textLeaf [98] .none _ hone).1
  exact (appendNode_sound 1 .textLeaf [99] .none _ htwo).1

/-- The second of three children goes and the listing keeps its order. -/
theorem removal_order_second :
    KeepsPreorder threeChildren (removeNode 3 threeChildren).2 := by
  refine ((removal_order valid_threeChildren 3 _).2 ?_).mpr ⟨by decide +kernel, by decide +kernel⟩
  exact Prod.ext (by decide +kernel) rfl

/-- The first of three children goes and the other two change places. -/
theorem removal_reorders : ¬ ∀ d : Document, Valid d → ∀ x d',
    removeNode x d = (.ok (), d') ∨ removeSubtree x d = (.ok (), d') → KeepsPreorder d d' := by
  intro h
  have hrun : removeSubtree 2 threeChildren = (.ok (), (removeSubtree 2 threeChildren).2) :=
    Prod.ext (by decide +kernel) rfl
  obtain ⟨before, hb, ha⟩ := h _ valid_threeChildren 2 _ (.inr hrun)
  have hbefore : threeChildren.collectPreorderNodeIds = .ok [1, 2, 3, 4] := by decide +kernel
  have hafter : (removeSubtree 2 threeChildren).2.collectPreorderNodeIds = .ok [1, 4, 3] := by
    decide +kernel
  rw [hbefore] at hb
  cases hb
  rw [hafter] at ha
  have hfilter : [1, 2, 3, 4].filter (fun y => ((removeSubtree 2 threeChildren).2.lookup y).isSome)
      = [1, 3, 4] := by decide +kernel
  rw [hfilter] at ha
  cases ha

end Document

end Muxly.Core
