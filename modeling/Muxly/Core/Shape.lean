/-
# Muxly.Core.Shape -- the shape of a document: slots, links, and what walks over them see

`Shape` is what every operation keeps, whatever it returns: a node sits in the slot of its id, the
root is there, a parent has a smaller id than its child, a listed child is live and points back, and
the node counter is right.
`Linked` adds that every live node is listed by a live parent.

Under `Shape` the links are a `Forest`, so the traversals of the source are the listings of it.
-/
import Mathlib.Algebra.BigOperators.Group.List.Basic
import Mathlib.Data.List.Perm.Subperm
import Mathlib.Tactic.Ring
import Muxly.Core.Document

namespace Muxly.Core

open Muxly.Control Muxly.Data Muxly.Tree

namespace Document

/-! ## Reading slots after a write -/

@[simp] theorem lookup_zero (d : Document) : d.lookup 0 = none := rfl

theorem lookup_succ (d : Document) (i : Nat) : d.lookup (i + 1) = d.nodeSlots[i]?.join := rfl

theorem lookup_pos {d : Document} {x : Nat} {n : Node} (h : d.lookup x = some n) : x ≠ 0 := by
  rintro rfl
  cases h

theorem lookup_le {d : Document} {x : Nat} {n : Node} (h : d.lookup x = some n) :
    x ≤ d.nodeSlots.length := by
  rcases x with _ | i
  · exact Nat.zero_le _
  · by_contra hlt
    rw [lookup_succ, List.getElem?_eq_none (by omega)] at h
    cases h

theorem lookup_modifyNode (d : Document) (x : Nat) (f : Node → Node) (y : Nat) :
    (d.modifyNode x f).lookup y = if y = x then (d.lookup y).map f else d.lookup y := by
  rcases x with _ | i
  · rcases y with _ | j
    · rfl
    · rfl
  · rcases y with _ | j
    · simp
    · simp only [modifyNode, lookup_succ, List.getElem?_modify, Nat.add_right_cancel_iff]
      by_cases h : j = i
      · subst h
        cases d.nodeSlots[j]? <;> simp
      · simp [h, Ne.symm h]

theorem lookup_withSlot (d : Document) {x : Nat} (hx : x ≠ 0) (slot : Option Node)
    (y : Nat) : (d.withSlot x slot).lookup y = if y = x then slot else d.lookup y := by
  rcases x with _ | i
  · exact absurd rfl hx
  · rcases y with _ | j
    · simp
    · simp only [withSlot, lookup_succ, Nat.add_right_cancel_iff]
      by_cases h : j = i
      · subst h
        rw [List.getElem?_set_self (by simp; omega), if_pos rfl]
        rfl
      · rw [List.getElem?_set_ne (Ne.symm h), if_neg h, List.getElem?_append]
        split
        · rfl
        · rename_i hj
          rw [List.getElem?_eq_none (l := d.nodeSlots) (by omega), List.getElem?_replicate]
          split <;> rfl

@[simp] theorem length_modifyNode (d : Document) (x : Nat) (f : Node → Node) :
    (d.modifyNode x f).nodeSlots.length = d.nodeSlots.length := by
  rcases x with _ | i
  · rfl
  · simp [modifyNode]

theorem length_withSlot (d : Document) (x : Nat) (slot : Option Node) :
    (d.withSlot x slot).nodeSlots.length = max d.nodeSlots.length x := by
  rcases x with _ | i
  · simp [withSlot]
  · simp [withSlot]
    omega

/-! ## Sums over the live nodes -/

/-- The weight of a slot. -/
def slotWeight (w : Node → Nat) (slot : Option Node) : Nat := slot.elim 0 w

/-- The sum of a weight over the live nodes. -/
def sumNodes (w : Node → Nat) (d : Document) : Nat := (d.nodeSlots.map (slotWeight w)).sum

theorem sum_set_add (l : List Nat) (i v : Nat) :
    (l.set i v).sum + l.getD i 0 = l.sum + (if i < l.length then v else 0) := by
  induction l generalizing i with
  | nil => simp
  | cons x rest ih =>
      cases i with
      | zero => simp; omega
      | succ i =>
          have := ih i
          simp only [List.set_cons_succ, List.sum_cons, List.getD_cons_succ, List.length_cons,
            Nat.add_lt_add_iff_right]
          omega

theorem sumNodes_withSlot (w : Node → Nat) (d : Document) {x : Nat} (hx : x ≠ 0)
    (slot : Option Node) :
    sumNodes w (d.withSlot x slot) + slotWeight w (d.lookup x)
      = sumNodes w d + slotWeight w slot := by
  rcases x with _ | i
  · exact absurd rfl hx
  · have hset := sum_set_add
      ((d.nodeSlots ++ List.replicate (i + 1 - d.nodeSlots.length) none).map (slotWeight w)) i
      (slotWeight w slot)
    have hlen : i < d.nodeSlots.length + (i + 1 - d.nodeSlots.length) := by omega
    have hold : ((d.nodeSlots ++ List.replicate (i + 1 - d.nodeSlots.length) none).map
        (slotWeight w)).getD i 0 = slotWeight w (d.lookup (i + 1)) := by
      rw [lookup_succ, List.getD_eq_getElem?_getD, List.getElem?_map, List.getElem?_append]
      split
      · rename_i h
        rw [List.getElem?_eq_getElem h]
        rfl
      · rename_i h
        rw [List.getElem?_eq_none (l := d.nodeSlots) (by omega), List.getElem?_replicate]
        split <;> rfl
    have hzero : (List.replicate (i + 1 - d.nodeSlots.length) (slotWeight w none)).sum = 0 := by
      simp [slotWeight]
    rw [hold] at hset
    simp only [List.length_map, List.length_append, List.length_replicate, if_pos hlen,
      List.map_append, List.sum_append, List.map_replicate, hzero] at hset
    simp only [sumNodes, withSlot, List.map_set, List.map_append, List.map_replicate]
    omega

theorem sumNodes_modifyNode (w : Node → Nat) (d : Document) {x : Nat} {n : Node}
    (f : Node → Node) (hx : d.lookup x = some n) :
    sumNodes w (d.modifyNode x f) + w n = sumNodes w d + w (f n) := by
  rcases x with _ | i
  · cases hx
  · have hslot : d.nodeSlots[i]? = some (some n) := Option.join_eq_some_iff.mp hx
    have hlt : i < d.nodeSlots.length := (List.getElem?_eq_some_iff.mp hslot).1
    have hset := sum_set_add (d.nodeSlots.map (slotWeight w)) i (w (f n))
    have hmod : (d.nodeSlots.modify i (Option.map f)).map (slotWeight w)
        = (d.nodeSlots.map (slotWeight w)).set i (w (f n)) := by
      have hget : d.nodeSlots[i]?.getD default = some n := by rw [hslot, Option.getD_some]
      rw [List.modify_eq_set, hget, List.map_set]
      rfl
    rw [List.getD_eq_getElem?_getD, List.getElem?_map, hslot] at hset
    simp only [sumNodes, modifyNode, hmod]
    simpa [slotWeight, hlt] using hset

/-- An edit that leaves the weight of a node alone leaves the sum alone. -/
theorem sumNodes_modifyNode_of_eq (w : Node → Nat) (d : Document) (x : Nat) {f : Node → Node}
    (hw : ∀ n, w (f n) = w n) : sumNodes w (d.modifyNode x f) = sumNodes w d := by
  rcases x with _ | i
  · rfl
  · have hslot : ∀ slot, slotWeight w (Option.map f slot) = slotWeight w slot := by
      intro slot
      cases slot with
      | none => rfl
      | some n => exact hw n
    have hmap : (d.nodeSlots.modify i (Option.map f)).map (slotWeight w)
        = d.nodeSlots.map (slotWeight w) := by
      refine List.ext_getElem? fun j => ?_
      rw [List.getElem?_map, List.getElem?_map, List.getElem?_modify]
      split
      · cases d.nodeSlots[j]? with
        | none => rfl
        | some slot => exact congrArg some (hslot slot)
      · simp
    exact congrArg List.sum hmap

/-! ## The shape -/

/-- What every operation on a document keeps, whether it succeeds or fails. -/
structure Shape (d : Document) : Prop where
  id_eq : ∀ {x n}, d.lookup x = some n → n.id = x
  rootNodeId : d.rootNodeId = 1
  root : ∃ n, d.lookup 1 = some n ∧ n.parentId = none ∧ n.kind = .document
  parent : ∀ {x n}, d.lookup x = some n → x ≠ 1 → ∃ p, n.parentId = some p ∧ 0 < p ∧ p < x
  child : ∀ {p n c}, d.lookup p = some n → c ∈ n.children →
    ∃ m, d.lookup c = some m ∧ m.parentId = some p
  nodup : ∀ {p n}, d.lookup p = some n → n.children.Nodup
  fresh : d.nodeSlots.length < d.nextNodeId
  count : d.liveNodeCount = sumNodes (fun _ => 1) d

/-- Every live node but the root is listed by a live parent. -/
def Linked (d : Document) : Prop :=
  ∀ {x n p}, d.lookup x = some n → n.parentId = some p → ∃ m, d.lookup p = some m ∧ x ∈ m.children

/-- The children of a node; a dead node has none. -/
def childrenOf (d : Document) (x : Nat) : List Nat := ((d.lookup x).map Node.children).getD []

theorem childrenOf_eq {d : Document} {x : Nat} {n : Node} (h : d.lookup x = some n) :
    d.childrenOf x = n.children := by rw [childrenOf, h]; rfl

theorem mem_childrenOf {d : Document} {p c : Nat} :
    c ∈ d.childrenOf p ↔ ∃ n, d.lookup p = some n ∧ c ∈ n.children := by
  unfold childrenOf
  cases d.lookup p <;> simp

/-- A node is live and its kind is an enabled container kind. -/
def hasContainerKind (d : Document) (enabled : ConcurrentContainerKinds) (x : Nat) : Bool :=
  (d.lookup x).any fun n => containerChildDomainsEnabled n.kind enabled

theorem findNode_of_ne_zero {d : Document} {x : Nat} (h : x ≠ 0) :
    d.findNode x = .ok (d.lookup x) := by rw [findNode, if_neg h]

theorem nodeOr_of_lookup {d : Document} {x : Nat} {n : Node} (h : d.lookup x = some n) (e : Err) :
    d.nodeOr x e = .ok n := by
  rw [nodeOr, findNode_of_ne_zero (lookup_pos h), h]
  rfl

theorem nodeOr_of_none {d : Document} {x : Nat} (hx : x ≠ 0) (h : d.lookup x = none) (e : Err) :
    d.nodeOr x e = .error (.error e) := by
  rw [nodeOr, findNode_of_ne_zero hx, h]
  rfl

theorem nodeOr_zero (d : Document) (e : Err) : d.nodeOr 0 e = .error (.panic .zeroNodeId) := rfl

/-- What `findNode(nodeId) orelse return e` can do. -/
theorem nodeOr_eq_ok {d : Document} {x : Nat} {n : Node} {e : Err} :
    d.nodeOr x e = .ok n ↔ d.lookup x = some n := by
  constructor
  · intro h
    by_cases hx : x = 0
    · subst hx
      cases h
    · cases hl : d.lookup x with
      | none =>
          rw [nodeOr_of_none hx hl] at h
          cases h
      | some m =>
          rw [nodeOr_of_lookup hl] at h
          exact congrArg some (Except.ok.inj h)
  · exact fun h => nodeOr_of_lookup h e

theorem deref_of_lookup {d : Document} {x : Nat} {n : Node} (h : d.lookup x = some n) :
    d.deref x = .ok n := by rw [deref, h]

namespace Shape

variable {d : Document} (h : Shape d)
include h

theorem parent_lt {x p : Nat} {n : Node} (hx : d.lookup x = some n) (hp : n.parentId = some p) :
    0 < p ∧ p < x := by
  by_cases hx1 : x = 1
  · subst hx1
    obtain ⟨r, hr, hnone, -⟩ := h.root
    rw [hr] at hx
    cases hx
    rw [hnone] at hp
    cases hp
  · obtain ⟨q, hq, hlt⟩ := h.parent hx hx1
    rw [hp] at hq
    cases hq
    exact hlt

theorem slots_pos : 1 ≤ d.nodeSlots.length := by
  obtain ⟨n, hn, -⟩ := h.root
  exact lookup_le hn

theorem lookup_lt {x : Nat} {n : Node} (hx : d.lookup x = some n) : x < d.nextNodeId :=
  Nat.lt_of_le_of_lt (lookup_le hx) h.fresh

/-- The links of a document. -/
def forest : Forest where
  children := d.childrenOf
  bound := d.nodeSlots.length + 1
  above := by
    intro p c hc
    obtain ⟨n, hn, hc⟩ := mem_childrenOf.mp hc
    obtain ⟨m, hm, hp⟩ := h.child hn hc
    exact (h.parent_lt hm hp).2
  below := by
    intro p c hc
    obtain ⟨n, hn, hc⟩ := mem_childrenOf.mp hc
    obtain ⟨m, hm, -⟩ := h.child hn hc
    exact Nat.lt_succ_of_le (lookup_le hm)
  nodup := by
    intro p
    unfold childrenOf
    cases hp : d.lookup p with
    | none => exact List.nodup_nil
    | some n => exact h.nodup hp
  parent_unique := by
    intro p q c hp hq
    obtain ⟨n, hn, hc⟩ := mem_childrenOf.mp hp
    obtain ⟨n', hn', hc'⟩ := mem_childrenOf.mp hq
    obtain ⟨m, hm, hmp⟩ := h.child hn hc
    obtain ⟨m', hm', hmp'⟩ := h.child hn' hc'
    rw [hm] at hm'
    cases hm'
    rw [hmp] at hmp'
    exact Option.some.inj hmp'

theorem live_of_below {r x : Nat} {n : Node} (hr : d.lookup r = some n) (hx : h.forest.Below r x) :
    ∃ m, d.lookup x = some m := by
  cases hx with
  | refl => exact ⟨n, hr⟩
  | tail _ hc =>
      obtain ⟨p, hp, hc⟩ := mem_childrenOf.mp hc
      obtain ⟨m, hm, -⟩ := h.child hp hc
      exact ⟨m, hm⟩

theorem length_preorder_le {r : Nat} {n : Node} (hr : d.lookup r = some n) :
    (h.forest.preorder r).length ≤ d.nodeSlots.length := by
  have hle := lookup_le hr
  have hpos := Nat.pos_of_ne_zero (lookup_pos hr)
  have hlen := h.forest.length_preorder_le (Nat.lt_succ_of_le hle)
  have hbound : h.forest.bound = d.nodeSlots.length + 1 := rfl
  omega

/-! ### Traversals under the shape -/

/-- `walkPreorder` folds the visitor over the preorder listing. -/
theorem walkPreorderWith_eq {ε σ : Type} (fail : Failure → ε) (visit : σ → Node → Except ε σ)
    (s : σ) :
    d.walkPreorderWith fail visit s = (h.forest.preorder 1).foldlM (fun s x =>
      (d.nodeOr x .unknownNode).mapError fail >>= visit s) s := by
  obtain ⟨r, hr, -⟩ := h.root
  have hlist : [1].flatMap h.forest.preorder = h.forest.preorder 1 := by simp
  rw [walkPreorderWith, h.rootNodeId, nodeOr_of_lookup hr, ← hlist]
  refine stackLoop_preorder h.forest (fail .outOfFuel) (f := fun s x =>
    (d.nodeOr x .unknownNode).mapError fail >>= visit s) [1] ?_ ?_ s
  · intro x hx s
    rw [hlist, h.forest.mem_preorder] at hx
    obtain ⟨n, hn⟩ := h.live_of_below hr hx
    have hch : h.forest.children x = n.children := childrenOf_eq hn
    rw [nodeOr_of_lookup hn, hch]
    show (visit s n >>= fun s' => pure (n.children, s')) = (visit s n).map _
    cases visit s n <;> rfl
  · rw [hlist]
    exact Nat.le_succ_of_le (h.length_preorder_le hr)

theorem walkPreorder_eq {σ : Type} (visit : σ → Node → Except Failure σ) (s : σ) :
    d.walkPreorder visit s
      = (h.forest.preorder 1).foldlM (fun s x => d.nodeOr x .unknownNode >>= visit s) s := by
  have hid : ∀ x, (d.nodeOr x .unknownNode).mapError (fun failure => failure)
      = d.nodeOr x .unknownNode := fun x => by cases d.nodeOr x .unknownNode <;> rfl
  rw [walkPreorder, h.walkPreorderWith_eq]
  simp only [hid]

theorem collectPreorderNodeIds_eq : d.collectPreorderNodeIds = .ok (h.forest.preorder 1) := by
  obtain ⟨r, hr, -⟩ := h.root
  rw [collectPreorderNodeIds, h.walkPreorder_eq]
  suffices hfold : ∀ (xs acc : List Nat), (∀ x ∈ xs, ∃ n, d.lookup x = some n) →
      xs.foldlM (fun s x => d.nodeOr x .unknownNode >>= fun node =>
        (Except.ok (s ++ [node.id]) : Except Failure (List Nat))) acc = .ok (acc ++ xs) by
    exact hfold _ [] fun x hx => h.live_of_below hr (h.forest.mem_preorder.mp hx)
  intro xs
  induction xs with
  | nil =>
      intro acc _
      rw [List.append_nil]
      rfl
  | cons x rest ih =>
      intro acc hlive
      obtain ⟨n, hn⟩ := hlive x (List.mem_cons_self ..)
      rw [List.foldlM_cons, nodeOr_of_lookup hn]
      have hrest := ih (acc ++ [n.id]) fun y hy => hlive y (List.mem_cons_of_mem _ hy)
      rw [h.id_eq hn, List.append_assoc] at hrest
      show List.foldlM _ (acc ++ [n.id]) rest = _
      rw [h.id_eq hn]
      exact hrest

theorem collectSubtreePostorder_eq {x : Nat} {n : Node} (hx : d.lookup x = some n) :
    d.collectSubtreePostorder x = .ok (h.forest.postorder x) := by
  have hlive : ∀ y ∈ [(x, false)].flatMap (frameListing h.forest), ∃ m, d.lookup y = some m := by
    intro y hy
    refine h.live_of_below hx (h.forest.mem_postorder.mp ?_)
    simpa [frameListing] using hy
  have hlist : [(x, false)].flatMap (frameListing h.forest) = h.forest.postorder x := by
    simp [frameListing]
  rw [collectSubtreePostorder, nodeOr_of_lookup hx, ← hlist]
  refine stackLoop_postorder h.forest Failure.outOfFuel [(x, false)] ?_ ?_ ?_ []
  · intro y hy acc
    obtain ⟨m, hm⟩ := hlive y hy
    rw [nodeOr_of_lookup hm]
    rfl
  · intro y hy acc
    obtain ⟨m, hm⟩ := hlive y hy
    have hch : h.forest.children y = m.children := childrenOf_eq hm
    rw [nodeOr_of_lookup hm, hch]
    rfl
  · have hlen := h.length_preorder_le hx
    have hcost : frameCost h.forest (x, false) = 2 * (h.forest.preorder x).length := rfl
    simp only [List.map_cons, List.map_nil, List.sum_cons, List.sum_nil, hcost]
    omega

theorem length_children_le {p : Nat} {n : Node} (hp : d.lookup p = some n) :
    n.children.length ≤ d.nodeSlots.length := by
  have hsub : n.children ⊆ h.forest.preorder p := by
    intro c hc
    exact h.forest.mem_preorder.mpr (h.forest.below_child (mem_childrenOf.mpr ⟨n, hp, hc⟩))
  exact ((h.nodup hp).subperm hsub).length_le.trans (h.length_preorder_le hp)

theorem child_ne_zero {p c : Nat} {n : Node} (hp : d.lookup p = some n) (hc : c ∈ n.children) :
    c ≠ 0 := by
  obtain ⟨m, hm, -⟩ := h.child hp hc
  exact lookup_pos hm

/-! ### The search for container kinds -/

omit h in
theorem scanChildren_eq (enabled : ConcurrentContainerKinds) (children pushed : List Nat)
    (hlive : ∀ c ∈ children, ∃ m, d.lookup c = some m) :
    d.scanChildren enabled children pushed
      = if children.any (d.hasContainerKind enabled) then .error (.found true)
        else .ok (children.reverse ++ pushed) := by
  induction children generalizing pushed with
  | nil => rfl
  | cons c rest ih =>
      obtain ⟨m, hm⟩ := hlive c (List.mem_cons_self ..)
      have hkind : d.hasContainerKind enabled c = containerChildDomainsEnabled m.kind enabled := by
        rw [hasContainerKind, hm]
        rfl
      have hrest := ih (c :: pushed) fun y hy => hlive y (List.mem_cons_of_mem _ hy)
      rw [scanChildren, nodeOr_of_lookup hm, List.any_cons, hkind]
      simp only [Early.guard, ok_bind]
      cases containerChildDomainsEnabled m.kind enabled with
      | true => rfl
      | false => simpa using hrest

omit h in
/-- A search that stops at the first hit answers whether there is one. -/
theorem foldlM_search (hit : Nat → Bool) (xs : List Nat) :
    Early.conclude false (xs.foldlM (fun (_ : Unit) y =>
      if hit y then (.error (Early.found true) : Except (Early Bool) Unit) else .ok ()) ())
      = .ok (xs.any hit) := by
  induction xs with
  | nil => rfl
  | cons x rest ih =>
      rw [List.foldlM_cons, List.any_cons]
      cases hit x with
      | true => rfl
      | false => exact ih

theorem subtreeContains_eq {x : Nat} {n : Node} (hx : d.lookup x = some n)
    (enabled : ConcurrentContainerKinds) :
    d.subtreeContainsEnabledContainerKinds x enabled
      = .ok (d.hasContainerKind enabled x || (h.forest.rev.preorder x).any fun y =>
          (d.childrenOf y).any (d.hasContainerKind enabled)) := by
  have hkind : d.hasContainerKind enabled x = containerChildDomainsEnabled n.kind enabled := by
    rw [hasContainerKind, hx]
    rfl
  rw [subtreeContainsEnabledContainerKinds, nodeOr_of_lookup hx, hkind]
  simp only [ok_bind]
  cases containerChildDomainsEnabled n.kind enabled with
  | true => rfl
  | false =>
      have hlist : [x].flatMap h.forest.rev.preorder = h.forest.rev.preorder x := by simp
      simp only [Bool.false_eq_true, if_false, Bool.false_or]
      rw [← foldlM_search, ← hlist]
      refine congrArg (Early.conclude false) (stackLoop_preorder h.forest.rev
        (Early.failed Failure.outOfFuel) (f := fun _ y =>
          if (d.childrenOf y).any (d.hasContainerKind enabled) then .error (Early.found true)
          else .ok ()) [x] ?_ ?_ ())
      · intro y hy s
        rw [hlist, Forest.mem_preorder, Forest.below_rev] at hy
        obtain ⟨m, hm⟩ := h.live_of_below hx hy
        have hch : h.forest.rev.children y = m.children.reverse :=
          congrArg List.reverse (childrenOf_eq hm)
        have hscan := scanChildren_eq enabled m.children [] fun c hc =>
          (h.child hm hc).imp fun _ hc => hc.1
        rw [nodeOr_of_lookup hm, hch, childrenOf_eq hm]
        simp only [Early.guard, ok_bind, hscan, List.append_nil]
        cases m.children.any (d.hasContainerKind enabled) <;> rfl
      · rw [hlist]
        have hlen := h.forest.rev.length_preorder_le (Nat.lt_succ_of_le (lookup_le hx))
        have hbound : h.forest.rev.bound = d.nodeSlots.length + 1 := rfl
        omega

/-- The search finds a container kind exactly when the subtree has one. -/
theorem subtreeContains_iff {x : Nat} {n : Node} (hx : d.lookup x = some n)
    (enabled : ConcurrentContainerKinds) :
    ∃ b, d.subtreeContainsEnabledContainerKinds x enabled = .ok b ∧
      (b = true ↔ ∃ y, h.forest.Below x y ∧ d.hasContainerKind enabled y = true) := by
  refine ⟨_, h.subtreeContains_eq hx enabled, ?_⟩
  rw [Bool.or_eq_true, List.any_eq_true]
  constructor
  · rintro (hk | ⟨y, hy, hk⟩)
    · exact ⟨x, h.forest.below_self x, hk⟩
    · rw [Forest.mem_preorder, Forest.below_rev] at hy
      obtain ⟨c, hc, hk⟩ := List.any_eq_true.mp hk
      exact ⟨c, hy.trans (h.forest.below_child hc), hk⟩
  · rintro ⟨y, hy, hk⟩
    cases hy with
    | refl => exact .inl hk
    | tail hz hc =>
        refine .inr ⟨_, ?_, List.any_eq_true.mpr ⟨y, hc, hk⟩⟩
        rw [Forest.mem_preorder, Forest.below_rev]
        exact hz

end Shape

/-! ## Content totals -/

/-- The content length of a node; a dead node has none. -/
def contentLength (d : Document) (x : Nat) : Nat :=
  slotWeight (fun n => n.content.length) (d.lookup x)

theorem totalContentBytes_eq {d : Document} (xs : List Nat)
    (hlive : ∀ x ∈ xs, ∃ n, d.lookup x = some n)
    (hcap : (xs.map d.contentLength).sum < u64Limit) :
    d.totalContentBytesForNodes xs = .ok (xs.map d.contentLength).sum := by
  suffices hfold : ∀ (xs : List Nat) (acc : Nat), (∀ x ∈ xs, ∃ n, d.lookup x = some n) →
      acc + (xs.map d.contentLength).sum < u64Limit →
      xs.foldlM (fun total nodeId => do
        let node ← d.nodeOr nodeId .unknownNode
        if total + node.content.length < u64Limit then return total + node.content.length
        else throw (.error .contentAccountingDrift)) acc
        = (.ok (acc + (xs.map d.contentLength).sum) : Except Failure Nat) by
    have h := hfold xs 0 hlive (by omega)
    rwa [Nat.zero_add] at h
  intro xs
  induction xs with
  | nil => intro acc _ _; rfl
  | cons x rest ih =>
      intro acc hlive hcap
      obtain ⟨n, hn⟩ := hlive x (List.mem_cons_self ..)
      have hlen : d.contentLength x = n.content.length := by rw [contentLength, hn]; rfl
      simp only [List.map_cons, List.sum_cons, hlen] at hcap ⊢
      rw [List.foldlM_cons, nodeOr_of_lookup hn]
      simp only [ok_bind]
      rw [if_pos (by omega)]
      have hrest := ih (acc + n.content.length) (fun y hy => hlive y (List.mem_cons_of_mem _ hy))
        (by omega)
      rw [← Nat.add_assoc]
      exact hrest

/-! ## Names of children -/

/-- The names that the children of a node carry. -/
def childNames (d : Document) (p : Nat) : List Bytes :=
  (d.childrenOf p).filterMap fun c => (d.lookup c).bind Node.name

/-- The numbered names of `defaultChildName`. -/
def Shape.numberedName (baseName : Bytes) (suffix : Nat) : Bytes :=
  baseName ++ [dash] ++ decimal suffix

theorem Shape.numberedName_injective (baseName : Bytes) :
    Function.Injective (Shape.numberedName baseName) := by
  intro i j hij
  exact decimal_injective (List.append_cancel_left hij)

section Generated

variable {d : Document} {p : Nat} (hp : p ≠ 0) (hchildren : 0 ∉ d.childrenOf p)
include hp hchildren

/-- A dead parent has no children, and a dead child no name. -/
theorem siblingNameInUse_eq (name : Bytes) :
    d.siblingNameInUse (some p) none name = .ok (decide (name ∈ d.childNames p)) := by
  rw [siblingNameInUse, findNode_of_ne_zero hp]
  cases hlook : d.lookup p with
  | none =>
      have hnames : d.childNames p = [] := by rw [childNames, childrenOf, hlook]; rfl
      rw [hnames]
      rfl
  | some n =>
      have hany : (n.children.any fun c => (d.lookup c).bind Node.name == some name)
          = decide (name ∈ d.childNames p) := by
        rw [childNames, childrenOf_eq hlook, Bool.eq_iff_iff, List.any_eq_true, decide_eq_true_iff,
          List.mem_filterMap]
        simp only [beq_iff_eq]
      rw [childrenOf_eq hlook] at hchildren
      rw [← hany]
      refine anyM_ok fun c hc => ?_
      have hc0 : c ≠ 0 := fun h0 => hchildren (h0 ▸ hc)
      simp only [findNode_of_ne_zero hc0, reduceCtorEq, if_false, ok_bind]
      cases d.lookup c <;> rfl

/-- The search takes the first free number, or all the numbers it may try are in use. -/
theorem freeChildName_cases (baseName : Bytes) (fuel suffix : Nat) :
    (∃ k, suffix ≤ k ∧ k < suffix + fuel ∧ Shape.numberedName baseName k ∉ d.childNames p ∧
      (∀ j, suffix ≤ j → j < k → Shape.numberedName baseName j ∈ d.childNames p) ∧
      d.freeChildName p baseName fuel suffix = .ok (Shape.numberedName baseName k)) ∨
    ∀ j, suffix ≤ j → j < suffix + fuel → Shape.numberedName baseName j ∈ d.childNames p := by
  induction fuel generalizing suffix with
  | zero => exact .inr fun j hle hlt => absurd hlt (Nat.not_lt.mpr hle)
  | succ fuel ih =>
      have hused := siblingNameInUse_eq hp hchildren (Shape.numberedName baseName suffix)
      have hrun : d.freeChildName p baseName (fuel + 1) suffix =
          if Shape.numberedName baseName suffix ∈ d.childNames p
          then d.freeChildName p baseName fuel (suffix + 1)
          else .ok (Shape.numberedName baseName suffix) := by
        rw [freeChildName]
        show (d.siblingNameInUse (some p) none (Shape.numberedName baseName suffix) >>= _) = _
        rw [hused, ok_bind]
        by_cases hmem : Shape.numberedName baseName suffix ∈ d.childNames p
        · simp only [decide_eq_true hmem, if_true, if_pos hmem]
        · simp only [decide_eq_false hmem, Bool.false_eq_true, if_false, if_neg hmem]
          rfl
      rw [hrun]
      by_cases hmem : Shape.numberedName baseName suffix ∈ d.childNames p
      · rw [if_pos hmem]
        -- a number from `suffix` on is `suffix` itself or one of those that are tried after it
        have hfrom : ∀ {j}, suffix ≤ j →
            (suffix + 1 ≤ j → Shape.numberedName baseName j ∈ d.childNames p) →
            Shape.numberedName baseName j ∈ d.childNames p := by
          intro j hle hlater
          rcases Nat.eq_or_lt_of_le hle with rfl | hlt
          · exact hmem
          · exact hlater hlt
        rcases ih (suffix + 1) with ⟨k, hle, hlt, hfree, hleast, hok⟩ | hall
        · refine .inl ⟨k, by omega, by omega, hfree, fun j hj hjk => ?_, hok⟩
          exact hfrom hj fun hj => hleast j hj hjk
        · exact .inr fun j hj hjk => hfrom hj fun hj => hall j hj (by omega)
      · rw [if_neg hmem]
        exact .inl ⟨suffix, le_refl _, by omega, hmem, fun j hle hlt => absurd hlt (by omega), rfl⟩

omit hp hchildren in
/-- The names in use are names of nodes in slots. -/
theorem childNames_subset_slots :
    d.childNames p ⊆ d.nodeSlots.filterMap fun slot => slot.bind Node.name := by
  intro name hname
  obtain ⟨c, -, hc⟩ := List.mem_filterMap.mp hname
  obtain ⟨n, hn, hname⟩ := Option.bind_eq_some_iff.mp hc
  rcases c with _ | i
  · cases hn
  · rw [lookup_succ] at hn
    have hslot := Option.join_eq_some_iff.mp hn
    exact List.mem_filterMap.mpr ⟨some n, List.mem_of_getElem? hslot, hname⟩

omit hp hchildren in
/-- There are more numbered names to try than nodes that could use them. -/
theorem exists_numberedName_free (baseName : Bytes) (suffix : Nat) :
    ¬ ∀ j, suffix ≤ j → j < suffix + (d.nodeSlots.length + 1) →
      Shape.numberedName baseName j ∈ d.childNames p := by
  intro hall
  let tried := (List.range' suffix (d.nodeSlots.length + 1)).map (Shape.numberedName baseName)
  have hsub : tried ⊆ d.nodeSlots.filterMap fun slot => slot.bind Node.name := by
    intro name hname
    obtain ⟨j, hj, rfl⟩ := List.mem_map.mp hname
    rw [List.mem_range'_1] at hj
    exact childNames_subset_slots (hall j hj.1 hj.2)
  have hnodup : tried.Nodup := 
    (List.nodup_range' 1).map (Shape.numberedName_injective baseName)
  have hle := (hnodup.subperm hsub).length_le.trans (List.length_filterMap_le _ _)
  simp only [tried, List.length_map, List.length_range'] at hle
  omega

/-- What `defaultChildName` returns: nothing for a title without a slug, else the slug, or the slug
with the least free number. -/
theorem defaultChildName_cases (title : Bytes) :
    (defaultNodeName title = none ∧ d.defaultChildName p title = .ok none) ∨
    ∃ base, defaultNodeName title = some base ∧
      ((base ∉ d.childNames p ∧ d.defaultChildName p title = .ok (some base)) ∨
      (base ∈ d.childNames p ∧ ∃ k, 2 ≤ k ∧ k < d.nodeSlots.length + 3 ∧
        Shape.numberedName base k ∉ d.childNames p ∧
        (∀ j, 2 ≤ j → j < k → Shape.numberedName base j ∈ d.childNames p) ∧
        d.defaultChildName p title = .ok (some (Shape.numberedName base k)))) := by
  unfold defaultChildName
  cases defaultNodeName title with
  | none => exact .inl ⟨rfl, rfl⟩
  | some base =>
      refine .inr ⟨base, rfl, ?_⟩
      simp only [siblingNameInUse_eq hp hchildren, ok_bind]
      by_cases hused : base ∈ d.childNames p
      · rcases freeChildName_cases hp hchildren base (d.nodeSlots.length + 1) 2 with
          ⟨k, hle, hlt, hfree, hleast, hok⟩ | hall
        · refine .inr ⟨hused, k, hle, by omega, hfree, hleast, ?_⟩
          simp only [decide_eq_true hused, if_true, hok]
          rfl
        · exact absurd hall (exists_numberedName_free base 2)
      · refine .inl ⟨hused, ?_⟩
        simp only [decide_eq_false hused, Bool.false_eq_true, if_false]
        rfl

end Generated

namespace Shape

variable {d : Document} (h : Shape d)
include h

theorem zero_notMem_childrenOf (p : Nat) : 0 ∉ d.childrenOf p := by
  intro hmem
  obtain ⟨n, hn, hmem⟩ := mem_childrenOf.mp hmem
  exact h.child_ne_zero hn hmem rfl

theorem siblingNameInUse_eq {p : Nat} {n : Node} (hp : d.lookup p = some n) (name : Bytes) :
    d.siblingNameInUse (some p) none name = .ok (decide (name ∈ d.childNames p)) :=
  Document.siblingNameInUse_eq (lookup_pos hp) (h.zero_notMem_childrenOf p) name

/-- A new child always gets a name, or none when its title has no slug. -/
theorem defaultChildName_ok {p : Nat} {n : Node} (hp : d.lookup p = some n) (title : Bytes) :
    ∃ name, d.defaultChildName p title = .ok name := by
  rcases defaultChildName_cases (lookup_pos hp) (h.zero_notMem_childrenOf p) title with
    ⟨-, hok⟩ | ⟨base, -, ⟨-, hok⟩ | ⟨-, k, -, -, -, -, hok⟩⟩
  · exact ⟨_, hok⟩
  · exact ⟨_, hok⟩
  · exact ⟨_, hok⟩

end Shape

end Document

end Muxly.Core
