/-
# Muxly.Core.Edits -- what each document operation does, and that it keeps the shape

For every mutation a lemma that says all it can do: the document it leaves and the result it
returns, error cases included. Later modules reason from these and do not unfold the operations.
The last section derives that every mutation keeps `Shape`.
-/
import Muxly.Core.Shape

namespace Muxly.Core

open Muxly.Control Muxly.Data Muxly.Tree

namespace Document

/-! ## Elementary edits -/

/-- The document after `reserveNodeId`. -/
def bumped (d : Document) : Document := { d with nextNodeId := d.nextNodeId + 1 }

/-- The document with one more child of `parentId`. -/
def attached (d : Document) (parentId : Nat) (node : Node) : Document :=
  { (d.modifyNode parentId (·.addChild node.id)).withSlot node.id (some node) with
    liveNodeCount := d.liveNodeCount + 1 }

/-- The payload that `prepareNodeWithId` builds. -/
def preparedNode (nodeId parentId : Nat) (kind : NodeKind) (title : Bytes) (source : Source)
    (name : Option Bytes) : Node :=
  { Node.init nodeId kind title (some parentId) source with
    name := name
    followTail := kind ≠ .staticFileLeaf }

/-- The document with another content of one node and another byte count. -/
def withContent (d : Document) (x : Nat) (f : Node → Node) (bytes : Nat) : Document :=
  { d.modifyNode x f with contentBytes := bytes }

/-- The document after `detachChildFromParent`. -/
def detached (d : Document) (parentId childId : Nat) : Document :=
  d.modifyNode parentId (·.dropChild childId)

/-- The document after `removeNodeRegistryOnly`. -/
def dropped (d : Document) (x : Nat) : Document :=
  { d.withSlot x none with
    liveNodeCount := d.liveNodeCount - 1
    viewRootNodeId := if d.viewRootNodeId = some x then none else d.viewRootNodeId
    elidedNodeIds := swapRemoveFirst x d.elidedNodeIds }

/-- The document after `detachChildFromParent` and `removeDetachedPostorder`. -/
def pruned (d : Document) (parentId x : Nat) (postorder : List Nat) (total : Nat) : Document :=
  let d' := postorder.foldl dropped (d.detached parentId x)
  { d' with contentBytes := d'.contentBytes - total }

/-! ## Specifications -/

/-- The error of a lookup that finds nothing. -/
def missing (x : Nat) (e : Err) : Failure := if x = 0 then .panic .zeroNodeId else .error e

theorem nodeOr_of_missing {d : Document} {x : Nat} (h : d.lookup x = none) (e : Err) :
    d.nodeOr x e = .error (missing x e) := by
  unfold missing
  by_cases hx : x = 0
  · subst hx
    rfl
  · rw [nodeOr_of_none hx h, if_neg hx]

theorem prepareNodeWithId_eq {d : Document} (h : Shape d) {p : Nat} {m : Node}
    (hp : d.lookup p = some m) (x : Nat) (kind : NodeKind) (title : Bytes) (source : Source) :
    ∃ name, d.defaultChildName p title = .ok name ∧
      d.prepareNodeWithId x p kind title source
        = .ok (preparedNode x p kind title source name) := by
  obtain ⟨name, hname⟩ := h.defaultChildName_ok hp title
  exact ⟨name, hname, by rw [prepareNodeWithId, nodeOr_of_lookup hp, ok_bind, hname]; rfl⟩

theorem commitPreparedNode_eq {d : Document} {p : Nat} {m : Node} (hp : d.lookup p = some m)
    {node : Node} (hid : node.id ≠ 0) :
    commitPreparedNode p node d = (.ok (), d.attached p node) := by
  simp only [commitPreparedNode, Action.bind_apply, Action.view_apply, nodeOr_of_lookup hp,
    Action.next_ok, Action.modify_apply, setNodeSlot, if_neg hid]
  rfl

theorem Shape.bumped {d : Document} (h : Shape d) : Shape d.bumped where
  id_eq := h.id_eq
  rootNodeId := h.rootNodeId
  root := h.root
  parent := h.parent
  child := h.child
  nodup := h.nodup
  fresh := Nat.lt_succ_of_lt h.fresh
  count := h.count

/-- All that `appendNode` can do. -/
theorem appendNode_cases {d : Document} (h : Shape d) (p : Nat) (kind : NodeKind) (title : Bytes)
    (source : Source) :
    (d.nextNodeId + 1 < u64Limit ∧ (∃ m, d.lookup p = some m) ∧
      ∃ name, d.bumped.defaultChildName p title = .ok name ∧
        appendNode p kind title source d = (.ok d.nextNodeId,
          d.bumped.attached p (preparedNode d.nextNodeId p kind title source name))) ∨
    (d.nextNodeId + 1 < u64Limit ∧ d.lookup p = none ∧
      appendNode p kind title source d = (.error (missing p .unknownParent), d.bumped)) ∨
    (¬ d.nextNodeId + 1 < u64Limit ∧
      appendNode p kind title source d = (.error (.panic .integerOverflow), d)) := by
  by_cases hnext : d.nextNodeId + 1 < u64Limit
  · have hreserve : reserveNodeId d = (.ok d.nextNodeId, d.bumped) := by
      rw [reserveNodeId, if_pos hnext]
      rfl
    have hpos : d.nextNodeId ≠ 0 := by
      have := h.fresh
      omega
    cases hp : d.lookup p with
    | none =>
        refine .inr (.inl ⟨hnext, rfl, ?_⟩)
        have hp' : d.bumped.lookup p = none := hp
        simp only [appendNode, Action.bind_apply, hreserve, Action.next_ok, Action.view_apply,
          prepareNodeWithId, nodeOr_of_missing hp', error_bind, Action.next_error]
    | some m =>
        have hp' : d.bumped.lookup p = some m := hp
        obtain ⟨name, hname, hprep⟩ :=
          prepareNodeWithId_eq h.bumped hp' d.nextNodeId kind title source
        refine .inl ⟨hnext, ⟨m, rfl⟩, name, hname, ?_⟩
        simp only [appendNode, Action.bind_apply, hreserve, Action.next_ok, Action.view_apply, hprep]
        rw [commitPreparedNode_eq hp' hpos]
        rfl
  · refine .inr (.inr ⟨hnext, ?_⟩)
    have hreserve : reserveNodeId d = (.error (.panic .integerOverflow), d) := by
      rw [reserveNodeId, if_neg hnext]
    simp only [appendNode, Action.bind_apply, hreserve, Action.next_error]

/-- `chunk` fits under the cap. -/
def FitsAppend (d : Document) (added : Nat) : Prop :=
  d.contentBytes ≤ d.maxContentBytes ∧ added ≤ d.maxContentBytes - d.contentBytes

/-- A replacement fits under the cap. -/
def FitsReplace (d : Document) (existing replacement : Nat) : Prop :=
  existing ≤ d.contentBytes ∧ d.contentBytes - existing ≤ d.maxContentBytes ∧
    replacement ≤ d.maxContentBytes - (d.contentBytes - existing)

instance (d : Document) (added : Nat) : Decidable (d.FitsAppend added) :=
  inferInstanceAs (Decidable (_ ∧ _))

instance (d : Document) (existing replacement : Nat) :
    Decidable (d.FitsReplace existing replacement) := inferInstanceAs (Decidable (_ ∧ _ ∧ _))

theorem reserveAdditional_eq (d : Document) (added : Nat) :
    d.reserveAdditionalContentBytes added
      = if d.FitsAppend added then .ok () else .error (.error .documentTooLarge) := by
  unfold reserveAdditionalContentBytes
  by_cases hfit : d.FitsAppend added
  · have ⟨hle, hadd⟩ := hfit
    rw [if_neg (by omega), if_neg (by omega), if_pos hfit]
  · rw [if_neg hfit]
    unfold FitsAppend at hfit
    by_cases hle : d.contentBytes > d.maxContentBytes
    · rw [if_pos hle]
    · rw [if_neg hle, if_pos (by omega)]

theorem reserveReplacement_eq (d : Document) (existing replacement : Nat) :
    d.reserveReplacementContentBytes existing replacement
      = if d.FitsReplace existing replacement then .ok ()
        else .error (.error .documentTooLarge) := by
  unfold reserveReplacementContentBytes
  by_cases hfit : d.FitsReplace existing replacement
  · have ⟨hle, hretained, hadd⟩ := hfit
    rw [if_neg (by omega), if_neg (by omega), if_neg (by omega), if_pos hfit]
  · rw [if_neg hfit]
    unfold FitsReplace at hfit
    by_cases hle : existing > d.contentBytes
    · rw [if_pos hle]
    · by_cases hretained : d.contentBytes - existing > d.maxContentBytes
      · rw [if_neg hle, if_pos hretained]
      · rw [if_neg hle, if_neg hretained, if_pos (by omega)]

theorem appendText_eq {d : Document} {x : Nat} {n : Node} (hx : d.lookup x = some n)
    (chunk : Bytes) :
    appendTextToStableNode x chunk d
      = if d.FitsAppend chunk.length then
          (.ok (), d.withContent x (·.appendContent chunk) (d.contentBytes + chunk.length))
        else (.error (.error .documentTooLarge), d) := by
  simp only [appendTextToStableNode, Action.bind_apply, Action.view_apply, reserveAdditional_eq]
  split
  · simp only [Action.next_ok, Action.bind_apply, Action.view_apply, deref_of_lookup hx]
    rfl
  · rfl

theorem setContent_eq {d : Document} {x : Nat} {n : Node} (hx : d.lookup x = some n)
    (content : Bytes) :
    setStableNodeContent x content d
      = if d.FitsReplace n.content.length content.length then
          (.ok (), d.withContent x (·.setContent content)
            (d.contentBytes - n.content.length + content.length))
        else (.error (.error .documentTooLarge), d) := by
  simp only [setStableNodeContent, Action.bind_apply, Action.view_apply, deref_of_lookup hx,
    Action.next_ok, reserveReplacement_eq]
  split <;> rfl

theorem updateKnownNode_of_lookup {d : Document} {x : Nat} {n : Node} (hx : d.lookup x = some n)
    (f : Node → Node) : updateKnownNode x f d = (.ok (), d.modifyNode x f) := by
  simp only [updateKnownNode, Action.bind_apply, Action.view_apply, nodeOr_of_lookup hx,
    Action.next_ok]
  rfl

theorem updateKnownNode_of_missing {d : Document} {x : Nat} (hx : d.lookup x = none)
    (f : Node → Node) :
    updateKnownNode x f d = (.error (missing x .unknownNode), d) := by
  simp only [updateKnownNode, Action.bind_apply, Action.view_apply, nodeOr_of_missing hx,
    Action.next_error]

/-! ## Removal -/

theorem lookup_dropped (d : Document) {x : Nat} (hx : x ≠ 0) (y : Nat) :
    (d.dropped x).lookup y = if y = x then none else d.lookup y :=
  lookup_withSlot d hx none y

theorem sumNodes_dropped (w : Node → Nat) {d : Document} {x : Nat} {n : Node}
    (hx : d.lookup x = some n) : sumNodes w (d.dropped x) + w n = sumNodes w d := by
  have hsum := sumNodes_withSlot w d (lookup_pos hx) none
  rw [hx] at hsum
  exact hsum

theorem removeNodeRegistryOnly_eq {d : Document} {x : Nat} {n : Node} (hx : d.lookup x = some n)
    (hcount : d.liveNodeCount ≠ 0) : removeNodeRegistryOnly x d = (.ok (), d.dropped x) := by
  have hcount' : ¬ (d.withSlot x none).liveNodeCount = 0 := hcount
  simp only [removeNodeRegistryOnly, Action.bind_apply, Action.view_apply, nodeOr_of_lookup hx,
    Action.next_ok, Action.modify_apply, Action.get_apply, if_neg hcount']
  rfl

/-- Removing live nodes one by one never fails. -/
theorem forM_remove_eq (postorder : List Nat) {d : Document} (hnodup : postorder.Nodup)
    (hlive : ∀ x ∈ postorder, ∃ n, d.lookup x = some n)
    (hcount : d.liveNodeCount = sumNodes (fun _ => 1) d) :
    postorder.forM removeNodeRegistryOnly d = (.ok (), postorder.foldl dropped d) := by
  induction postorder generalizing d with
  | nil => rfl
  | cons x rest ih =>
      obtain ⟨n, hn⟩ := hlive x (List.mem_cons_self ..)
      have hsum := sumNodes_dropped (fun _ => 1) hn
      rw [List.nodup_cons] at hnodup
      have hrest := ih (d := d.dropped x) hnodup.2
        (fun y hy => by
          obtain ⟨m, hm⟩ := hlive y (List.mem_cons_of_mem _ hy)
          have hyx : y ≠ x := fun h => hnodup.1 (h ▸ hy)
          exact ⟨m, by rw [lookup_dropped d (lookup_pos hn), if_neg hyx, hm]⟩)
        (by
          show d.liveNodeCount - 1 = _
          omega)
      rw [Action.forM_cons_apply, removeNodeRegistryOnly_eq hn (by omega), Action.next_ok, hrest]
      rfl

theorem lookup_foldl_dropped (postorder : List Nat) (d : Document) (hpos : ∀ x ∈ postorder, x ≠ 0)
    (y : Nat) :
    (postorder.foldl dropped d).lookup y = if y ∈ postorder then none else d.lookup y := by
  induction postorder generalizing d with
  | nil => simp
  | cons x rest ih =>
      rw [List.foldl_cons, ih _ fun z hz => hpos z (List.mem_cons_of_mem _ hz),
        lookup_dropped d (hpos x (List.mem_cons_self ..))]
      by_cases hy : y ∈ rest
      · simp [hy]
      · by_cases hyx : y = x <;> simp [hy, hyx]

theorem length_foldl_dropped (postorder : List Nat) (d : Document)
    (hle : ∀ x ∈ postorder, x ≤ d.nodeSlots.length) :
    (postorder.foldl dropped d).nodeSlots.length = d.nodeSlots.length := by
  induction postorder generalizing d with
  | nil => rfl
  | cons x rest ih =>
      have hlen : (d.dropped x).nodeSlots.length = d.nodeSlots.length := by
        have := hle x (List.mem_cons_self ..)
        show (d.withSlot x none).nodeSlots.length = _
        rw [length_withSlot]
        omega
      rw [List.foldl_cons, ih _ fun y hy => by rw [hlen]; exact hle y (List.mem_cons_of_mem _ hy),
        hlen]

/-- What the removed nodes weighed is gone from the sum. -/
theorem sumNodes_foldl_dropped (w : Node → Nat) (postorder : List Nat) {d : Document}
    (hnodup : postorder.Nodup) (hlive : ∀ x ∈ postorder, ∃ n, d.lookup x = some n) :
    sumNodes w (postorder.foldl dropped d)
      + (postorder.map fun x => slotWeight w (d.lookup x)).sum = sumNodes w d := by
  induction postorder generalizing d with
  | nil => rfl
  | cons x rest ih =>
      obtain ⟨n, hn⟩ := hlive x (List.mem_cons_self ..)
      rw [List.nodup_cons] at hnodup
      have hother : ∀ y ∈ rest, (d.dropped x).lookup y = d.lookup y := fun y hy => by
        have hyx : y ≠ x := fun h => hnodup.1 (h ▸ hy)
        rw [lookup_dropped d (lookup_pos hn), if_neg hyx]
      have hrest := ih hnodup.2 fun y hy => by
        rw [hother y hy]
        exact hlive y (List.mem_cons_of_mem _ hy)
      have hmap : (rest.map fun y => slotWeight w ((d.dropped x).lookup y))
          = rest.map fun y => slotWeight w (d.lookup y) :=
        List.map_congr_left fun y hy => by rw [hother y hy]
      have hsum := sumNodes_dropped w hn
      have hw : slotWeight w (d.lookup x) = w n := by rw [hn]; rfl
      rw [List.foldl_cons, List.map_cons, List.sum_cons, hw]
      rw [hmap] at hrest
      omega

theorem sumNodes_eq_zero {d : Document} (hnone : ∀ x, d.lookup x = none) (w : Node → Nat) :
    sumNodes w d = 0 := by
  refine List.sum_eq_zero fun v hmem => ?_
  obtain ⟨slot, hslot, rfl⟩ := List.mem_map.mp hmem
  obtain ⟨i, hi, hget⟩ := List.mem_iff_getElem.mp hslot
  have hlook := hnone (i + 1)
  rw [lookup_succ, List.getElem?_eq_getElem hi, hget] at hlook
  cases slot with
  | none => rfl
  | some n => cases hlook

/-- The sum over the live nodes, listed in any order. -/
theorem sum_slotWeight_eq (w : Node → Nat) {order : List Nat} {d : Document} (hnodup : order.Nodup)
    (hlive : ∀ {x}, x ∈ order ↔ ∃ n, d.lookup x = some n) :
    (order.map fun x => slotWeight w (d.lookup x)).sum = sumNodes w d := by
  have hsum := sumNodes_foldl_dropped w order hnodup fun x hx => hlive.mp hx
  have hnone : ∀ x, (order.foldl dropped d).lookup x = none := by
    intro x
    rw [lookup_foldl_dropped _ _ fun y hy => lookup_pos (hlive.mp hy).choose_spec]
    split
    · rfl
    · rename_i hx
      cases hlook : d.lookup x with
      | none => rfl
      | some n => exact absurd (hlive.mpr ⟨n, hlook⟩) hx
  rw [sumNodes_eq_zero hnone w, Nat.zero_add] at hsum
  exact hsum

theorem liveNodeCount_foldl_dropped (postorder : List Nat) (d : Document) :
    (postorder.foldl dropped d).liveNodeCount = d.liveNodeCount - postorder.length := by
  induction postorder generalizing d with
  | nil => rfl
  | cons x rest ih =>
      rw [List.foldl_cons, ih, List.length_cons]
      show d.liveNodeCount - 1 - rest.length = _
      omega

theorem foldl_dropped_ids (postorder : List Nat) (d : Document) :
    (postorder.foldl dropped d).rootNodeId = d.rootNodeId ∧
      (postorder.foldl dropped d).nextNodeId = d.nextNodeId := by
  induction postorder generalizing d with
  | nil => exact ⟨rfl, rfl⟩
  | cons x rest ih => exact ih (d.dropped x)

theorem contentBytes_foldl_dropped (postorder : List Nat) (d : Document) :
    (postorder.foldl dropped d).contentBytes = d.contentBytes := by
  induction postorder generalizing d with
  | nil => rfl
  | cons x rest ih =>
      rw [List.foldl_cons, ih]
      rfl

theorem detachChild_eq {d : Document} {p : Nat} {m : Node} (hp : d.lookup p = some m) (x : Nat) :
    detachChildFromParent p x d = (.ok (), d.detached p x) := by
  simp only [detachChildFromParent, Action.bind_apply, Action.view_apply, nodeOr_of_lookup hp,
    Action.next_ok]
  rfl

theorem detachChild_of_missing {d : Document} {p : Nat} (hp : d.lookup p = none) (x : Nat) :
    detachChildFromParent p x d = (.error (missing p .unknownParent), d) := by
  simp only [detachChildFromParent, Action.bind_apply, Action.view_apply, nodeOr_of_missing hp,
    Action.next_error]

theorem lookup_detached (d : Document) (p x y : Nat) :
    (d.detached p x).lookup y
      = if y = p then (d.lookup y).map (·.dropChild x) else d.lookup y :=
  lookup_modifyNode d p _ y

theorem sumNodes_detached {d : Document} {p : Nat} {m : Node} (hp : d.lookup p = some m) (x : Nat)
    {w : Node → Nat} (hw : w (m.dropChild x) = w m) :
    sumNodes w (d.detached p x) = sumNodes w d := by
  have := sumNodes_modifyNode w d (·.dropChild x) hp
  rw [hw] at this
  exact Nat.add_right_cancel this

/-- `detachChildFromParent`, then `removeDetachedPostorder`: the commit of every removal. -/
theorem detach_remove_eq {d : Document} {p : Nat} {m : Node} (hp : d.lookup p = some m) (x : Nat)
    {postorder : List Nat} (hnodup : postorder.Nodup)
    (hlive : ∀ y ∈ postorder, ∃ n, d.lookup y = some n)
    (hcount : d.liveNodeCount = sumNodes (fun _ => 1) d) (total : Nat) :
    (do detachChildFromParent p x; removeDetachedPostorder postorder total : DocM Unit) d
      = if total > d.contentBytes then
          (.error (.error .contentAccountingDrift), d.detached p x)
        else (.ok (), d.pruned p x postorder total) := by
  have hbytes : (d.detached p x).contentBytes = d.contentBytes := rfl
  have hlive' : ∀ y ∈ postorder, ∃ n, (d.detached p x).lookup y = some n := by
    intro y hy
    obtain ⟨n, hn⟩ := hlive y hy
    rw [lookup_detached, hn]
    split
    · exact ⟨_, rfl⟩
    · exact ⟨n, rfl⟩
  have hcount' : (d.detached p x).liveNodeCount = sumNodes (fun _ => 1) (d.detached p x) := by
    rw [sumNodes_detached hp x rfl]
    exact hcount
  simp only [Action.bind_apply, detachChild_eq hp, Action.next_ok, removeDetachedPostorder,
    Action.get_apply, hbytes]
  by_cases hdrift : total > d.contentBytes
  · simp only [if_pos hdrift]
    rfl
  · simp only [if_neg hdrift, Action.bind_apply, forM_remove_eq postorder hnodup hlive' hcount',
      Action.next_ok]
    rfl

/-! ## Keeping the shape -/

/-- A document whose nodes are nodes of a well-shaped one, with fewer links, is well-shaped when
its links lead to live nodes. -/
theorem Shape.of_nodes {d d' : Document} (h : Shape d)
    (hnodes : ∀ {y n'}, d'.lookup y = some n' → ∃ n, d.lookup y = some n ∧ n'.id = n.id ∧
      n'.parentId = n.parentId ∧ n'.kind = n.kind ∧ n'.children ⊆ n.children ∧ n'.children.Nodup)
    (hclosed : ∀ {y n' c}, d'.lookup y = some n' → c ∈ n'.children → ∃ m', d'.lookup c = some m')
    (hroot : ∃ n', d'.lookup 1 = some n') (hrootId : d'.rootNodeId = d.rootNodeId)
    (hslots : d'.nodeSlots.length = d.nodeSlots.length) (hnext : d.nextNodeId ≤ d'.nextNodeId)
    (hcount : d'.liveNodeCount = sumNodes (fun _ => 1) d') : Shape d' where
  id_eq := by
    intro x n' hx
    obtain ⟨n, hn, hid, -⟩ := hnodes hx
    rw [hid]
    exact h.id_eq hn
  rootNodeId := hrootId.trans h.rootNodeId
  root := by
    obtain ⟨n', hn'⟩ := hroot
    obtain ⟨n, hn, -, hparent, hkind, -⟩ := hnodes hn'
    obtain ⟨r, hr, hnone, hdoc⟩ := h.root
    rw [hn] at hr
    cases hr
    exact ⟨n', hn', hparent.trans hnone, hkind.trans hdoc⟩
  parent := by
    intro x n' hx hx1
    obtain ⟨n, hn, -, hparent, -⟩ := hnodes hx
    rw [hparent]
    exact h.parent hn hx1
  child := by
    intro p n' c hp hc
    obtain ⟨n, hn, -, -, -, hsub, -⟩ := hnodes hp
    obtain ⟨m', hm'⟩ := hclosed hp hc
    obtain ⟨m, hm, -, hparent, -⟩ := hnodes hm'
    obtain ⟨m₂, hm₂, hp₂⟩ := h.child hn (hsub hc)
    rw [hm] at hm₂
    cases hm₂
    exact ⟨m', hm', hparent.trans hp₂⟩
  nodup := by
    intro p n' hp
    obtain ⟨n, -, -, -, -, -, hnodup⟩ := hnodes hp
    exact hnodup
  fresh := by
    rw [hslots]
    exact Nat.lt_of_lt_of_le h.fresh hnext
  count := hcount

/-- An edit of one node that leaves its links, its kind and its name alone. -/
structure KeepsLinks (f : Node → Node) : Prop where
  id : ∀ n, (f n).id = n.id
  parentId : ∀ n, (f n).parentId = n.parentId
  children : ∀ n, (f n).children = n.children
  kind : ∀ n, (f n).kind = n.kind
  name : ∀ n, (f n).name = n.name

theorem keepsLinks_setTitle (title : Bytes) : KeepsLinks (·.setTitle title) :=
  ⟨fun _ => rfl, fun _ => rfl, fun _ => rfl, fun _ => rfl, fun _ => rfl⟩

theorem keepsLinks_setContent (content : Bytes) : KeepsLinks (·.setContent content) :=
  ⟨fun _ => rfl, fun _ => rfl, fun _ => rfl, fun _ => rfl, fun _ => rfl⟩

theorem keepsLinks_appendContent (chunk : Bytes) : KeepsLinks (·.appendContent chunk) :=
  ⟨fun _ => rfl, fun _ => rfl, fun _ => rfl, fun _ => rfl, fun _ => rfl⟩

theorem keepsLinks_setSource (source : Source) : KeepsLinks (·.setSource source) :=
  ⟨fun _ => rfl, fun _ => rfl, fun _ => rfl, fun _ => rfl, fun _ => rfl⟩

theorem keepsLinks_setBackendId (value : Bytes) : KeepsLinks (·.setBackendId value) :=
  ⟨fun _ => rfl, fun _ => rfl, fun _ => rfl, fun _ => rfl, fun _ => rfl⟩

/-- An edit of one node that leaves its place in the tree alone. -/
structure KeepsPlace (f : Node → Node) : Prop where
  id : ∀ n, (f n).id = n.id
  parentId : ∀ n, (f n).parentId = n.parentId
  children : ∀ n, (f n).children = n.children
  kind : ∀ n, (f n).kind = n.kind

theorem KeepsLinks.place {f : Node → Node} (hf : KeepsLinks f) : KeepsPlace f :=
  ⟨hf.id, hf.parentId, hf.children, hf.kind⟩

theorem Shape.modifyPlaced {d : Document} (h : Shape d) {f : Node → Node} (hf : KeepsPlace f)
    (x : Nat) : Shape (d.modifyNode x f) := by
  have hnode : ∀ y, (d.modifyNode x f).lookup y
      = (d.lookup y).map (if y = x then f else fun n => n) := by
    intro y
    rw [lookup_modifyNode]
    split
    · rfl
    · exact Option.map_id'.symm
  have hkeep : ∀ y, KeepsPlace (if y = x then f else fun n => n) := by
    intro y
    split
    · exact hf
    · exact ⟨fun _ => rfl, fun _ => rfl, fun _ => rfl, fun _ => rfl⟩
  refine h.of_nodes ?_ ?_ ?_ rfl (length_modifyNode d x f) (le_refl _) ?_
  · intro y n' hy
    rw [hnode] at hy
    obtain ⟨n, hn, rfl⟩ := Option.map_eq_some_iff.mp hy
    refine ⟨n, hn, (hkeep y).id n, (hkeep y).parentId n, (hkeep y).kind n, ?_, ?_⟩
    · rw [(hkeep y).children n]
      exact List.Subset.refl _
    · rw [(hkeep y).children n]
      exact h.nodup hn
  · intro y n' c hy hc
    rw [hnode] at hy
    obtain ⟨n, hn, rfl⟩ := Option.map_eq_some_iff.mp hy
    rw [(hkeep y).children n] at hc
    obtain ⟨m, hm, -⟩ := h.child hn hc
    exact ⟨_, by rw [hnode, hm]; rfl⟩
  · obtain ⟨r, hr, -⟩ := h.root
    exact ⟨_, by rw [hnode, hr]; rfl⟩
  · show d.liveNodeCount = _
    rw [h.count]
    exact (sumNodes_modifyNode_of_eq (fun _ => 1) d x (f := f) fun _ => rfl).symm

theorem Shape.modifyNode {d : Document} (h : Shape d) {f : Node → Node} (hf : KeepsLinks f)
    (x : Nat) : Shape (d.modifyNode x f) := h.modifyPlaced hf.place x

theorem Shape.withContent {d : Document} (h : Shape d) {f : Node → Node} (hf : KeepsLinks f)
    (x bytes : Nat) : Shape (d.withContent x f bytes) :=
  have hm := h.modifyNode hf x
  ⟨hm.id_eq, hm.rootNodeId, hm.root, hm.parent, hm.child, hm.nodup, hm.fresh, hm.count⟩

theorem lookup_attached (d : Document) {p : Nat} {node : Node} (hid : node.id ≠ 0) (y : Nat) :
    (d.attached p node).lookup y
      = if y = node.id then some node
        else if y = p then (d.lookup y).map (·.addChild node.id) else d.lookup y := by
  show ((d.modifyNode p (·.addChild node.id)).withSlot node.id (some node)).lookup y = _
  rw [lookup_withSlot _ hid, lookup_modifyNode]

/-- A node that is about to be linked below `p`: its id is the next one and it has no children. -/
structure Attachable (d : Document) (p : Nat) (node : Node) : Prop where
  id_eq : node.id = d.nextNodeId
  parentId : node.parentId = some p
  children : node.children = []
  live : ∃ m, d.lookup p = some m

namespace Attachable

variable {d : Document} {p : Nat} {node : Node} (ha : Attachable d p node)
include ha

theorem id_ne_zero (h : Shape d) : node.id ≠ 0 := by
  have := h.fresh
  rw [ha.id_eq]
  omega

theorem fresh (h : Shape d) : d.lookup node.id = none := by
  cases hx : d.lookup node.id with
  | none => rfl
  | some n =>
      have := h.lookup_lt hx
      rw [ha.id_eq] at this
      omega

theorem sumNodes_attached {w : Node → Nat} (hw : ∀ (n : Node) (c : Nat), w (n.addChild c) = w n)
    (h : Shape d) : sumNodes w (d.attached p node) = sumNodes w d + w node := by
  have hsum := sumNodes_withSlot w (d.modifyNode p (·.addChild node.id)) (ha.id_ne_zero h) (some node)
  have hmod : sumNodes w (d.modifyNode p (·.addChild node.id)) = sumNodes w d :=
    sumNodes_modifyNode_of_eq w d p fun n => hw n _
  have hfresh : (d.modifyNode p (·.addChild node.id)).lookup node.id = none := by
    rw [lookup_modifyNode, ha.fresh h]
    split <;> rfl
  rw [hmod, hfresh] at hsum
  exact hsum

theorem lookup_bumped (h : Shape d) (y : Nat) : (d.bumped.attached p node).lookup y
    = if y = node.id then some node
      else if y = p then (d.lookup y).map (·.addChild node.id) else d.lookup y :=
  lookup_attached d.bumped (ha.id_ne_zero h) y

/-- An old node keeps everything but, if it is the parent, its list, which gains the new id. -/
theorem old (h : Shape d) {y : Nat} {n' : Node} (hy : y ≠ node.id)
    (hn' : (d.bumped.attached p node).lookup y = some n') :
    ∃ n, d.lookup y = some n ∧ n'.id = n.id ∧ n'.parentId = n.parentId ∧ n'.kind = n.kind ∧
      n'.children = if y = p then n.children ++ [node.id] else n.children := by
  rw [ha.lookup_bumped h, if_neg hy] at hn'
  by_cases hyp : y = p
  · rw [if_pos hyp] at hn'
    obtain ⟨n, hn, rfl⟩ := Option.map_eq_some_iff.mp hn'
    exact ⟨n, hn, rfl, rfl, rfl, (if_pos hyp).symm⟩
  · rw [if_neg hyp] at hn'
    exact ⟨n', hn', rfl, rfl, rfl, (if_neg hyp).symm⟩

theorem keep (h : Shape d) {y : Nat} {n : Node} (hn : d.lookup y = some n) :
    ∃ n', (d.bumped.attached p node).lookup y = some n' ∧ n'.parentId = n.parentId ∧
      n'.kind = n.kind := by
  have hy : y ≠ node.id := by
    rintro rfl
    rw [ha.fresh h] at hn
    cases hn
  rw [ha.lookup_bumped h, if_neg hy, hn]
  split
  · exact ⟨_, rfl, rfl, rfl⟩
  · exact ⟨n, rfl, rfl, rfl⟩

/-- The new id is in the list of its parent only. -/
theorem child_points_back (h : Shape d) {q c : Nat} {n' : Node}
    (hq : (d.bumped.attached p node).lookup q = some n') (hc : c ∈ n'.children) :
    ∃ k, (d.bumped.attached p node).lookup c = some k ∧ k.parentId = some q := by
  by_cases hqn : q = node.id
  · rw [ha.lookup_bumped h, if_pos hqn] at hq
    cases hq
    rw [ha.children] at hc
    cases hc
  · obtain ⟨n, hn, -, -, -, hch⟩ := ha.old h hqn hq
    rw [hch] at hc
    by_cases hcn : c = node.id
    · subst hcn
      refine ⟨node, by rw [ha.lookup_bumped h, if_pos rfl], ?_⟩
      split at hc
      · rename_i hqp
        rw [ha.parentId, hqp]
      · obtain ⟨k, hk, -⟩ := h.child hn hc
        rw [ha.fresh h] at hk
        cases hk
    · have hc' : c ∈ n.children := by
        split at hc
        · exact (List.mem_append.mp hc).resolve_right fun h => hcn (List.mem_singleton.mp h)
        · exact hc
      obtain ⟨k, hk, hkp⟩ := h.child hn hc'
      obtain ⟨k', hk', hkp', -⟩ := ha.keep h hk
      exact ⟨k', hk', hkp'.trans hkp⟩

theorem children_nodup (h : Shape d) {q : Nat} {n' : Node}
    (hq : (d.bumped.attached p node).lookup q = some n') : n'.children.Nodup := by
  by_cases hqn : q = node.id
  · rw [ha.lookup_bumped h, if_pos hqn] at hq
    cases hq
    rw [ha.children]
    exact List.nodup_nil
  · obtain ⟨n, hn, -, -, -, hch⟩ := ha.old h hqn hq
    rw [hch]
    split
    · refine (h.nodup hn).append (List.nodup_singleton _) ?_
      refine List.disjoint_singleton.mpr fun hmem => ?_
      obtain ⟨k, hk, -⟩ := h.child hn hmem
      rw [ha.fresh h] at hk
      cases hk
    · exact h.nodup hn

theorem shape_attached (h : Shape d) : Shape (d.bumped.attached p node) := by
  obtain ⟨m, hm⟩ := ha.live
  refine ⟨?_, h.rootNodeId, ?_, ?_, fun hq hc => ha.child_points_back h hq hc,
    fun hq => ha.children_nodup h hq, ?_, ?_⟩
  · intro x n' hx
    by_cases hxn : x = node.id
    · rw [ha.lookup_bumped h, if_pos hxn] at hx
      cases hx
      exact hxn.symm
    · obtain ⟨n, hn, hid', -⟩ := ha.old h hxn hx
      rw [hid']
      exact h.id_eq hn
  · obtain ⟨r, hr, hnone, hdoc⟩ := h.root
    obtain ⟨r', hr', hp', hk'⟩ := ha.keep h hr
    exact ⟨r', hr', hp'.trans hnone, hk'.trans hdoc⟩
  · intro x n' hx hx1
    by_cases hxn : x = node.id
    · rw [ha.lookup_bumped h, if_pos hxn] at hx
      cases hx
      have hlt := h.lookup_lt hm
      refine ⟨p, ha.parentId, Nat.pos_of_ne_zero (lookup_pos hm), ?_⟩
      rw [hxn, ha.id_eq]
      exact hlt
    · obtain ⟨n, hn, -, hp', -⟩ := ha.old h hxn hx
      rw [hp']
      exact h.parent hn hx1
  · have hlen : (d.bumped.attached p node).nodeSlots.length = max d.nodeSlots.length node.id := by
      show ((d.bumped.modifyNode p (·.addChild node.id)).withSlot node.id (some node)).nodeSlots.length = _
      rw [length_withSlot, length_modifyNode]
      rfl
    have hfresh := h.fresh
    have hnext : (d.bumped.attached p node).nextNodeId = d.nextNodeId + 1 := rfl
    rw [hlen, hnext, ha.id_eq]
    omega
  · have hsum := ha.sumNodes_attached (w := fun _ => 1) (fun _ _ => rfl) h
    have hcount := h.count
    show d.liveNodeCount + 1 = sumNodes (fun _ => 1) (d.attached p node)
    omega

end Attachable

/-- A node that loses a child on a condition. -/
theorem dropIf_subset {c : Prop} [Decidable c] (n : Node) {x : Nat} :
    (if c then n.dropChild x else n).children ⊆ n.children := by
  intro z hz
  split at hz
  · exact subset_of_swapRemoveFirst hz
  · exact hz

theorem dropIf_nodup {c : Prop} [Decidable c] {n : Node} (h : n.children.Nodup) {x : Nat} :
    (if c then n.dropChild x else n).children.Nodup := by
  split
  · exact nodup_swapRemoveFirst h
  · exact h

theorem Shape.detached {d : Document} (h : Shape d) (p x : Nat) : Shape (d.detached p x) := by
  have hnode : ∀ y, (d.detached p x).lookup y
      = (d.lookup y).map fun n => if y = p then n.dropChild x else n := by
    intro y
    rw [lookup_detached]
    split
    · rfl
    · exact Option.map_id'.symm
  refine h.of_nodes ?_ ?_ ?_ rfl (length_modifyNode d p _) (le_refl _) ?_
  · intro y n' hy
    rw [hnode] at hy
    obtain ⟨n, hn, rfl⟩ := Option.map_eq_some_iff.mp hy
    refine ⟨n, hn, ?_, ?_, ?_, dropIf_subset n, dropIf_nodup (h.nodup hn)⟩
    · split <;> rfl
    · split <;> rfl
    · split <;> rfl
  · intro y n' c hy hc
    rw [hnode] at hy
    obtain ⟨n, hn, rfl⟩ := Option.map_eq_some_iff.mp hy
    obtain ⟨m, hm, -⟩ := h.child hn (dropIf_subset n hc)
    exact ⟨_, by rw [hnode, hm]; rfl⟩
  · obtain ⟨r, hr, -⟩ := h.root
    exact ⟨_, by rw [hnode, hr]; rfl⟩
  · show d.liveNodeCount = _
    rw [h.count]
    exact (sumNodes_modifyNode_of_eq (fun _ => 1) d p (f := (·.dropChild x)) fun _ => rfl).symm

theorem sum_ones_eq_length {d : Document} (l : List Nat)
    (hlive : ∀ y ∈ l, ∃ n, d.lookup y = some n) :
    (l.map fun y => slotWeight (fun _ => 1) (d.lookup y)).sum = l.length := by
  induction l with
  | nil => rfl
  | cons z rest ih =>
      obtain ⟨n, hn⟩ := hlive z (List.mem_cons_self ..)
      have hrest := ih fun y hy => hlive y (List.mem_cons_of_mem _ hy)
      rw [List.map_cons, List.sum_cons, hn, hrest, List.length_cons, Nat.add_comm]
      rfl

/-- The nodes that a removal of `x` takes out of its parent `p`: `x` itself, and with it only nodes
whose parent goes too. -/
structure Removable (d : Document) (p x : Nat) (postorder : List Nat) : Prop where
  nodup : postorder.Nodup
  target : x ∈ postorder
  parent : ∃ n, d.lookup x = some n ∧ n.parentId = some p
  live : ∀ y ∈ postorder, ∃ n, d.lookup y = some n
  upward : ∀ y ∈ postorder, y ≠ x → ∃ n q, d.lookup y = some n ∧ n.parentId = some q ∧ q ∈ postorder

namespace Removable

variable {d : Document} {p x : Nat} {postorder : List Nat} (hr : Removable d p x postorder)
include hr

theorem root_not_mem (h : Shape d) : 1 ∉ postorder := by
  intro hmem
  obtain ⟨r, hroot, hnone, -⟩ := h.root
  by_cases hx : 1 = x
  · obtain ⟨n, hn, hp⟩ := hr.parent
    rw [← hx, hroot] at hn
    cases hn
    rw [hnone] at hp
    cases hp
  · obtain ⟨n, q, hn, hq, -⟩ := hr.upward 1 hmem hx
    rw [hroot] at hn
    cases hn
    rw [hnone] at hq
    cases hq

theorem lookup_pruned (total y : Nat) :
    (d.pruned p x postorder total).lookup y
      = if y ∈ postorder then none
        else (d.lookup y).map fun n => if y = p then n.dropChild x else n := by
  have hpos : ∀ z ∈ postorder, z ≠ 0 := fun z hz => by
    obtain ⟨n, hn⟩ := hr.live z hz
    exact lookup_pos hn
  show (postorder.foldl dropped (d.detached p x)).lookup y = _
  rw [lookup_foldl_dropped postorder _ hpos, lookup_detached]
  split
  · rfl
  · split
    · rfl
    · exact Option.map_id'.symm

theorem live_detached : ∀ y ∈ postorder, ∃ n, (d.detached p x).lookup y = some n := by
  intro y hy
  obtain ⟨n, hn⟩ := hr.live y hy
  rw [lookup_detached, hn]
  split
  · exact ⟨_, rfl⟩
  · exact ⟨n, rfl⟩

theorem sumNodes_pruned {w : Node → Nat} (hw : ∀ n : Node, w (n.dropChild x) = w n) (total : Nat) :
    sumNodes w (d.pruned p x postorder total)
      + (postorder.map fun y => slotWeight w (d.lookup y)).sum = sumNodes w d := by
  have hsum := sumNodes_foldl_dropped w postorder hr.nodup hr.live_detached
  have hdet : sumNodes w (d.detached p x) = sumNodes w d := sumNodes_modifyNode_of_eq w d p hw
  have hmap : (postorder.map fun y => slotWeight w ((d.detached p x).lookup y))
      = postorder.map fun y => slotWeight w (d.lookup y) := by
    refine List.map_congr_left fun y hy => ?_
    rw [lookup_detached]
    split
    · cases d.lookup y with
      | none => rfl
      | some n => exact hw n
    · rfl
  rw [hmap, hdet] at hsum
  exact hsum

theorem shape_pruned (h : Shape d) (total : Nat) : Shape (d.pruned p x postorder total) := by
  have hslots : (d.pruned p x postorder total).nodeSlots.length = d.nodeSlots.length := by
    have hle : ∀ y ∈ postorder, y ≤ (d.detached p x).nodeSlots.length := fun y hy => by
      obtain ⟨n, hn⟩ := hr.live_detached y hy
      exact lookup_le hn
    exact (length_foldl_dropped postorder _ hle).trans (length_modifyNode d p _)
  refine h.of_nodes ?_ ?_ ?_ ?_ hslots ?_ ?_
  · intro y n' hy
    rw [hr.lookup_pruned] at hy
    split at hy
    · cases hy
    · obtain ⟨n, hn, rfl⟩ := Option.map_eq_some_iff.mp hy
      refine ⟨n, hn, ?_, ?_, ?_, dropIf_subset n, dropIf_nodup (h.nodup hn)⟩
      · split <;> rfl
      · split <;> rfl
      · split <;> rfl
  · -- A survivor lists no removed node: `x` was taken from its list, and the others have a parent
    -- that is removed with them.
    intro y n' c hy hc
    rw [hr.lookup_pruned] at hy
    split at hy
    · cases hy
    · rename_i hyP
      obtain ⟨n, hn, rfl⟩ := Option.map_eq_some_iff.mp hy
      obtain ⟨m, hm, hcy⟩ := h.child hn (dropIf_subset n hc)
      have hcP : c ∉ postorder := by
        intro hcP
        by_cases hcx : c = x
        · subst hcx
          obtain ⟨k, hk, hkp⟩ := hr.parent
          rw [hm] at hk
          cases hk
          rw [hcy] at hkp
          cases hkp
          simp only [if_true, Node.dropChild] at hc
          exact ((mem_swapRemoveFirst (h.nodup hn)).mp hc).1 rfl
        · obtain ⟨k, q, hk, hkq, hqP⟩ := hr.upward c hcP hcx
          rw [hm] at hk
          cases hk
          rw [hcy] at hkq
          cases hkq
          exact hyP hqP
      exact ⟨_, by rw [hr.lookup_pruned, if_neg hcP, hm]; rfl⟩
  · obtain ⟨r, hroot, -⟩ := h.root
    exact ⟨_, by rw [hr.lookup_pruned, if_neg (hr.root_not_mem h), hroot]; rfl⟩
  · exact (foldl_dropped_ids postorder _).1
  · exact (foldl_dropped_ids postorder (d.detached p x)).2.ge
  · have hsum := hr.sumNodes_pruned (w := fun _ => 1) (fun _ => rfl) total
    have hlen := sum_ones_eq_length postorder hr.live
    have hcount : (d.pruned p x postorder total).liveNodeCount
        = d.liveNodeCount - postorder.length := liveNodeCount_foldl_dropped postorder _
    have := h.count
    omega

end Removable

/-- The postorder listing below a node can be removed from its parent. -/
theorem Shape.removable_postorder {d : Document} (h : Shape d) {p x : Nat} {n : Node} (hx : d.lookup x = some n)
    (hp : n.parentId = some p) : Removable d p x (h.forest.postorder x) where
  nodup := h.forest.nodup_postorder x
  target := Forest.mem_postorder _ |>.mpr (Forest.below_self _ x)
  parent := ⟨n, hx, hp⟩
  live y hy := h.live_of_below hx (Forest.mem_postorder _ |>.mp hy)
  upward := by
    intro y hy hyx
    cases Forest.mem_postorder _ |>.mp hy with
    | refl => exact absurd rfl hyx
    | tail hq hc =>
        obtain ⟨k, hk, hmem⟩ := mem_childrenOf.mp hc
        obtain ⟨m, hm, hmp⟩ := h.child hk hmem
        exact ⟨m, _, hm, hmp, Forest.mem_postorder _ |>.mpr hq⟩

end Document

end Muxly.Core
