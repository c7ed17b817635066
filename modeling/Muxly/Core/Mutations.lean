/-
# Muxly.Core.Mutations -- every document mutation keeps the invariant and never revives an id

`Evolves` is what a document never goes back on: node ids are handed out once, and a node that
stays keeps its kind, its parent and its name. Every mutation of `document.zig` keeps `Valid` and
moves along `Evolves`, whether it succeeds or fails.
-/
import Muxly.Core.Valid

namespace Muxly.Core

open Muxly.Control Muxly.Data Muxly.Tree

namespace Document

/-! ## What never changes -/

/-- What stays of a node that was live when ids below `limit` were handed out: its kind, parent and
name are the ones it was created with, and it only got children that were created later. -/
structure KeptNode (limit : Nat) (n n' : Node) : Prop where
  kind : n'.kind = n.kind
  parentId : n'.parentId = n.parentId
  name : n'.name = n.name
  children : ∀ c ∈ n'.children, c ∈ n.children ∨ limit ≤ c

/-- A later document: ids grow, and a live node was live before or is new. -/
structure Evolves (d d' : Document) : Prop where
  next : d.nextNodeId ≤ d'.nextNodeId
  kept : ∀ {x n'}, d'.lookup x = some n' → d.nextNodeId ≤ x ∨
    ∃ n, d.lookup x = some n ∧ KeptNode d.nextNodeId n n'

theorem KeptNode.refl (limit : Nat) (n : Node) : KeptNode limit n n :=
  ⟨rfl, rfl, rfl, fun _ hc => .inl hc⟩

theorem KeptNode.trans {limit limit' : Nat} (hle : limit ≤ limit') {n n' n'' : Node}
    (h : KeptNode limit n n') (h' : KeptNode limit' n' n'') : KeptNode limit n n'' where
  kind := h'.kind.trans h.kind
  parentId := h'.parentId.trans h.parentId
  name := h'.name.trans h.name
  children c hc := by
    rcases h'.children c hc with hc | hc
    · exact h.children c hc
    · exact .inr (hle.trans hc)

theorem evolves_progress : Action.Progress Evolves where
  refl d := ⟨le_refl _, fun {_ n} hx => .inr ⟨n, hx, .refl _ n⟩⟩
  trans := by
    intro a b c hab hbc
    refine ⟨hab.next.trans hbc.next, fun {x n''} hx => ?_⟩
    rcases hbc.kept hx with hle | ⟨n', hn', hkept'⟩
    · exact .inl (hab.next.trans hle)
    · rcases hab.kept hn' with hle | ⟨n, hn, hkept⟩
      · exact .inl hle
      · exact .inr ⟨n, hn, hkept.trans hab.next hkept'⟩

/-- An id that was handed out and is dead stays dead. -/
theorem Evolves.dead {d d' : Document} (h : Evolves d d') {x : Nat} (hx : x < d.nextNodeId)
    (hdead : d.lookup x = none) : d'.lookup x = none := by
  cases hl : d'.lookup x with
  | none => rfl
  | some n' =>
      rcases h.kept hl with hle | ⟨n, hn, -⟩
      · omega
      · rw [hdead] at hn
        cases hn

theorem Evolves.of_map {d d' : Document} (hnext : d.nextNodeId ≤ d'.nextNodeId)
    (g : Nat → Node → Node)
    (hg : ∀ x n, KeptNode d.nextNodeId n (g x n))
    (hlook : ∀ {x n'}, d'.lookup x = some n' → ∃ n, d.lookup x = some n ∧ n' = g x n) :
    Evolves d d' := by
  refine ⟨hnext, fun {x n'} hx => ?_⟩
  obtain ⟨n, hn, rfl⟩ := hlook hx
  exact .inr ⟨n, hn, hg x n⟩

theorem evolves_modifyNode (d : Document) (x : Nat) {f : Node → Node} (hf : KeepsLinks f) :
    Evolves d (d.modifyNode x f) := by
  refine .of_map (le_refl _) (fun y n => if y = x then f n else n) (fun y n => ?_) ?_
  · split
    · exact ⟨hf.kind n, hf.parentId n, hf.name n, fun c hc => .inl (hf.children n ▸ hc)⟩
    · exact .refl _ n
  · intro y n' hy
    rw [lookup_modifyNode] at hy
    split at hy
    · obtain ⟨n, hn, rfl⟩ := Option.map_eq_some_iff.mp hy
      exact ⟨n, hn, by simp [*]⟩
    · exact ⟨n', hy, by simp [*]⟩

theorem evolves_bumped (d : Document) : Evolves d d.bumped :=
  ⟨Nat.le_succ _, fun {_ n} hx => .inr ⟨n, hx, .refl _ n⟩⟩

theorem evolves_attached {d : Document} (h : Shape d) {p : Nat} {node : Node}
    (ha : Attachable d p node) : Evolves d (d.bumped.attached p node) := by
  refine ⟨Nat.le_succ _, fun {x n'} hx => ?_⟩
  have hlook := lookup_attached d.bumped (p := p) (ha.id_ne_zero h) x
  rw [hlook] at hx
  split at hx
  · rename_i hxid
    exact .inl (by rw [hxid, ha.id_eq])
  · split at hx
    · obtain ⟨n, hn, rfl⟩ := Option.map_eq_some_iff.mp hx
      refine .inr ⟨n, hn, rfl, rfl, rfl, fun c hc => ?_⟩
      rcases List.mem_append.mp hc with hc | hc
      · exact .inl hc
      · rw [List.mem_singleton.mp hc, ha.id_eq]
        exact .inr (le_refl _)
    · exact .inr ⟨n', hx, .refl _ n'⟩

/-- Taking a child out of a list keeps what is fixed about a node. -/
theorem keptNode_dropChild (limit : Nat) (n : Node) (x : Nat) : KeptNode limit n (n.dropChild x) :=
  ⟨rfl, rfl, rfl, fun _ hc => .inl (subset_of_swapRemoveFirst hc)⟩

theorem evolves_detached (d : Document) (p x : Nat) : Evolves d (d.detached p x) := by
  refine .of_map (le_refl _) (fun y n => if y = p then n.dropChild x else n) (fun y n => ?_) ?_
  · split
    · exact keptNode_dropChild _ n x
    · exact .refl _ n
  · intro y n' hy
    rw [lookup_detached] at hy
    split at hy
    · obtain ⟨n, hn, rfl⟩ := Option.map_eq_some_iff.mp hy
      exact ⟨n, hn, by simp [*]⟩
    · exact ⟨n', hy, by simp [*]⟩

theorem evolves_pruned {d : Document} {p x : Nat} {postorder : List Nat}
    (hr : Removable d p x postorder) (total : Nat) :
    Evolves d (d.pruned p x postorder total) := by
  refine .of_map (foldl_dropped_ids postorder (d.detached p x)).2.ge
    (fun y n => if y = p then n.dropChild x else n) (fun y n => ?_) ?_
  · split
    · exact keptNode_dropChild _ n x
    · exact .refl _ n
  · intro y n' hy
    rw [hr.lookup_pruned] at hy
    split at hy
    · cases hy
    · obtain ⟨n, hn, rfl⟩ := Option.map_eq_some_iff.mp hy
      exact ⟨n, hn, rfl⟩

/-! ## Elementary edits keep the invariant -/

theorem live_modifyNode {d : Document} {x y : Nat} {f : Node → Node}
    (h : ∃ n, d.lookup y = some n) : ∃ n, (d.modifyNode x f).lookup y = some n := by
  obtain ⟨n, hn⟩ := h
  rw [lookup_modifyNode, hn]
  split
  · exact ⟨_, rfl⟩
  · exact ⟨n, rfl⟩

theorem linked_modifyPlaced {d : Document} (h : Linked d) {f : Node → Node} (hf : KeepsPlace f)
    (x : Nat) : Linked (d.modifyNode x f) := by
  intro y n' p hy hp
  have hnode : ∀ z, (d.modifyNode x f).lookup z
      = (d.lookup z).map fun n => if z = x then f n else n := by
    intro z
    rw [lookup_modifyNode]
    split
    · rfl
    · exact Option.map_id'.symm
  have hpar : ∀ (z : Nat) (n : Node), (if z = x then f n else n).parentId = n.parentId := by
    intro z n
    split
    · exact hf.parentId n
    · rfl
  have hch : ∀ (z : Nat) (n : Node), (if z = x then f n else n).children = n.children := by
    intro z n
    split
    · exact hf.children n
    · rfl
  rw [hnode] at hy
  obtain ⟨n, hn, rfl⟩ := Option.map_eq_some_iff.mp hy
  rw [hpar] at hp
  obtain ⟨m, hm, hmem⟩ := h hn hp
  exact ⟨_, by rw [hnode, hm]; rfl, by rw [hch]; exact hmem⟩

theorem linked_modifyNode {d : Document} (h : Linked d) {f : Node → Node} (hf : KeepsLinks f)
    (x : Nat) : Linked (d.modifyNode x f) := linked_modifyPlaced h hf.place x

/-- Removing nodes one by one clears the view root if it is one of them. -/
theorem viewRoot_foldl_dropped (postorder : List Nat) (d : Document) (y : Nat) :
    (postorder.foldl dropped d).viewRootNodeId = some y ↔
      d.viewRootNodeId = some y ∧ y ∉ postorder := by
  induction postorder generalizing d with
  | nil => simp
  | cons x rest ih =>
      have hstep : (d.dropped x).viewRootNodeId = some y ↔ d.viewRootNodeId = some y ∧ y ≠ x := by
        show (if d.viewRootNodeId = some x then none else d.viewRootNodeId) = some y ↔ _
        split
        · rename_i hx
          rw [hx, Option.some.injEq]
          exact ⟨fun h => absurd h (Option.some_ne_none y).symm, fun h => absurd h.1.symm h.2⟩
        · rename_i hx
          exact ⟨fun h => ⟨h, fun hyx => hx (hyx ▸ h)⟩, fun h => h.1⟩
      rw [List.foldl_cons, ih, hstep, List.mem_cons, not_or, and_assoc]

/-- Removing nodes one by one takes them out of the elided ids. -/
theorem elided_foldl_dropped (postorder : List Nat) {d : Document} (hnodup : d.elidedNodeIds.Nodup) :
    (postorder.foldl dropped d).elidedNodeIds.Nodup ∧
      ∀ y, y ∈ (postorder.foldl dropped d).elidedNodeIds ↔ y ∈ d.elidedNodeIds ∧ y ∉ postorder := by
  induction postorder generalizing d with
  | nil => exact ⟨hnodup, fun y => by simp⟩
  | cons x rest ih =>
      have hstep : ∀ y, y ∈ (d.dropped x).elidedNodeIds ↔ y ≠ x ∧ y ∈ d.elidedNodeIds :=
        fun y => mem_swapRemoveFirst hnodup
      obtain ⟨hrest, hmem⟩ := ih (d := d.dropped x) (nodup_swapRemoveFirst hnodup)
      refine ⟨hrest, fun y => ?_⟩
      rw [List.foldl_cons, hmem, hstep, List.mem_cons, not_or]
      tauto

theorem maxContentBytes_foldl_dropped (postorder : List Nat) (d : Document) :
    (postorder.foldl dropped d).maxContentBytes = d.maxContentBytes := by
  induction postorder generalizing d with
  | nil => rfl
  | cons x rest ih => exact ih (d.dropped x)

/-- What removing nodes one by one does to the cap and the view state. -/
structure ViewAfterDrop (postorder : List Nat) (d d' : Document) : Prop where
  max : d'.maxContentBytes = d.maxContentBytes
  root : ∀ y, d'.viewRootNodeId = some y → d.viewRootNodeId = some y ∧ y ∉ postorder
  elided : d.elidedNodeIds.Nodup → ∀ y ∈ d'.elidedNodeIds, y ∈ d.elidedNodeIds ∧ y ∉ postorder
  nodup : d.elidedNodeIds.Nodup → d'.elidedNodeIds.Nodup

theorem foldl_dropped_view (postorder : List Nat) (d : Document) :
    ViewAfterDrop postorder d (postorder.foldl dropped d) := by
  refine ⟨maxContentBytes_foldl_dropped postorder d, fun y hy => ?_, fun hnodup y hy => ?_,
    fun hnodup => ?_⟩
  · exact (viewRoot_foldl_dropped postorder d y).mp hy
  · exact ((elided_foldl_dropped postorder hnodup).2 y).mp hy
  · exact (elided_foldl_dropped postorder hnodup).1

/-- A new node is listed by its parent, and the old ones still are. -/
theorem Attachable.linked_attached {d : Document} {p : Nat} {node : Node}
    (ha : Attachable d p node) (h : Shape d) (hl : Linked d) :
    Linked (d.bumped.attached p node) := by
  have hnode : ∀ y, (d.bumped.attached p node).lookup y
      = if y = node.id then some node
        else if y = p then (d.lookup y).map (·.addChild node.id) else d.lookup y :=
    lookup_attached d.bumped (ha.id_ne_zero h)
  -- The parent of an old node still lists it; the new node was put last in its parent's list.
  intro y n' q hy hq
  have hlists : ∀ {z m}, d.lookup z = some m → ∀ {c}, c ∈ m.children →
      ∃ m', (d.bumped.attached p node).lookup z = some m' ∧ c ∈ m'.children := by
    intro z m hm c hc
    have hz : z ≠ node.id := by
      rintro rfl
      rw [ha.fresh h] at hm
      cases hm
    rw [hnode, if_neg hz, hm]
    split
    · exact ⟨_, rfl, List.mem_append_left _ hc⟩
    · exact ⟨m, rfl, hc⟩
  rw [hnode] at hy
  split at hy
  · rename_i hyid
    cases hy
    rw [ha.parentId] at hq
    cases hq
    obtain ⟨m, hm⟩ := ha.live
    have hp : p ≠ node.id := by
      rintro rfl
      rw [ha.fresh h] at hm
      cases hm
    refine ⟨m.addChild node.id, ?_, ?_⟩
    · rw [hnode, if_neg hp, if_pos rfl, hm]
      rfl
    · rw [hyid]
      exact List.mem_append_right _ (List.mem_singleton.mpr rfl)
  · split at hy
    · obtain ⟨n, hn, rfl⟩ := Option.map_eq_some_iff.mp hy
      obtain ⟨m, hm, hmem⟩ := hl hn hq
      exact hlists hm hmem
    · obtain ⟨m, hm, hmem⟩ := hl hy hq
      exact hlists hm hmem

/-- Removing whole subtrees leaves every other node listed. -/
theorem Removable.linked_pruned {d : Document} {p x : Nat} {postorder : List Nat}
    (hr : Removable d p x postorder) (h : Shape d) (hl : Linked d)
    (hdown : ∀ y ∈ postorder, ∀ c ∈ d.childrenOf y, c ∈ postorder) (total : Nat) :
    Linked (d.pruned p x postorder total) := by
  -- A survivor's parent survives: had it gone, its children would have gone with it.
  intro y n' q hy hq
  rw [hr.lookup_pruned] at hy
  split at hy
  · cases hy
  · rename_i hyP
    obtain ⟨n, hn, rfl⟩ := Option.map_eq_some_iff.mp hy
    have hnq : n.parentId = some q := by
      rw [← hq]
      split <;> rfl
    obtain ⟨m, hm, hmem⟩ := hl hn hnq
    have hqP : q ∉ postorder := fun hqP =>
      hyP (hdown q hqP y (mem_childrenOf.mpr ⟨m, hm, hmem⟩))
    refine ⟨_, by rw [hr.lookup_pruned, if_neg hqP, hm]; rfl, ?_⟩
    have hyx : y ≠ x := fun h => hyP (h ▸ hr.target)
    split
    · exact (mem_swapRemoveFirst (h.nodup hm)).mpr ⟨hyx, hmem⟩
    · exact hmem

namespace Valid

variable {d : Document} (hv : Valid d)
include hv

theorem bumped : Valid d.bumped where
  shape := hv.shape.bumped
  linked := hv.linked
  bytes := hv.bytes
  cap := hv.cap
  capLimit := hv.capLimit
  viewRoot := hv.viewRoot
  elided := hv.elided
  elidedNodup := hv.elidedNodup

/-- A node changes something other than its place and its content. -/
theorem modifyPlaced {f : Node → Node} (hf : KeepsPlace f) (hc : ∀ n, (f n).content = n.content)
    (x : Nat) : Valid (d.modifyNode x f) where
  shape := hv.shape.modifyPlaced hf x
  linked := linked_modifyPlaced hv.linked hf x
  bytes := by
    rw [sumNodes_modifyNode_of_eq contentWeight d x fun n => by rw [contentWeight, hc, contentWeight]]
    exact hv.bytes
  cap := hv.cap
  capLimit := hv.capLimit
  viewRoot y hy := live_modifyNode (hv.viewRoot y hy)
  elided y hy := live_modifyNode (hv.elided y hy)
  elidedNodup := hv.elidedNodup

/-- A node changes something other than its links and its content. -/
theorem modifyNode {f : Node → Node} (hf : KeepsLinks f) (hc : ∀ n, (f n).content = n.content)
    (x : Nat) : Valid (d.modifyNode x f) := hv.modifyPlaced hf.place hc x

/-- A node changes its content, and the byte count changes by as much. -/
theorem withContent {x bytes : Nat} {n : Node} {f : Node → Node} (hx : d.lookup x = some n)
    (hf : KeepsLinks f) (hbytes : bytes + n.content.length = d.contentBytes + (f n).content.length)
    (hcap : bytes ≤ d.maxContentBytes) : Valid (d.withContent x f bytes) where
  shape := hv.shape.withContent hf x bytes
  linked := linked_modifyNode hv.linked hf x
  bytes := by
    have hsum := sumNodes_modifyNode contentWeight d f hx
    have hold := hv.bytes
    unfold contentWeight at hsum hold ⊢
    show bytes = sumNodes (fun n => n.content.length) (d.modifyNode x f)
    omega
  cap := hcap
  capLimit := hv.capLimit
  viewRoot y hy := live_modifyNode (hv.viewRoot y hy)
  elided y hy := live_modifyNode (hv.elided y hy)
  elidedNodup := hv.elidedNodup

theorem attached {p : Nat} {node : Node} (ha : Attachable d p node) (hempty : node.content = []) :
    Valid (d.bumped.attached p node) := by
  have hid := ha.id_ne_zero hv.shape
  have hnode : ∀ y, (d.bumped.attached p node).lookup y
      = if y = node.id then some node
        else if y = p then (d.lookup y).map (·.addChild node.id) else d.lookup y :=
    lookup_attached d.bumped hid
  have hlive : ∀ {y}, (∃ n, d.lookup y = some n) →
      ∃ n, (d.bumped.attached p node).lookup y = some n := by
    intro y hy
    obtain ⟨n, hn⟩ := hy
    rw [hnode, hn]
    split
    · exact ⟨node, rfl⟩
    · split
      · exact ⟨_, rfl⟩
      · exact ⟨n, rfl⟩
  refine ⟨ha.shape_attached hv.shape, ?_, ?_, hv.cap, hv.capLimit, fun y hy => hlive (hv.viewRoot y hy),
    fun y hy => hlive (hv.elided y hy), hv.elidedNodup⟩
  · exact ha.linked_attached hv.shape hv.linked
  · have hsum := ha.sumNodes_attached (w := contentWeight) (fun _ _ => rfl) hv.shape
    have hzero : contentWeight node = 0 := by rw [contentWeight, hempty]; rfl
    show d.contentBytes = sumNodes contentWeight (d.attached p node)
    rw [hsum, hzero]
    exact hv.bytes

theorem pruned {p x : Nat} {postorder : List Nat} (hr : Removable d p x postorder)
    (hdown : ∀ y ∈ postorder, ∀ c ∈ d.childrenOf y, c ∈ postorder) :
    Valid (d.pruned p x postorder (postorder.map d.contentLength).sum) := by
  have hlive : ∀ {y}, y ∉ postorder → (∃ n, d.lookup y = some n) →
      ∃ n, (d.pruned p x postorder (postorder.map d.contentLength).sum).lookup y = some n := by
    intro y hy hn
    obtain ⟨n, hn⟩ := hn
    exact ⟨_, by rw [hr.lookup_pruned, if_neg hy, hn]; rfl⟩
  have hview := foldl_dropped_view postorder (d.detached p x)
  refine ⟨hr.shape_pruned hv.shape _, ?_, ?_, ?_, ?_, ?_, ?_, ?_⟩
  · exact hr.linked_pruned hv.shape hv.linked hdown _
  · have hsum := hr.sumNodes_pruned (w := contentWeight) (fun _ => rfl)
      (postorder.map d.contentLength).sum
    have hbytes := hv.bytes
    have hold : (d.pruned p x postorder (postorder.map d.contentLength).sum).contentBytes
        = d.contentBytes - (postorder.map d.contentLength).sum :=
      congrArg (· - _) (contentBytes_foldl_dropped postorder (d.detached p x))
    have hmap : (postorder.map fun y => slotWeight contentWeight (d.lookup y)).sum
        = (postorder.map d.contentLength).sum := rfl
    omega
  · have hold : (d.pruned p x postorder (postorder.map d.contentLength).sum).contentBytes
        = d.contentBytes - (postorder.map d.contentLength).sum :=
      congrArg (· - _) (contentBytes_foldl_dropped postorder (d.detached p x))
    rw [hold]
    exact (Nat.sub_le _ _).trans (hv.cap.trans hview.max.ge)
  · rw [show (d.pruned p x postorder _).maxContentBytes = d.maxContentBytes from hview.max]
    exact hv.capLimit
  · intro y hy
    obtain ⟨hy, hyP⟩ := hview.root y hy
    exact hlive hyP (hv.viewRoot y hy)
  · intro y hy
    obtain ⟨hy, hyP⟩ := hview.elided hv.elidedNodup y hy
    exact hlive hyP (hv.elided y hy)
  · exact hview.nodup hv.elidedNodup

end Valid

/-! ## Operations -/

/-- A mutation that keeps the invariant and never goes back on what was fixed. -/
abbrev Sound {α : Type} (m : DocM α) : Prop := Action.Advances Valid Evolves m

theorem sound_of_unchanged {α : Type} {m : DocM α} (h : ∀ d, (m d).2 = d) : Sound m :=
  Action.advances_of_unchanged evolves_progress h

theorem sound_view {α : Type} (f : Document → Except Failure α) : Sound (Action.view f) :=
  Action.advances_view evolves_progress f

theorem attachable_prepared {d : Document} {p : Nat} (hp : ∃ m, d.lookup p = some m)
    (kind : NodeKind) (title : Bytes) (source : Source) (name : Option Bytes) :
    Attachable d p (preparedNode d.nextNodeId p kind title source name) :=
  ⟨rfl, rfl, rfl, hp⟩

theorem appendNode_sound (p : Nat) (kind : NodeKind) (title : Bytes) (source : Source) :
    Sound (appendNode p kind title source) := by
  intro d hv
  rcases appendNode_cases hv.shape p kind title source with
    ⟨-, hp, name, -, heq⟩ | ⟨-, -, heq⟩ | ⟨-, heq⟩
  · rw [heq]
    have ha := attachable_prepared hp kind title source name
    exact ⟨hv.attached ha rfl, evolves_attached hv.shape ha⟩
  · rw [heq]
    exact ⟨hv.bumped, evolves_bumped d⟩
  · rw [heq]
    exact ⟨hv, evolves_progress.refl d⟩

theorem evolves_withContent (d : Document) (x bytes : Nat) {f : Node → Node} (hf : KeepsLinks f) :
    Evolves d (d.withContent x f bytes) :=
  have h := evolves_modifyNode d x hf
  ⟨h.next, h.kept⟩

theorem setStableNodeContent_sound (x : Nat) (content : Bytes) :
    Sound (setStableNodeContent x content) := by
  intro d hv
  cases hx : d.lookup x with
  | none =>
      have heq : setStableNodeContent x content d = (.error (.panic .danglingNode), d) := by
        simp only [setStableNodeContent, Action.bind_apply, Action.view_apply, deref, hx,
          Action.next_error]
      rw [heq]
      exact ⟨hv, evolves_progress.refl d⟩
  | some n =>
      rw [setContent_eq hx]
      by_cases hfit : d.FitsReplace n.content.length content.length
      · rw [if_pos hfit]
        obtain ⟨hle, hretained, hadd⟩ := hfit
        refine ⟨hv.withContent hx (keepsLinks_setContent content) ?_ ?_,
          evolves_withContent d x _ (keepsLinks_setContent content)⟩
        · show d.contentBytes - n.content.length + content.length + n.content.length
            = d.contentBytes + content.length
          omega
        · omega
      · rw [if_neg hfit]
        exact ⟨hv, evolves_progress.refl d⟩

theorem appendTextToStableNode_sound (x : Nat) (chunk : Bytes) :
    Sound (appendTextToStableNode x chunk) := by
  intro d hv
  cases hx : d.lookup x with
  | none =>
      have heq : (appendTextToStableNode x chunk d).2 = d := by
        simp only [appendTextToStableNode, Action.bind_apply, Action.view_apply]
        cases d.reserveAdditionalContentBytes chunk.length with
        | error e => rfl
        | ok _ => simp only [Action.next_ok, Action.bind_apply, Action.view_apply, deref, hx,
            Action.next_error]
      rw [heq]
      exact ⟨hv, evolves_progress.refl d⟩
  | some n =>
      rw [appendText_eq hx]
      by_cases hfit : d.FitsAppend chunk.length
      · rw [if_pos hfit]
        obtain ⟨hle, hadd⟩ := hfit
        refine ⟨hv.withContent hx (keepsLinks_appendContent chunk) ?_ ?_,
          evolves_withContent d x _ (keepsLinks_appendContent chunk)⟩
        · show d.contentBytes + chunk.length + n.content.length
            = d.contentBytes + (n.content ++ chunk).length
          rw [List.length_append]
          omega
        · omega
      · rw [if_neg hfit]
        exact ⟨hv, evolves_progress.refl d⟩

theorem updateKnownNode_sound (x : Nat) {f : Node → Node} (hf : KeepsLinks f)
    (hc : ∀ n, (f n).content = n.content) : Sound (updateKnownNode x f) := by
  intro d hv
  cases hx : d.lookup x with
  | none =>
      rw [updateKnownNode_of_missing hx]
      exact ⟨hv, evolves_progress.refl d⟩
  | some n =>
      rw [updateKnownNode_of_lookup hx]
      exact ⟨hv.modifyNode hf hc x, evolves_modifyNode d x hf⟩

theorem setNodeTitle_sound (x : Nat) (title : Bytes) : Sound (setNodeTitle x title) :=
  updateKnownNode_sound x (keepsLinks_setTitle title) fun _ => rfl

theorem setFollowTail_sound (x : Nat) (enabled : Bool) : Sound (setFollowTail x enabled) :=
  updateKnownNode_sound x
    ⟨fun _ => rfl, fun _ => rfl, fun _ => rfl, fun _ => rfl, fun _ => rfl⟩ fun _ => rfl

theorem setNodeBackendId_sound (x : Nat) (backendId : Bytes) :
    Sound (setNodeBackendId x backendId) :=
  updateKnownNode_sound x (keepsLinks_setBackendId backendId) fun _ => rfl

theorem setNodeContent_sound (x : Nat) (content : Bytes) : Sound (setNodeContent x content) :=
  (sound_view _).bind evolves_progress fun _ => setStableNodeContent_sound x content

theorem appendTextToNode_sound (x : Nat) (chunk : Bytes) : Sound (appendTextToNode x chunk) :=
  (sound_view _).bind evolves_progress fun _ => appendTextToStableNode_sound x chunk

theorem freezeTtyNodeAsArtifact_sound (x : Nat) (kind : TerminalArtifactKind)
    (sections : TerminalArtifactSections) : Sound (freezeTtyNodeAsArtifact x kind sections) := by
  refine (sound_view _).bind evolves_progress fun node => ?_
  cases node.source with
  | tty tty =>
      intro d hv
      have hf : KeepsLinks fun node : Node =>
          { node with
            source := .terminalArtifact (.fromTty tty kind sections)
            lifecycle := .frozen } :=
        ⟨fun _ => rfl, fun _ => rfl, fun _ => rfl, fun _ => rfl, fun _ => rfl⟩
      exact ⟨hv.modifyNode hf (fun _ => rfl) x, evolves_modifyNode d x hf⟩
  | none => exact Action.advances_throw evolves_progress _
  | terminalArtifact artifact => exact Action.advances_throw evolves_progress _
  | file file => exact Action.advances_throw evolves_progress _

/-! ### Removal -/

/-- Taking a whole subtree out of its parent succeeds and keeps the invariant. -/
theorem Valid.removal {d : Document} (hv : Valid d) {p x : Nat} {n : Node}
    (hx : d.lookup x = some n) (hp : n.parentId = some p) {postorder : List Nat}
    (hpost : postorder.Perm (hv.shape.forest.postorder x)) :
    Removable d p x postorder ∧
    d.totalContentBytesForNodes postorder = .ok (postorder.map d.contentLength).sum ∧
    (do detachChildFromParent p x
        removeDetachedPostorder postorder (postorder.map d.contentLength).sum : DocM Unit) d
      = (.ok (), d.pruned p x postorder (postorder.map d.contentLength).sum) ∧
    Valid (d.pruned p x postorder (postorder.map d.contentLength).sum) := by
  have hmem : ∀ {y}, y ∈ postorder ↔ hv.shape.forest.Below x y := fun {y} =>
    hpost.mem_iff.trans (Forest.mem_postorder _)
  have hr₀ := hv.shape.removable_postorder hx hp
  have hr : Removable d p x postorder :=
    ⟨hpost.nodup_iff.mpr hr₀.nodup, hpost.mem_iff.mpr hr₀.target, hr₀.parent,
      fun y hy => hr₀.live y (hpost.mem_iff.mp hy), fun y hy hyx => by
        obtain ⟨m, q, hm, hq, hqP⟩ := hr₀.upward y (hpost.mem_iff.mp hy) hyx
        exact ⟨m, q, hm, hq, hpost.mem_iff.mpr hqP⟩⟩
  have hle := hv.sum_content_le hr.nodup hr.live
  have hcap := hv.cap
  have hlimit := hv.capLimit
  obtain ⟨m, hm, -⟩ := hv.linked hx hp
  refine ⟨hr, totalContentBytes_eq postorder hr.live (by omega), ?_, ?_⟩
  · rw [detach_remove_eq hm x hr.nodup hr.live hv.shape.count, if_neg (by omega)]
  · refine hv.pruned hr fun y hy c hc => ?_
    exact hmem.mpr ((hmem.mp hy).trans (hv.shape.forest.below_child hc))

/-- `removeSubtree` refuses the root. -/
theorem removeSubtree_root (d : Document) :
    removeSubtree d.rootNodeId d = (.error (.error .nodeHasChildren), d) := by
  simp only [removeSubtree, Action.bind_apply, Action.get_apply, Action.next_ok, if_true]
  rfl

theorem removeSubtree_missing {d : Document} {x : Nat} (hroot : x ≠ d.rootNodeId)
    (hx : d.lookup x = none) : removeSubtree x d = (.error (missing x .unknownNode), d) := by
  simp only [removeSubtree, Action.bind_apply, Action.get_apply, Action.next_ok,
    if_neg hroot, Action.view_apply, nodeOr_of_missing hx, Action.next_error]

/-- `removeSubtree` takes out any other live node with all that is below it. -/
theorem Valid.removeSubtree_live {d : Document} (hv : Valid d) {x : Nat} {n : Node}
    (hroot : x ≠ d.rootNodeId) (hx : d.lookup x = some n) {p : Nat} (hp : n.parentId = some p) :
    removeSubtree x d = (.ok (), d.pruned p x (hv.shape.forest.postorder x)
      ((hv.shape.forest.postorder x).map d.contentLength).sum) := by
  obtain ⟨-, htotal, hrun, -⟩ := hv.removal hx hp (List.Perm.refl _)
  simp only [removeSubtree, Action.bind_apply, Action.get_apply, Action.next_ok,
    if_neg hroot, Action.view_apply, nodeOr_of_lookup hx,
    hv.shape.collectSubtreePostorder_eq hx, htotal, hp]
  exact hrun

/-- All that `removeSubtree` can do. -/
theorem removeSubtree_cases {d : Document} (hv : Valid d) (x : Nat) :
    (∃ n p, d.lookup x = some n ∧ n.parentId = some p ∧
      let postorder := hv.shape.forest.postorder x
      removeSubtree x d
        = (.ok (), d.pruned p x postorder (postorder.map d.contentLength).sum)) ∨
    (∃ f, removeSubtree x d = (.error f, d)) := by
  by_cases hroot : x = d.rootNodeId
  · rw [hroot]
    exact .inr ⟨_, removeSubtree_root d⟩
  · cases hx : d.lookup x with
    | none => exact .inr ⟨_, removeSubtree_missing hroot hx⟩
    | some n =>
        have hx1 : x ≠ 1 := by rwa [hv.shape.rootNodeId] at hroot
        obtain ⟨p, hp, -⟩ := hv.shape.parent hx hx1
        exact .inl ⟨n, p, rfl, hp, hv.removeSubtree_live hroot hx hp⟩

theorem removeSubtree_sound (x : Nat) : Sound (removeSubtree x) := by
  intro d hv
  rcases removeSubtree_cases hv x with ⟨n, p, hx, hp, heq⟩ | ⟨f, heq⟩
  · obtain ⟨hr, -, -, hvalid⟩ := hv.removal hx hp (List.Perm.refl _)
    rw [heq]
    exact ⟨hvalid, evolves_pruned hr _⟩
  · rw [heq]
    exact ⟨hv, evolves_progress.refl d⟩

/-- The listing of a leaf is the leaf. -/
theorem Shape.postorder_leaf {d : Document} (h : Shape d) {x : Nat} {n : Node}
    (hx : d.lookup x = some n) (hleaf : n.children = []) : h.forest.postorder x = [x] := by
  have hchildren : h.forest.children x = [] := (childrenOf_eq hx).trans hleaf
  rw [Forest.postorder_eq, hchildren]
  rfl

theorem removeNode_missing {d : Document} {x : Nat} (hx : d.lookup x = none) :
    removeNode x d = (.error (missing x .unknownNode), d) := by
  simp only [removeNode, Action.bind_apply, Action.view_apply, nodeOr_of_missing hx,
    Action.next_error]

/-- `removeNode` refuses a node that has children. -/
theorem removeNode_inner {d : Document} {x : Nat} {n : Node} (hx : d.lookup x = some n)
    (hinner : n.children ≠ []) : removeNode x d = (.error (.error .nodeHasChildren), d) := by
  simp only [removeNode, Action.bind_apply, Action.view_apply, nodeOr_of_lookup hx,
    Action.next_ok, if_pos hinner]
  rfl

/-- `removeNode` takes out a leaf that has a parent. -/
theorem Valid.removeNode_leaf {d : Document} (hv : Valid d) {x : Nat} {n : Node}
    (hx : d.lookup x = some n) (hleaf : n.children = []) {p : Nat} (hp : n.parentId = some p) :
    removeNode x d = (.ok (), d.pruned p x [x] ([x].map d.contentLength).sum) := by
  have hpost : [x].Perm (hv.shape.forest.postorder x) := by
    rw [hv.shape.postorder_leaf hx hleaf]
  obtain ⟨-, htotal, hrun, -⟩ := hv.removal hx hp hpost
  have hleaf' : ¬ n.children ≠ [] := not_not_intro hleaf
  simp only [removeNode, Action.bind_apply, Action.view_apply, nodeOr_of_lookup hx,
    Action.next_ok, if_neg hleaf', htotal, hp]
  exact hrun

/-- All that `removeNode` can do to a node that is not the root. -/
theorem removeNode_cases {d : Document} (hv : Valid d) {x : Nat} (hx1 : x ≠ 1) :
    (∃ n p, d.lookup x = some n ∧ n.children = [] ∧ n.parentId = some p ∧
      removeNode x d = (.ok (), d.pruned p x [x] ([x].map d.contentLength).sum)) ∨
    (∃ f, removeNode x d = (.error f, d)) := by
  cases hx : d.lookup x with
  | none => exact .inr ⟨_, removeNode_missing hx⟩
  | some n =>
      by_cases hleaf : n.children = []
      · obtain ⟨p, hp, -⟩ := hv.shape.parent hx hx1
        exact .inl ⟨n, p, rfl, hleaf, hp, hv.removeNode_leaf hx hleaf hp⟩
      · exact .inr ⟨_, removeNode_inner hx hleaf⟩

theorem removeNode_sound {d : Document} (hv : Valid d) {x : Nat} (hx1 : x ≠ 1) :
    Valid (removeNode x d).2 ∧ Evolves d (removeNode x d).2 := by
  rcases removeNode_cases hv hx1 with ⟨n, p, hx, hleaf, hp, heq⟩ | ⟨f, heq⟩
  · have hpost : [x].Perm (hv.shape.forest.postorder x) := by
      rw [hv.shape.postorder_leaf hx hleaf]
    obtain ⟨hr, -, -, hvalid⟩ := hv.removal hx hp hpost
    rw [heq]
    exact ⟨hvalid, evolves_pruned hr _⟩
  · rw [heq]
    exact ⟨hv, evolves_progress.refl d⟩

/-! ### Removing the root -/

/-- No node is live and nothing is counted. -/
structure Hollow (d : Document) : Prop where
  lookup : ∀ x, d.lookup x = none
  bytes : d.contentBytes = 0

theorem Hollow.sumNodes_eq {d : Document} (h : Hollow d) (w : Node → Nat) : sumNodes w d = 0 :=
  sumNodes_eq_zero h.lookup w

/-- The root goes when it is the only node, and takes everything with it. -/
theorem Valid.removeNode_only {d : Document} (hv : Valid d) {r : Node} (hr : d.lookup 1 = some r)
    (hleaf : r.children = []) : ∃ d', removeNode 1 d = (.ok (), d') ∧ Hollow d' := by
  have hparent : r.parentId = none := by
    obtain ⟨n, hn, hparent, -⟩ := hv.shape.root
    rw [hr] at hn
    cases hn
    exact hparent
  have hpost := hv.shape.postorder_leaf hr hleaf
  have honly : ∀ {x n}, d.lookup x = some n → x = 1 := by
    intro x n hx
    have hbelow := hv.below_root hx
    rw [← Forest.mem_postorder, hpost] at hbelow
    exact List.mem_singleton.mp hbelow
  have hsum := sumNodes_dropped contentWeight hr
  have hdrop : ∀ x, (d.dropped 1).lookup x = none := by
    intro x
    rw [lookup_dropped d (lookup_pos hr)]
    split
    · rfl
    · rename_i hx
      cases hl : d.lookup x with
      | none => rfl
      | some n => exact absurd (honly hl) hx
  have hempty : sumNodes contentWeight (d.dropped 1) = 0 :=
    Hollow.sumNodes_eq (d := { d.dropped 1 with contentBytes := 0 }) ⟨hdrop, rfl⟩ contentWeight
  have hbytes := hv.bytes
  have hcap := hv.cap
  have hlimit := hv.capLimit
  have hlength : ([1].map d.contentLength).sum = d.contentBytes := by
    have hone : d.contentLength 1 = contentWeight r := by rw [contentLength, hr]; rfl
    rw [List.map_singleton, List.sum_singleton, hone]
    omega
  have htotal : d.totalContentBytesForNodes [1] = .ok d.contentBytes := by
    rw [totalContentBytes_eq [1] (fun x hx => ⟨r, by rw [List.mem_singleton.mp hx, hr]⟩)
      (by omega), hlength]
  have hcount : d.liveNodeCount ≠ 0 := by
    have hones := sumNodes_dropped (fun _ => 1) hr
    have hlive := hv.shape.count
    omega
  have hleaf' : ¬ r.children ≠ [] := not_not_intro hleaf
  refine ⟨{ d.dropped 1 with contentBytes := d.contentBytes - d.contentBytes }, ?_, hdrop,
    Nat.sub_self _⟩
  simp only [removeNode, Action.bind_apply, Action.view_apply, nodeOr_of_lookup hr,
    Action.next_ok, if_neg hleaf', htotal, hparent, removeDetachedPostorder, Action.get_apply,
    gt_iff_lt, lt_irrefl, if_false, Action.forM_cons_apply, Action.forM_nil_apply,
    removeNodeRegistryOnly_eq hr hcount, Action.modify_apply]
  rfl

/-- All that `removeNode` can do to the root. -/
theorem removeNode_root {d : Document} (hv : Valid d) :
    Hollow (removeNode 1 d).2 ∨ removeNode 1 d = (.error (.error .nodeHasChildren), d) := by
  obtain ⟨r, hr, -⟩ := hv.shape.root
  by_cases hleaf : r.children = []
  · obtain ⟨d', heq, hh⟩ := hv.removeNode_only hr hleaf
    rw [heq]
    exact .inl hh
  · exact .inr (removeNode_inner hr hleaf)

/-- A leaf goes; the root only when it is all there is. -/
theorem Valid.removeNode_state {d : Document} (hv : Valid d) (x : Nat) :
    Valid (removeNode x d).2 ∨ Hollow (removeNode x d).2 := by
  by_cases hx1 : x = 1
  · subst hx1
    rcases removeNode_root hv with hh | heq
    · exact .inr hh
    · rw [heq]
      exact .inl hv
  · exact .inl (removeNode_sound hv hx1).1

namespace Hollow

variable {d : Document} (hh : Hollow d)
include hh

/-- Without a parent only the next id moves. -/
theorem appendNode (p : Nat) (kind : NodeKind) (title : Bytes) (source : Source) :
    Hollow (Document.appendNode p kind title source d).2 := by
  rw [Document.appendNode, Action.bind_apply, reserveNodeId]
  split
  · rw [Action.next_ok, Action.bind_apply, Action.view_apply]
    have hbumped : d.bumped.lookup p = none := hh.lookup p
    have hprepare : d.bumped.prepareNodeWithId d.nextNodeId p kind title source
        = .error (missing p .unknownParent) := by
      rw [prepareNodeWithId, nodeOr_of_missing hbumped]
      rfl
    show Hollow (Action.next _
      (d.bumped.prepareNodeWithId d.nextNodeId p kind title source, d.bumped)).2
    rw [hprepare]
    exact ⟨hh.lookup, hh.bytes⟩
  · exact hh

theorem removeNode (x : Nat) : (Document.removeNode x d).2 = d := by
  rw [removeNode_missing (hh.lookup x)]

theorem removeSubtree (x : Nat) : (Document.removeSubtree x d).2 = d := by
  by_cases hroot : x = d.rootNodeId
  · rw [hroot, removeSubtree_root]
  · rw [removeSubtree_missing hroot (hh.lookup x)]

end Hollow

/-! ### View state -/

/-- The document with other view state. -/
def withView (d : Document) (root : Option Nat) (elided : List Nat) : Document :=
  { d with viewRootNodeId := root, elidedNodeIds := elided }

theorem Valid.withView {d : Document} (hv : Valid d) {root : Option Nat} {elided : List Nat}
    (hroot : ∀ x, root = some x → ∃ n, d.lookup x = some n)
    (helided : ∀ x ∈ elided, ∃ n, d.lookup x = some n) (hnodup : elided.Nodup) :
    Valid (d.withView root elided) where
  shape := ⟨hv.shape.id_eq, hv.shape.rootNodeId, hv.shape.root, hv.shape.parent, hv.shape.child,
    hv.shape.nodup, hv.shape.fresh, hv.shape.count⟩
  linked := hv.linked
  bytes := hv.bytes
  cap := hv.cap
  capLimit := hv.capLimit
  viewRoot := hroot
  elided := helided
  elidedNodup := hnodup

theorem evolves_withView (d : Document) (root : Option Nat) (elided : List Nat) :
    Evolves d (d.withView root elided) :=
  ⟨le_refl _, fun {_ n} hx => .inr ⟨n, hx, .refl _ n⟩⟩

/-- An operation that checks that a node is live and then changes the view state. -/
theorem checkedView_sound (x : Nat) (root : Document → Option Nat) (elided : Document → List Nat)
    (hroot : ∀ d, Valid d → (∃ n, d.lookup x = some n) →
      ∀ y, root d = some y → ∃ n, d.lookup y = some n)
    (helided : ∀ d, Valid d → (∃ n, d.lookup x = some n) →
      (∀ y ∈ elided d, ∃ n, d.lookup y = some n) ∧ (elided d).Nodup) :
    Sound (do
      let _ ← Action.view fun d => d.nodeOr x .unknownNode
      modify fun d => d.withView (root d) (elided d) : DocM Unit) := by
  intro d hv
  cases hx : d.lookup x with
  | none =>
      simp only [Action.bind_apply, Action.view_apply, nodeOr_of_missing hx, Action.next_error]
      exact ⟨hv, evolves_progress.refl d⟩
  | some n =>
      simp only [Action.bind_apply, Action.view_apply, nodeOr_of_lookup hx, Action.next_ok,
        Action.modify_apply]
      obtain ⟨helid, hnodup⟩ := helided d hv ⟨n, hx⟩
      exact ⟨hv.withView (hroot d hv ⟨n, hx⟩) helid hnodup, evolves_withView d _ _⟩

theorem setViewRoot_sound (x : Nat) : Sound (setViewRoot x) :=
  checkedView_sound x (fun _ => some x) (fun d => d.elidedNodeIds)
    (fun _ _ hx _ hy => Option.some.inj hy ▸ hx) fun _ hv _ => ⟨hv.elided, hv.elidedNodup⟩

theorem toggleElided_sound (x : Nat) : Sound (toggleElided x) := by
  refine checkedView_sound x (fun d => d.viewRootNodeId) _ (fun _ hv _ => hv.viewRoot)
    fun d hv hx => ?_
  split
  · exact ⟨fun y hy => hv.elided y (subset_of_swapRemoveFirst hy), nodup_swapRemoveFirst hv.elidedNodup⟩
  · rename_i hmem
    refine ⟨fun y hy => ?_, hv.elidedNodup.append (List.nodup_singleton x)
      (List.disjoint_singleton.mpr hmem)⟩
    rcases List.mem_append.mp hy with hy | hy
    · exact hv.elided y hy
    · exact List.mem_singleton.mp hy ▸ hx

theorem setElided_sound (x : Nat) (enabled : Bool) : Sound (setElided x enabled) := by
  refine checkedView_sound x (fun d => d.viewRootNodeId) _ (fun _ hv _ => hv.viewRoot)
    fun d hv hx => ?_
  split
  · split
    · exact ⟨hv.elided, hv.elidedNodup⟩
    · exact ⟨fun y hy => hv.elided y (subset_of_swapRemoveFirst hy),
        nodup_swapRemoveFirst hv.elidedNodup⟩
  · rename_i hmem
    split
    · refine ⟨fun y hy => ?_, hv.elidedNodup.append (List.nodup_singleton x)
        (List.disjoint_singleton.mpr hmem)⟩
      rcases List.mem_append.mp hy with hy | hy
      · exact hv.elided y hy
      · exact List.mem_singleton.mp hy ▸ hx
    · exact ⟨hv.elided, hv.elidedNodup⟩

theorem clearViewRoot_sound : Sound clearViewRoot := fun d hv =>
  ⟨hv.withView (fun _ h => by cases h) hv.elided hv.elidedNodup, evolves_withView d none _⟩

theorem resetView_sound : Sound resetView := fun d hv =>
  ⟨hv.withView (fun _ h => by cases h) (fun _ h => by cases h) List.nodup_nil,
    evolves_withView d none []⟩

/-! ### A new document -/

theorem valid_init (id : Nat) (title : Bytes) : Valid (init id title) := by
  have hlook : ∀ {x n}, (init id title).lookup x = some n → x = 1 ∧
      n = { Node.init 1 .document title none .none with
        name := defaultNodeName title
        followTail := false } := by
    intro x n hx
    rcases x with _ | _ | x
    · cases hx
    · exact ⟨rfl, (Option.some.inj hx).symm⟩
    · cases hx
  refine ⟨⟨?_, rfl, ⟨_, rfl, rfl, rfl⟩, ?_, ?_, ?_, ?_, rfl⟩, ?_, rfl, ?_, ?_, ?_, ?_, List.nodup_nil⟩
  · intro x n hx
    obtain ⟨rfl, rfl⟩ := hlook hx
    rfl
  · intro x n hx hx1
    exact absurd (hlook hx).1 hx1
  · intro p n c hp hc
    obtain ⟨-, rfl⟩ := hlook hp
    cases hc
  · intro p n hp
    obtain ⟨-, rfl⟩ := hlook hp
    exact List.nodup_nil
  · exact Nat.one_lt_two
  · intro x n p hx hp
    obtain ⟨-, rfl⟩ := hlook hx
    cases hp
  · exact Nat.zero_le _
  · show defaultMaxDocumentContentBytes < u64Limit
    decide
  · intro x hx
    cases hx
  · intro x hx
    cases hx

end Document

end Muxly.Core
