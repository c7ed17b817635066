/-
# Muxly.Daemon.Artifacts -- what becomes of a frozen node

`node.freeze` turns a tty leaf into an artifact with a content of its own. The functions that answer
to tmux never write to an artifact, but they take away what tmux no longer has, and an artifact goes
with the window or the session above it. `Spares` says of a call that it writes nothing to the
artifact and takes nothing above it away; every run of such calls keeps the artifact.
-/
import Muxly.Daemon.Rebuild
import Muxly.Daemon.StoreRuns

namespace Muxly.Daemon

open Muxly.Control Muxly.Core Muxly.Sync Muxly.Tree
open Document

/-! ## Calls that spare an artifact -/

/-- Two nodes with one content, one source and one lifecycle. -/
structure SameArtifact (n m : Node) : Prop where
  content : m.content = n.content
  source : m.source = n.source
  lifecycle : m.lifecycle = n.lifecycle

theorem SameArtifact.refl (n : Node) : SameArtifact n n := ⟨rfl, rfl, rfl⟩

theorem SameArtifact.trans {n m k : Node} (h : SameArtifact n m) (h' : SameArtifact m k) :
    SameArtifact n k :=
  ⟨h'.content.trans h.content, h'.source.trans h.source, h'.lifecycle.trans h.lifecycle⟩

section Sparing

variable (O : Outline Projects) (x : Nat)

/-- A pass over the snapshots takes nothing above `x` away below the session node `s`. -/
def SparedBelow (snapshots : List PaneSnapshot) (s : Nat) : Prop :=
  ∀ c, Stale O s snapshots c → ¬ O.Under c x

/-- So it is with every projection of the session. -/
def SparedInSession (sessionId : Bytes) (snapshots : List PaneSnapshot) : Prop :=
  ∀ s, O.Has (·.session = some sessionId) s → SparedBelow O x snapshots s

/-- So it is when the session of a pane is projected again. -/
def SparedByPane (snapshots : List PaneSnapshot) (paneId : Bytes) : Prop :=
  ∀ snapshot, snapshots.find? (fun snapshot => snapshot.paneId == paneId) = some snapshot →
    SparedInSession O x snapshot.sessionId
      (snapshots.filter fun item => item.sessionId == snapshot.sessionId)

/-- No projection of the session lies above `x`. -/
def SparedByRemoval (sessionId : Bytes) : Prop :=
  ∀ s, O.Has (·.session = some sessionId) s → ¬ O.Under s x

/-- The session of a pane that was closed is projected again from what remains of it, or removed. -/
def SparedByRemaining (remaining again : List PaneSnapshot) (sessionId : Bytes) : Prop :=
  match remaining.find? fun snapshot => snapshot.sessionId == sessionId with
  | some surviving => SparedByPane O x again surviving.paneId
  | none => SparedByRemoval O x sessionId

end Sparing

/-- The calls that answer to tmux, and the refresh of the sources. -/
def StoreCall.isBackend : StoreCall → Bool
  | .refreshSources _ | .rebuildTmuxSession .. | .projectNewPane .. | .reconcileTmuxState ..
  | .closeTmuxPane .. | .captureTmuxPane .. | .tmuxOutput .. | .windowRenamed ..
  | .windowClose _ => true
  | _ => false

/-- The call writes no content to `x` and takes neither `x` nor a node above it away. -/
def StoreCall.Spares (x : Nat) (d : Document) : StoreCall → Prop
  | .updateNode y _ content => content = none ∨ y ≠ x
  | .appendTextChunk y _ => y ≠ x
  | .removeNode y => ¬ (outline d).Under y x
  | .rebuildTmuxSession _ p snapshots =>
    ∀ first ∈ snapshots.head?, ∀ s, (outline d).Child p s →
      (outline d).Has (·.session = some first.sessionId) s → SparedBelow (outline d) x snapshots s
  | .projectNewPane _ _ snapshots paneId => SparedByPane (outline d) x snapshots paneId
  | .reconcileTmuxState _ snapshots =>
    ∀ s sessionId, (outline d).Has (·.session = some sessionId) s → (outline d).Under s x →
      let ofSession := snapshots.filter fun snapshot => snapshot.sessionId == sessionId
      ofSession ≠ [] ∧ SparedBelow (outline d) x ofSession s
  | .closeTmuxPane _ remaining again paneId =>
    ∀ y sessionId, Sequential.findNodeIdByPaneId d paneId = .ok (some y) →
      findSessionIdForPaneNode d y = .ok (some sessionId) →
      SparedByRemaining (outline d) x remaining again sessionId
  | .windowClose windowId =>
    ∀ node, d.findNodeByBackendId (windowBackendPrefix ++ windowId) = .ok (some node) →
      ¬ (outline d).Under node.id x
  | _ => True

/-! ## The invariant of a call -/

/-- While a call runs that spares `x`, the nodes above it are where they were in `O`, and it has
what the artifact `n` had. -/
structure Guarded (O : Outline Projects) (x : Nat) (n : Node) (d : Document) : Prop where
  valid : Valid d
  branch : O.SameBranch (outline d) x
  kept : ∃ m, d.lookup x = some m ∧ SameArtifact n m

theorem Guarded.start {d : Document} (hv : Valid d) {x : Nat} {n : Node} (hx : d.lookup x = some n) :
    Guarded (outline d) x n d := ⟨hv, .refl _ x, n, hx, .refl n⟩

/-- Code on one document that keeps the artifact. -/
abbrev Guards {α : Type} (O : Outline Projects) (x : Nat) (n : Node) (m : DocM α) : Prop :=
  Action.Keeps (Guarded O x n) m

variable {O : Outline Projects} {x : Nat} {n : Node}

/-- A change that keeps the branch and the artifact. -/
theorem Guarded.next {d d' : Document} (h : Guarded O x n d) (hv : Valid d')
    (hbranch : ∀ a, O.Under a x → outline d' a = outline d a)
    (hkept : ∀ m, d.lookup x = some m → ∃ m', d'.lookup x = some m' ∧ SameArtifact m m') :
    Guarded O x n d' := by
  obtain ⟨m, hm, hsame⟩ := h.kept
  obtain ⟨m', hm', hsame'⟩ := hkept m hm
  exact ⟨hv, h.branch.trans hbranch, m', hm', hsame.trans hsame'⟩

/-- A change of the document besides its nodes. -/
theorem Guarded.of_lookup {d d' : Document} (h : Guarded O x n d) (hv : Valid d')
    (hlook : ∀ y, d'.lookup y = d.lookup y) : Guarded O x n d' :=
  h.next hv (fun a _ => by rw [outline, hlook]; rfl) fun m hm =>
    ⟨m, (hlook x).trans hm, .refl m⟩

/-- An edit of one node that keeps its entry, and what an artifact has. -/
theorem Guarded.modifyNode {d : Document} (h : Guarded O x n d) {f : Node → Node}
    (hf : KeepsLinks f) (hc : ∀ m, (f m).content = m.content) {y : Nat}
    (hentry : O.Under y x → ∀ m, outlineEntry (f m) = outlineEntry m)
    (hkept : ∀ m, SameArtifact m (f m)) : Guarded O x n (d.modifyNode y f) := by
  refine h.next (h.valid.modifyNode hf hc y) (fun a ha => ?_) fun m hm => ?_
  · rw [outline_modifyNode]
    split
    · rename_i hay
      rw [funext (hentry (hay ▸ ha))]
      rfl
    · rfl
  · rw [lookup_modifyNode]
    split
    · exact ⟨f m, by rw [hm]; rfl, hkept m⟩
    · exact ⟨m, hm, .refl m⟩

theorem guards_updateKnownNode {y : Nat} {f : Node → Node} (hf : KeepsLinks f)
    (hc : ∀ m, (f m).content = m.content)
    (hentry : O.Under y x → ∀ m, outlineEntry (f m) = outlineEntry m)
    (hkept : ∀ m, SameArtifact m (f m)) : Guards O x n (updateKnownNode y f) := by
  refine Action.keeps_of fun d h => ?_
  cases hy : d.lookup y with
  | none =>
      rw [updateKnownNode_of_missing hy]
      exact h
  | some m =>
      rw [updateKnownNode_of_lookup hy]
      exact h.modifyNode hf hc hentry hkept

theorem guards_setNodeTitle (y : Nat) (title : Bytes) : Guards O x n (setNodeTitle y title) :=
  guards_updateKnownNode (keepsLinks_setTitle title) (fun _ => rfl) (fun _ _ => rfl) fun _ =>
    ⟨rfl, rfl, rfl⟩

theorem guards_setFollowTail (y : Nat) (enabled : Bool) : Guards O x n (setFollowTail y enabled) :=
  guards_updateKnownNode ⟨fun _ => rfl, fun _ => rfl, fun _ => rfl, fun _ => rfl, fun _ => rfl⟩
    (fun _ => rfl) (fun _ _ => rfl) fun _ => ⟨rfl, rfl, rfl⟩

/-! ### Content of other nodes -/

/-- A write of the content of `y`, as `replaceNodeContentWithAccounting` and the append make it. -/
def WritesContent {α : Type} (y : Nat) (m : DocM α) : Prop :=
  ∀ d, (m d).2 = d ∨ ∃ f bytes, (∀ k : Node, outlineEntry (f k) = outlineEntry k) ∧
    (m d).2 = d.withContent y f bytes

theorem writesContent_replace (y : Nat) (content : Bytes) :
    WritesContent y (replaceStableNodeContent y content) := by
  intro d
  rw [replaceStableNodeContent, Action.bind_apply, Action.view_apply]
  cases hy : d.lookup y with
  | none =>
      rw [deref, hy]
      exact .inl rfl
  | some m =>
      rw [deref_of_lookup hy, Action.next_ok]
      by_cases hsame : m.content = content
      · rw [if_pos hsame]
        exact .inl rfl
      · rw [if_neg hsame, Action.bind_apply, setContent_eq hy]
        split
        · exact .inr ⟨(·.setContent content), _, fun _ => rfl, rfl⟩
        · exact .inl rfl

theorem writesContent_append (y : Nat) (chunk : Bytes) :
    WritesContent y (appendTextToStableNode y chunk) := by
  intro d
  cases hy : d.lookup y with
  | none =>
      refine .inl ?_
      rw [appendTextToStableNode, Action.bind_apply, Action.view_apply]
      cases d.reserveAdditionalContentBytes chunk.length with
      | error e => rfl
      | ok _ =>
          rw [Action.next_ok, Action.bind_apply, Action.view_apply, deref, hy]
          rfl
  | some m =>
      rw [appendText_eq hy]
      split
      · exact .inr ⟨(·.appendContent chunk), _, fun _ => rfl, rfl⟩
      · exact .inl rfl

section Writing

variable {α : Type} {y : Nat} {m : DocM α} (h : WritesContent y m)
include h

theorem WritesContent.outline_eq (d : Document) : outline (m d).2 = outline d := by
  rcases h d with heq | ⟨f, bytes, hentry, heq⟩
  · rw [heq]
  · rw [heq]
    funext a
    show outline (d.modifyNode y f) a = outline d a
    rw [outline_modifyNode, funext hentry]
    split <;> rfl

theorem WritesContent.lookup_of_ne {d : Document} {a : Nat} (ha : a ≠ y) :
    (m d).2.lookup a = d.lookup a := by
  rcases h d with heq | ⟨f, bytes, hentry, heq⟩
  · rw [heq]
  · rw [heq]
    show (d.modifyNode y f).lookup a = d.lookup a
    rw [lookup_modifyNode, if_neg ha]

end Writing

theorem guards_writesContent {α : Type} {y : Nat} {m : DocM α} (hm : Settled m)
    (hwrites : WritesContent y m) (hy : y ≠ x) : Guards O x n m := by
  refine Action.keeps_of fun d h => ?_
  refine h.next (hm d h.valid).1 (fun a _ => by rw [hwrites.outline_eq]) fun k hk =>
    ⟨k, ?_, .refl k⟩
  rw [hwrites.lookup_of_ne hy.symm, hk]

/-! ### A new node -/

theorem Guarded.attached {d : Document} (h : Guarded O x n d) {p : Nat} {node : Node}
    (ha : Attachable d p node) (hempty : node.content = []) :
    Guarded O x n (d.bumped.attached p node) := by
  have hlook := ha.lookup_bumped h.valid.shape
  have hfresh := ha.fresh h.valid.shape
  obtain ⟨m, hm, -⟩ := h.kept
  have hold : ∀ {a k}, d.lookup a = some k → ∃ k', (d.bumped.attached p node).lookup a = some k' ∧
      outlineEntry k' = outlineEntry k ∧ SameArtifact k k' := by
    intro a k hk
    have hne : a ≠ node.id := by
      rintro rfl
      rw [hfresh] at hk
      cases hk
    rw [hlook, if_neg hne, hk]
    split
    · exact ⟨_, rfl, rfl, ⟨rfl, rfl, rfl⟩⟩
    · exact ⟨k, rfl, rfl, .refl k⟩
  refine h.next (h.valid.attached ha hempty) (fun a hax => ?_) fun k hk => ?_
  · -- What is above `x` is there, so it is not the new node.
    have hx : outline d x = some (outlineEntry m) := outline_of_lookup hm
    have hthere : ∃ e, outline d a = some e :=
      (wellFormed_outline h.valid).live_of_under (h.branch.under_iff.mpr hax) hx
    obtain ⟨e, he⟩ := hthere
    obtain ⟨k, hk, rfl⟩ := outline_eq_some.mp he
    obtain ⟨k', hk', hentry, -⟩ := hold hk
    rw [outline_of_lookup hk', hentry, he]
  · obtain ⟨k', hk', -, hsame⟩ := hold hk
    exact ⟨k', hk', hsame⟩

theorem guards_appendNode (p : Nat) (kind : NodeKind) (title : Bytes) (source : Source) :
    Guards O x n (Document.appendNode p kind title source) := by
  refine Action.keeps_of fun d h => ?_
  rcases appendNode_cases h.valid.shape p kind title source with
    ⟨-, hp, name, -, heq⟩ | ⟨-, -, heq⟩ | ⟨-, heq⟩
  · rw [heq]
    exact h.attached (attachable_prepared hp kind title source name) rfl
  · rw [heq]
    exact h.of_lookup h.valid.bumped fun _ => rfl
  · rw [heq]
    exact h

/-! ### Other nodes go -/

theorem Guarded.pruned {d : Document} (h : Guarded O x n d) {p y : Nat} {postorder : List Nat}
    (hr : Removable d p y postorder) {total : Nat} (hv : Valid (d.pruned p y postorder total))
    (hout : ∀ a, O.Under a x → a ∉ postorder) : Guarded O x n (d.pruned p y postorder total) := by
  refine h.next hv (fun a ha => ?_) fun m hm => ?_
  · rw [outline_pruned hr]
    exact Outline.drop_of_notMem (hout a ha)
  · rw [hr.lookup_pruned, if_neg (hout x (O.under_self x)), hm]
    refine ⟨_, rfl, ?_⟩
    split <;> exact ⟨rfl, rfl, rfl⟩

/-- A leaf other than `x` is not above it. -/
theorem guards_removeNode {y : Nat} (hy1 : y ≠ 1) (hyx : y ≠ x) :
    Guards O x n (Document.removeNode y) := by
  refine Action.keeps_of fun d h => ?_
  rcases removeNode_cases h.valid hy1 with ⟨m, p, hy, hleaf, hp, heq⟩ | ⟨f, heq⟩
  · have hpost : [y].Perm (h.valid.shape.forest.postorder y) := by
      rw [h.valid.shape.postorder_leaf hy hleaf]
    obtain ⟨hr, -, -, hvalid⟩ := h.valid.removal hy hp hpost
    rw [heq]
    refine h.pruned hr hvalid fun a ha hmem => ?_
    rw [List.mem_singleton.mp hmem, ← h.branch.under_iff] at ha
    rcases Outline.under_iff.mp ha with hxy | ⟨c, hc, -⟩
    · exact hyx hxy.symm
    · have hchild := (mem_children_iff h.valid hy).mpr hc
      rw [hleaf] at hchild
      cases hchild
  · rw [heq]
    exact h

/-- What a removal lists lies below the node. -/
theorem under_of_mem_postorder {d : Document} (hv : Valid d) {y a : Nat}
    (ha : a ∈ hv.shape.forest.postorder y) : (outline d).Under y a := by
  have hbelow := (Forest.mem_postorder _).mp ha
  induction hbelow with
  | refl => exact (outline d).under_self y
  | tail hq hc ih =>
      obtain ⟨m, hm, hmem⟩ := mem_childrenOf.mp hc
      exact (ih ((Forest.mem_postorder _).mpr hq)).child ((mem_children_iff hv hm).mp hmem)

/-- A tree that does not hold `x` may go as a whole. -/
theorem Guarded.removed {d : Document} (h : Guarded O x n d) {p y : Nat} {m : Node}
    (hy : d.lookup y = some m) (hp : m.parentId = some p) {postorder : List Nat}
    (hpost : postorder.Perm (h.valid.shape.forest.postorder y)) (hspare : ¬ O.Under y x) :
    Guarded O x n (d.pruned p y postorder (postorder.map d.contentLength).sum) := by
  obtain ⟨hr, -, -, hvalid⟩ := h.valid.removal hy hp hpost
  refine h.pruned hr hvalid fun a ha hmem => hspare ?_
  have hya := under_of_mem_postorder h.valid (hpost.mem_iff.mp hmem)
  exact h.branch.under_iff.mp (hya.trans (h.branch.under_iff.mpr ha))

theorem guards_removeSubtree {y : Nat} (hspare : ¬ O.Under y x) :
    Guards O x n (Document.removeSubtree y) := by
  refine Action.keeps_of fun d h => ?_
  rcases removeSubtree_cases h.valid y with ⟨m, p, hy, hp, heq⟩ | ⟨f, heq⟩
  · rw [heq]
    exact h.removed hy hp (List.Perm.refl _) hspare
  · rw [heq]
    exact h

theorem guards_view {α : Type} (f : Document → Except Failure α) :
    Guards O x n (Action.view f) := Action.advances_view Action.always_progress f

theorem guards_pure {α : Type} (a : α) : Guards O x n (pure a) :=
  Action.advances_pure Action.always_progress a

theorem guards_bind {α β : Type} {m : DocM α} {k : α → DocM β} (hm : Guards O x n m)
    (hk : ∀ a, Guards O x n (k a)) : Guards O x n (m >>= k) := hm.bind Action.always_progress hk

/-- Children of a node that is not above `x` are not above it. -/
theorem Guarded.child_spared {d : Document} (h : Guarded O x n d) {y c : Nat} {m : Node}
    (hy : d.lookup y = some m) (hc : c ∈ m.children) (hspare : ¬ O.Under y x) : ¬ O.Under c x := by
  intro hcx
  have hchild := (mem_children_iff h.valid hy).mp hc
  exact hspare (((h.branch.child_iff hcx).mp hchild).under.trans hcx)

theorem guards_removeProjection (fuel : Nat) {y : Nat} (hy1 : y ≠ 1) (hspare : ¬ O.Under y x) :
    Guards O x n (removeProjection fuel y) := by
  induction fuel generalizing y with
  | zero => exact Action.advances_throw Action.always_progress _
  | succ fuel ih =>
      refine (guards_view _).bind_of Action.always_progress fun d m d' h hview h' => ?_
      have hy : d.lookup y = some m := nodeOr_eq_ok.mp (congrArg Prod.fst hview)
      have hyx : y ≠ x := fun heq => hspare (heq ▸ O.under_self y)
      have hchildren : Guards O x n (m.children.forM (removeProjection fuel)) :=
        Action.Advances.forM_of Action.always_progress fun c hc =>
          ih (child_ne_root h.valid.shape hy hc) (h.child_spared hy hc hspare)
      exact guards_bind hchildren (fun _ => guards_removeNode hy1 hyx) d' h'

theorem guards_removeSubtreeNodes {y : Nat} (hy1 : y ≠ 1) (hspare : ¬ O.Under y x) :
    Guards O x n (removeSubtreeNodes y) :=
  guards_bind (Action.keeps_of fun _ h => h) fun _ => guards_removeProjection _ hy1 hspare

/-! ### Reconciliation -/

/-- A node that was not there is not above `x`. -/
theorem Guarded.fresh_spared {d : Document} (h : Guarded O x n d) {y : Nat}
    (hy : d.lookup y = none) : ¬ O.Under y x := by
  intro hyx
  obtain ⟨m, hm, -⟩ := h.kept
  obtain ⟨e, he⟩ := (wellFormed_outline h.valid).live_of_under (h.branch.under_iff.mpr hyx)
    (outline_of_lookup hm)
  rw [outline_eq_none.mpr hy] at he
  cases he

theorem guards_ensureSubdocument (p : Nat) (bid title : Bytes) :
    Guards O x n (ensureSubdocument p bid title) := by
  refine guards_bind (guards_view _) fun found => ?_
  cases found with
  | some y => exact guards_bind (guards_setNodeTitle y title) fun _ => guards_pure y
  | none =>
      refine Action.Advances.bind_of Action.always_progress (guards_appendNode p _ title _) ?_
      intro d y d' h happend h'
      obtain ⟨-, hfresh, -⟩ := appendNode_outline h.valid happend
      have hset : Guards O x n (setNodeBackendId y bid) :=
        guards_updateKnownNode (keepsLinks_setBackendId bid) (fun _ => rfl)
          (fun hyx => absurd hyx (h.fresh_spared hfresh)) fun _ => ⟨rfl, rfl, rfl⟩
      exact guards_bind hset (fun _ => guards_pure y) d' h'

/-- The node has been frozen. -/
def IsArtifact (n : Node) : Prop := ∃ artifact, n.source = .terminalArtifact artifact

theorem IsArtifact.of_same {n m : Node} (h : IsArtifact n) (hsame : SameArtifact n m) :
    IsArtifact m := by
  obtain ⟨artifact, hsource⟩ := h
  exact ⟨artifact, hsame.source.trans hsource⟩

theorem IsArtifact.pane_none {n : Node} (h : IsArtifact n) : ttyPaneId n.source = none := by
  obtain ⟨artifact, hsource⟩ := h
  rw [hsource]
  rfl

/-- A node of a pane is not the artifact. -/
theorem Guarded.pane_ne {d : Document} (h : Guarded O x n d) (hn : IsArtifact n) {y : Nat}
    {m : Node} (hy : d.lookup y = some m) {paneId : Bytes}
    (hpane : ttyPaneId m.source = some paneId) : y ≠ x := by
  rintro rfl
  obtain ⟨k, hk, hsame⟩ := h.kept
  rw [hy] at hk
  cases hk
  rw [(hn.of_same hsame).pane_none] at hpane
  cases hpane

theorem guards_ensurePaneNode (hn : IsArtifact n) (w : Nat) (snapshot : PaneSnapshot) :
    Guards O x n (ensurePaneNode w snapshot) := by
  refine Action.keeps_of fun d h => ?_
  have hvalid := (ensurePaneNode_settled w snapshot d h.valid).1
  simp only [ensurePaneNode] at hvalid ⊢
  rw [Action.bind_apply, Action.view_apply] at hvalid ⊢
  rcases searchChildren_cases h.valid w (isLeafOf snapshot.paneId) (·.pane = some snapshot.paneId)
      (fun _ => isLeafOf_iff) with ⟨c, hc, -, hhas⟩ | ⟨hc, -⟩
  · obtain ⟨m, hm, hpane⟩ := has_outline.mp hhas
    have hcx : c ≠ x := h.pane_ne hn hm (projectedPane_eq_some.mp hpane).2
    obtain ⟨hrun, hout⟩ := paneEdit_outline hm hpane
      (if snapshot.paneTitle ≠ [] then snapshot.paneTitle else snapshot.paneId)
    rw [findPaneChild_eq, hc, Action.next_ok] at hvalid ⊢
    simp only [hrun] at hvalid ⊢
    refine h.next hvalid (fun a _ => by rw [hout]) fun k hk => ⟨k, ?_, .refl k⟩
    rw [lookup_modifyNode, if_neg hcx.symm, lookup_modifyNode, if_neg hcx.symm, hk]
  · cases hfind : findPaneChild d w snapshot.paneId with
    | error e => exact h
    | ok found =>
        cases found with
        | some c => exact absurd hfind (hc c)
        | none => exact (guards_appendNode w _ _ _ d h).1

theorem guards_ensureTurn (hn : IsArtifact n) (s : Nat) (desired : List Bytes)
    (snapshot : PaneSnapshot) : Guards O x n (ensureTurn s desired snapshot) :=
  guards_bind (guards_ensureSubdocument s _ _) fun w =>
    guards_bind (guards_ensurePaneNode hn w snapshot) fun _ => guards_pure _

theorem guards_prunePane {snapshots : List PaneSnapshot} {c : Nat} (hc1 : c ≠ 1)
    (hspare : ∀ paneId, O.Under c x → HasPane O paneId c → paneId ∈ snapshots.map (·.paneId)) :
    Guards O x n (prunePane snapshots c) := by
  refine (guards_view _).bind_of Action.always_progress fun d found d' h hfound h' => ?_
  cases found with
  | none => exact guards_pure _ d' h'
  | some k =>
      have hk : d.lookup c = some k := findNode_eq_some (congrArg Prod.fst hfound)
      by_cases hkind : k.kind = .ttyLeaf
      · simp only [if_pos hkind]
        cases hpane : ttyPaneId k.source with
        | none => exact guards_pure _ d' h'
        | some paneId =>
            by_cases hany : (snapshots.any (·.paneId == paneId)) = true
            · simp only [if_pos hany]
              exact guards_pure _ d' h'
            · simp only [if_neg hany]
              refine guards_removeSubtreeNodes hc1 (fun hcx => hany ?_) d' h'
              have hhas : HasPane O paneId c := (h.branch.has_iff hcx).mp
                (has_outline.mpr ⟨k, hk, projectedPane_eq_some.mpr ⟨hkind, hpane⟩⟩)
              exact any_paneId_iff.mpr (hspare paneId hcx hhas)
      · simp only [if_neg hkind]
        exact guards_pure _ d' h'

/-- A pane that is pruned below a kept window is stale. -/
theorem guards_pruneMissingPanes {snapshots : List PaneSnapshot} {s q : Nat} {windowId : Bytes}
    (hspare : O.Under q x → O.Child s q ∧ SparedBelow O x snapshots s)
    (hwindow : O.Under q x → HasWindow O windowId q)
    (hmem : windowId ∈ snapshots.map (·.windowId)) :
    Guards O x n (pruneMissingPanes q snapshots) := by
  refine (guards_view _).bind_of Action.always_progress fun d m d' h hview h' => ?_
  have hq : d.lookup q = some m := nodeOr_eq_ok.mp (congrArg Prod.fst hview)
  have hturns : Guards O x n (m.children.forM (prunePane snapshots)) := by
    refine Action.Advances.forM_of Action.always_progress fun c hc => ?_
    have hchild := (mem_children_iff h.valid hq).mp hc
    refine guards_prunePane (child_ne_root h.valid.shape hq hc) fun paneId hcx hpane => ?_
    by_contra hnot
    have hcq : O.Child q c := (h.branch.child_iff hcx).mp hchild
    have hqx : O.Under q x := hcq.under.trans hcx
    obtain ⟨hs, hbelow⟩ := hspare hqx
    exact hbelow c (.inr ⟨q, windowId, paneId, hs, hwindow hqx, hmem, hcq, hpane, hnot⟩) hcx
  exact hturns d' h'

/-- A window that is pruned is stale, and so is a pane that is pruned below one that is kept. -/
theorem guards_pruneTurn {snapshots : List PaneSnapshot} {s q : Nat} {ids : List Bytes}
    (hids : ∀ w, w ∈ ids ↔ w ∈ snapshots.map (·.windowId)) (hq1 : q ≠ 1)
    (hspare : O.Under q x → O.Child s q ∧ SparedBelow O x snapshots s) :
    Guards O x n (pruneTurn ids snapshots q) := by
  refine (guards_view _).bind_of Action.always_progress fun d found d' h hfound h' => ?_
  cases found with
  | none => exact guards_pure _ d' h'
  | some k =>
      have hk : d.lookup q = some k := findNode_eq_some (congrArg Prod.fst hfound)
      cases hwindow : windowProjectionId k with
      | none =>
          simp only [hwindow]
          exact guards_pure _ d' h'
      | some windowId =>
          have hhas : O.Under q x → HasWindow O windowId q := fun hqx =>
            (h.branch.has_iff hqx).mp (has_outline.mpr ⟨k, hk, hwindow⟩)
          simp only [hwindow]
          by_cases hmem : windowId ∈ ids
          · rw [if_pos hmem]
            exact guards_pruneMissingPanes hspare hhas ((hids windowId).mp hmem) d' h'
          · rw [if_neg hmem]
            have hnot : ¬ O.Under q x := by
              intro hqx
              obtain ⟨hs, hbelow⟩ := hspare hqx
              exact hbelow q
                (.inl ⟨windowId, hs, hhas hqx, fun hin => hmem ((hids windowId).mpr hin)⟩) hqx
            exact guards_removeSubtreeNodes hq1 hnot d' h'

/-- A pass that spares `x` below the session node it finds. -/
theorem guards_reconcileSessionSnapshots (hn : IsArtifact n) {p : Nat}
    {snapshots : List PaneSnapshot}
    (hspare : ∀ first ∈ snapshots.head?, ∀ s, O.Child p s →
      O.Has (·.session = some first.sessionId) s → SparedBelow O x snapshots s) :
    Guards O x n (reconcileSessionSnapshots p snapshots) := by
  cases snapshots with
  | nil => exact Action.advances_throw Action.always_progress _
  | cons first rest =>
      by_cases hmixed : (rest.any fun snapshot => snapshot.sessionId ≠ first.sessionId) = true
      · rw [reconcileSessionSnapshots, if_pos hmixed]
        exact Action.advances_throw_bind Action.always_progress _ _
      rw [reconcileSessionSnapshots_eq hmixed]
      refine (guards_ensureSubdocument p _ _).bind_of Action.always_progress
        fun d s d₁ h hsession h₁ => ?_
      obtain ⟨-, hensured⟩ := ensureSubdocument_outline h.valid hsession
        (·.session = some first.sessionId) fun _ => projectedSession_eq_some
      have hlabel : (subdocumentProjection (sessionBackendPrefix ++ first.sessionId)).session
          = some first.sessionId :=
        (@backendSuffix_eq_some _ sessionBackendPrefix _).mpr rfl
      obtain ⟨hps, hhas⟩ := hensured.there hlabel
      refine (Action.Advances.foldlM Action.always_progress
        (fun desired snapshot => guards_ensureTurn hn s desired snapshot) (first :: rest)
        []).bind_of Action.always_progress (fun d₂ ids d₃ h₂ hloop h₃ => ?_) d₁ h₁
      obtain ⟨-, -, hids⟩ := ensure_loop (first :: rest) (fun _ hmem => hmem) h₂.valid
        (.start (wellFormed_outline h₂.valid) s (first :: rest)) hloop
      have hids' : ∀ w, w ∈ ids ↔ w ∈ (first :: rest).map (·.windowId) := fun w => by
        rw [hids]
        simp
      refine (guards_view _).bind_of Action.always_progress (fun d₄ k d₅ h₄ hview h₅ => ?_) d₃ h₃
      have hs : d₄.lookup s = some k := nodeOr_eq_ok.mp (congrArg Prod.fst hview)
      refine guards_bind (Action.Advances.forM_of Action.always_progress fun q hq => ?_)
        (fun _ => guards_pure s) d₅ h₅
      have hchild := (mem_children_iff h₄.valid hs).mp hq
      refine guards_pruneTurn (s := s) hids' (child_ne_root h₄.valid.shape hs hq) fun hqx => ?_
      -- A session node above `x` was there before the pass.
      have hsq : O.Child s q := (h₄.branch.child_iff hqx).mp hchild
      have hsx : O.Under s x := hsq.under.trans hqx
      exact ⟨hsq, hspare first (by simp) s ((h₁.branch.child_iff hsx).mp hps)
        ((h₁.branch.has_iff hsx).mp hhas)⟩

/-! ### Sessions -/

/-- What `findSessionProjectionNode` finds projects the session. -/
theorem findSessionProjectionNode_has {d : Document} (hv : Valid d) {sessionId : Bytes} {y : Nat}
    (hy : findSessionProjectionNode d sessionId = .ok (some y)) :
    (outline d).Has (·.session = some sessionId) y := by
  rw [findSessionProjectionNode] at hy
  obtain ⟨found, hchild, hy⟩ := bind_eq_ok.mp hy
  cases found with
  | some c =>
      cases hy
      rcases searchChildren_cases hv d.rootNodeId
          (isSubdocumentOf (sessionBackendPrefix ++ sessionId)) (·.session = some sessionId)
          (fun _ => isSubdocumentOf_iff.trans projectedSession_eq_some.symm) with
        ⟨c', hc', -, hhas⟩ | ⟨hnone, -⟩
      · rw [findChildByBackendId_eq, hc'] at hchild
        cases hchild
        exact hhas
      · exact absurd hchild (hnone y)
  | none =>
      simp only [hv.shape.walkPreorderWith_eq] at hy
      split at hy
      · rename_i hfound
        cases hy
        obtain ⟨z, m, hz, hhit, hid⟩ := search_found _ hfound
        rw [hv.shape.id_eq hz] at hid
        subst hid
        exact has_outline.mpr ⟨m, hz, projectedSession_eq_some.mpr hhit⟩
      · cases hy
      · cases hy
      · cases hy

theorem guards_removeSessionProjection {sessionId : Bytes}
    (hspare : SparedByRemoval O x sessionId) :
    Guards O x n (removeSessionProjection sessionId) := by
  refine (guards_view _).bind_of Action.always_progress fun d found d' h hview h' => ?_
  cases found with
  | none => exact guards_pure _ d' h'
  | some y =>
      have hfound := congrArg Prod.fst hview
      have hhas := findSessionProjectionNode_has h.valid hfound
      have hnot : ¬ O.Under y x := fun hyx => hspare y ((h.branch.has_iff hyx).mp hhas) hyx
      exact guards_bind (guards_removeSubtreeNodes
        (findSessionProjectionNode_ne_root h.valid.shape hfound) hnot) (fun _ => guards_pure _) d' h'

theorem guards_reconcileProjection (hn : IsArtifact n) {snapshots : List PaneSnapshot}
    (hspare : ∀ s sessionId, O.Has (·.session = some sessionId) s → O.Under s x →
      let ofSession := snapshots.filter fun snapshot => snapshot.sessionId == sessionId
      ofSession ≠ [] ∧ SparedBelow O x ofSession s)
    (projection : SessionProjectionRef) :
    Guards O x n (Sequential.reconcileProjection snapshots projection) := by
  unfold Sequential.reconcileProjection
  simp only
  split
  · rename_i hempty
    have hremove : SparedByRemoval O x projection.sessionId :=
      fun s hs hsx => (hspare s projection.sessionId hs hsx).1 hempty
    exact guards_bind (guards_removeSessionProjection hremove) fun _ => guards_pure _
  · refine guards_bind (guards_reconcileSessionSnapshots hn fun first hfirst s _ hs c hc hcx => ?_)
      fun _ => guards_pure _
    have hmem := List.mem_of_mem_head? hfirst
    have hid : first.sessionId = projection.sessionId := by simpa using (List.mem_filter.mp hmem).2
    rw [hid] at hs
    exact (hspare s projection.sessionId hs (hc.under.trans hcx)).2 c hc hcx

/-! ### Other changes -/

/-- A change of what a document has besides its nodes. -/
theorem guards_of_lookup {α : Type} {m : DocM α} (hm : Settled m)
    (hlook : ∀ d y, (m d).2.lookup y = d.lookup y) : Guards O x n m :=
  Action.keeps_of fun d h => h.of_lookup (hm d h.valid).1 (hlook d)

/-! ## Each call -/

/-- Code on an entry that keeps the artifact. -/
abbrev GuardsEntry {α : Type} (O : Outline Projects) (x : Nat) (n : Node) (f : EntryAction α) :
    Prop :=
  Action.Keeps (fun e : DocumentEntry => Guarded O x n e.document) f

theorem guardsEntry_onDocument {α : Type} {m : DocM α} (hm : Guards O x n m) :
    GuardsEntry O x n (DocumentEntry.onDocument m) :=
  Action.keeps_of fun e h => (hm e.document h).1

theorem guardsEntry_view {α : Type} (f : DocumentEntry → Except Failure α) :
    GuardsEntry O x n (Action.view f) := Action.advances_view Action.always_progress f

theorem guardsEntry_pure {α : Type} (a : α) : GuardsEntry O x n (pure a) :=
  Action.advances_pure Action.always_progress a

theorem guardsEntry_throw {α : Type} (failure : Failure) :
    GuardsEntry O x n (throw failure : EntryAction α) :=
  Action.advances_throw Action.always_progress failure

theorem guardsEntry_bind {α β : Type} {f : EntryAction α} {k : α → EntryAction β}
    (hf : GuardsEntry O x n f) (hk : ∀ a, GuardsEntry O x n (k a)) :
    GuardsEntry O x n (f >>= k) := hf.bind Action.always_progress hk

theorem guardsEntry_effect {α : Type} {f : EntryAction α} (hf : GuardsEntry O x n f) :
    GuardsEntry O x n (effect f) := guardsEntry_bind hf fun _ => guardsEntry_pure ()

theorem guardsEntry_markTopologyChanged :
    GuardsEntry O x n (modify (·.markTopologyChanged) : EntryAction PUnit) :=
  Action.keeps_of fun _ h => h

namespace Sequential

theorem guards_onTopology {α : Type} {m : DocM α} (hm : Guards O x n m) :
    GuardsEntry O x n (onTopology m) :=
  guardsEntry_bind (guardsEntry_onDocument hm) fun _ =>
    guardsEntry_bind guardsEntry_markTopologyChanged fun _ => guardsEntry_pure _

theorem guards_replaceContent {y : Nat} (hy : y ≠ x) (content : Bytes) :
    GuardsEntry O x n (replaceNodeContentWithAccounting y content) :=
  guardsEntry_bind (guardsEntry_view _) fun _ => guardsEntry_onDocument
    (guards_writesContent (settled_replaceStableNodeContent y content)
      (writesContent_replace y content) hy)

theorem guards_appendText {y : Nat} (hy : y ≠ x) (chunk : Bytes) :
    GuardsEntry O x n (DocumentEntry.onDocument (appendTextToStableNode y chunk)) :=
  guardsEntry_onDocument (guards_writesContent (appendTextToStableNode_settled y chunk)
    (writesContent_append y chunk) hy)

theorem guards_setNodeContentFromSource (env : Env) {y : Nat} (hy : y ≠ x) (content : Bytes) :
    GuardsEntry O x n (setNodeContentFromSource env y content) := by
  refine guardsEntry_bind (guards_replaceContent hy content) fun changed => ?_
  cases changed with
  | true => exact guardsEntry_view _
  | false => exact guardsEntry_pure ()

/-- An artifact has no source to be refreshed from. -/
theorem guards_refreshSource (hn : IsArtifact n) (env : Env) (visit y : Nat) :
    GuardsEntry O x n (refreshSource env visit y) := by
  refine (guardsEntry_view _).bind_of Action.always_progress fun e found e' h hview h' => ?_
  by_cases hy : y = x
  · subst hy
    obtain ⟨m, hm, hsame⟩ := h.kept
    have hfound : found = some m := by
      have heq : e.document.findNode y = .ok found := congrArg Prod.fst hview
      rw [findNode_of_ne_zero (lookup_pos hm), hm] at heq
      exact (Except.ok.inj heq).symm
    obtain ⟨artifact, hsource⟩ := hn.of_same hsame
    have hnone : (found.bind fun node => refreshedContent env visit y node.source) = none := by
      rw [hfound, Option.bind_some, hsource]
      rfl
    simp only [hnone]
    exact guardsEntry_pure _ e' h'
  · cases found.bind fun node => refreshedContent env visit y node.source with
    | none => exact guardsEntry_pure _ e' h'
    | some content => exact guards_setNodeContentFromSource env hy content e' h'

theorem guards_refreshSourcesForDocument (hn : IsArtifact n) (env : Env) (visit : Nat) :
    GuardsEntry O x n (refreshSourcesForDocument env visit) :=
  guardsEntry_bind (guardsEntry_view _) fun _ =>
    Action.Advances.forM_of Action.always_progress fun y _ => guards_refreshSource hn env visit y

/-! ### Calls for tmux -/

theorem guards_rebuildTmuxSessionProjection (hn : IsArtifact n) (env : Env) (visit : Nat) {p : Nat}
    {snapshots : List PaneSnapshot}
    (hspare : ∀ first ∈ snapshots.head?, ∀ s, O.Child p s →
      O.Has (·.session = some first.sessionId) s → SparedBelow O x snapshots s) :
    GuardsEntry O x n (rebuildTmuxSessionProjection env visit p snapshots) :=
  guardsEntry_bind (guards_onTopology (guards_reconcileSessionSnapshots hn hspare)) fun _ =>
    guardsEntry_bind (guards_refreshSourcesForDocument hn env visit) fun _ =>
      guardsEntry_bind (guardsEntry_view _) fun _ => guardsEntry_pure _

theorem guards_rebuildTmuxSessionProjectionForPane (hn : IsArtifact n) (env : Env) (visit p : Nat)
    {snapshots : List PaneSnapshot} {paneId : Bytes} (hspare : SparedByPane O x snapshots paneId) :
    GuardsEntry O x n (rebuildTmuxSessionProjectionForPane env visit p snapshots paneId) := by
  unfold rebuildTmuxSessionProjectionForPane
  cases hfind : snapshots.find? fun snapshot => snapshot.paneId == paneId with
  | none => exact guardsEntry_throw _
  | some snapshot =>
      have hsession := hspare snapshot hfind
      refine guardsEntry_bind (guardsEntry_view _) fun parentId => ?_
      refine guardsEntry_bind (guards_rebuildTmuxSessionProjection hn env visit ?_) fun _ => ?_
      · intro first hfirst s _ hs
        have hmem := List.mem_of_mem_head? hfirst
        have hid : first.sessionId = snapshot.sessionId := by
          simpa using (List.mem_filter.mp hmem).2
        exact hsession s (hid ▸ hs)
      · refine guardsEntry_bind (guardsEntry_view _) fun nodeId => ?_
        cases nodeId with
        | none => exact guardsEntry_throw _
        | some y => exact guardsEntry_pure y

theorem guards_reconcileTmuxState (hn : IsArtifact n) (env : Env) (visit : Nat)
    {snapshots : List PaneSnapshot}
    (hspare : ∀ s sessionId, O.Has (·.session = some sessionId) s → O.Under s x →
      let ofSession := snapshots.filter fun snapshot => snapshot.sessionId == sessionId
      ofSession ≠ [] ∧ SparedBelow O x ofSession s) :
    GuardsEntry O x n (reconcileTmuxState env visit snapshots) := by
  refine guardsEntry_bind (guards_onTopology ?_) fun _ =>
    guards_refreshSourcesForDocument hn env visit
  exact guards_bind (guards_view _) fun projections =>
    Action.Advances.forM_of Action.always_progress fun projection _ =>
      guards_reconcileProjection hn hspare projection

/-- The node that a pane id leads to shows the pane, so it is not the artifact. -/
theorem guards_onPane {α : Type} (hn : IsArtifact n) (paneId : Bytes)
    {k : Option Nat → EntryAction α} (hnone : GuardsEntry O x n (k none))
    (hsome : ∀ y, y ≠ x → GuardsEntry O x n (k (some y))) :
    GuardsEntry O x n (Action.view (fun e => findNodeIdByPaneId e.document paneId) >>= k) := by
  refine (guardsEntry_view _).bind_of Action.always_progress fun e found e' h hview h' => ?_
  cases found with
  | none => exact hnone e' h'
  | some y =>
      obtain ⟨m, hm, hpane⟩ := findNodeIdByPaneId_some (congrArg Prod.fst hview)
      exact hsome y (h.pane_ne hn hm hpane) e' h'

theorem guards_appendTmuxPaneOutput (hn : IsArtifact n) (env : Env) (paneId normalized : Bytes) :
    GuardsEntry O x n (appendTmuxPaneOutput env paneId normalized) := by
  refine guards_onPane hn paneId (guardsEntry_throw _) fun y hy => ?_
  refine guardsEntry_bind (guardsEntry_view _) fun node => ?_
  split
  · exact guardsEntry_pure _
  · exact guardsEntry_bind (guards_appendText hy normalized) fun _ =>
      guardsEntry_bind (guardsEntry_view _) fun _ => guardsEntry_view _

theorem guards_captureTmuxPane (hn : IsArtifact n) (env : Env) (paneId capture : Bytes) :
    GuardsEntry O x n (captureTmuxPane env paneId capture) := by
  refine guards_onPane hn paneId (guardsEntry_pure ()) fun y hy => ?_
  refine guardsEntry_bind (guardsEntry_view _) fun node => ?_
  split
  · exact guards_setNodeContentFromSource env hy capture
  · exact guardsEntry_pure ()

theorem guards_setPaneFollowTail (hn : IsArtifact n) (env : Env) (paneId : Bytes) (enabled : Bool) :
    GuardsEntry O x n (setPaneFollowTail env paneId enabled) :=
  guards_onPane hn paneId (guardsEntry_throw _) fun y _ =>
    guardsEntry_bind (guardsEntry_onDocument (guards_setFollowTail y enabled)) fun _ =>
      guardsEntry_view _

theorem guards_tryApplyWindowRenamed (env : Env) (windowId windowName : Bytes) :
    GuardsEntry O x n (tryApplyWindowRenamed env windowId windowName) := by
  refine guardsEntry_bind (guardsEntry_view _) fun found => ?_
  cases found with
  | none => exact guardsEntry_pure _
  | some node =>
      have hedit : GuardsEntry O x n (modify fun e =>
          { e with document := e.document.modifyNode node.id (·.setTitle windowName) }) :=
        Action.keeps_of fun _ h => h.modifyNode (keepsLinks_setTitle windowName) (fun _ => rfl)
          (fun _ _ => rfl) fun _ => ⟨rfl, rfl, rfl⟩
      exact guardsEntry_bind hedit fun _ => guardsEntry_bind (guardsEntry_view _) fun _ =>
        guardsEntry_pure _

/-- What is left when an error is dropped. -/
theorem guards_dropError {α : Type} {f : EntryAction α} (hf : GuardsEntry O x n f) (a : α) :
    GuardsEntry O x n (tryCatch f fun failure =>
      match failure with
      | .error _ => pure a
      | failure => throw failure) := by
  refine hf.tryCatch Action.always_progress fun failure => ?_
  cases failure with
  | error e => exact guardsEntry_pure _
  | panic p => exact guardsEntry_throw _
  | outOfFuel => exact guardsEntry_throw _

/-- The window that a close removes is looked up in the document as it is. -/
theorem guarded_tryApplyWindowClose (env : Env) (windowId : Bytes) {e : DocumentEntry}
    (h : Guarded O x n e.document)
    (hspare : ∀ node,
      e.document.findNodeByBackendId (windowBackendPrefix ++ windowId) = .ok (some node) →
      ¬ O.Under node.id x) : Guarded O x n (tryApplyWindowClose env windowId e).2.document := by
  rw [tryApplyWindowClose, Action.bind_apply, Action.view_apply]
  rcases hfind : e.document.findNodeByBackendId (windowBackendPrefix ++ windowId) with f | found
  · exact h
  · cases found with
    | none => exact h
    | some node =>
        have hremove := guards_removeSubtree (n := n) (hspare node hfind)
        have hclose := guards_dropError (guardsEntry_bind (guardsEntry_onDocument hremove)
          fun _ => guardsEntry_pure true) false
        refine ((guardsEntry_bind hclose fun removed => ?_) e h).1
        cases removed with
        | false => exact guardsEntry_pure _
        | true =>
            exact guardsEntry_bind guardsEntry_markTopologyChanged fun _ => guardsEntry_view _

theorem guards_projectRemaining (hn : IsArtifact n) (env : Env) (visit : Nat)
    {remaining again : List PaneSnapshot} {sessionId : Bytes}
    (hspare : SparedByRemaining O x remaining again sessionId) :
    GuardsEntry O x n (projectRemaining env visit remaining again sessionId) := by
  unfold projectRemaining
  unfold SparedByRemaining at hspare
  cases hfind : remaining.find? fun snapshot => snapshot.sessionId == sessionId with
  | some surviving =>
      rw [hfind] at hspare
      exact guardsEntry_bind (guardsEntry_view _) fun root => guardsEntry_bind
        (guards_rebuildTmuxSessionProjectionForPane hn env visit root hspare) fun _ =>
          guardsEntry_pure _
  | none =>
      rw [hfind] at hspare
      exact guardsEntry_bind (guards_onTopology (guards_removeSessionProjection hspare)) fun _ =>
        guardsEntry_pure _

theorem guards_removePaneNode {y : Nat} (hy1 : y ≠ 1) (hyx : y ≠ x) :
    GuardsEntry O x n (removePaneNode y) :=
  guardsEntry_bind (guards_dropError (guardsEntry_onDocument (guards_removeNode hy1 hyx)) ())
    fun _ => guardsEntry_markTopologyChanged

/-- The pane and its session are looked up in the document as it is. -/
theorem guarded_closeTmuxPane (hn : IsArtifact n) (env : Env) (visit : Nat)
    {remaining again : List PaneSnapshot} {paneId : Bytes} {e : DocumentEntry}
    (htidy : Tidy e.document) (h : Guarded O x n e.document)
    (hspare : ∀ y sessionId, findNodeIdByPaneId e.document paneId = .ok (some y) →
      findSessionIdForPaneNode e.document y = .ok (some sessionId) →
      SparedByRemaining O x remaining again sessionId) :
    Guarded O x n (closeTmuxPane env visit remaining again paneId e).2.document := by
  have hrefresh : GuardsEntry O x n (refreshSourcesForDocument env (visit + 1)) :=
    guards_refreshSourcesForDocument hn env (visit + 1)
  rw [closeTmuxPane, Action.bind_apply, Action.view_apply]
  rcases hfind : findNodeIdByPaneId e.document paneId with f | found
  · exact h
  · rw [Action.next_ok, Action.bind_apply, Action.view_apply]
    cases found with
    | none => exact (hrefresh e h).1
    | some y =>
        obtain ⟨m, hm, hpane⟩ := findNodeIdByPaneId_some hfind
        have hremove : GuardsEntry O x n (removePaneNode y) :=
          guards_removePaneNode (ne_root_of_findNodeIdByPaneId htidy hfind)
            (h.pane_ne hn hm hpane)
        simp only
        rcases hsession : findSessionIdForPaneNode e.document y with f | sessionId
        · exact h
        · cases sessionId with
          | none => exact ((guardsEntry_bind hremove fun _ => hrefresh) e h).1
          | some s =>
              have hremaining := hspare y s hfind hsession
              exact ((guardsEntry_bind hremove fun _ =>
                guardsEntry_bind (guards_projectRemaining hn env visit hremaining) fun _ =>
                  hrefresh) e h).1

/-! ### Requests of clients -/

/-- The second half of `updateNode`: the content, and the event. -/
theorem guards_updateContent (env : Env) {y : Nat} (content : Option Bytes)
    (hspare : content = none ∨ y ≠ x) : GuardsEntry O x n (do
      if let some content := content then
        let _ ← replaceNodeContentWithAccounting y content
      notifyInvalidate env y (if content.isSome then .content else .metadata)) := by
  cases content with
  | none => exact guardsEntry_view _
  | some content =>
      have hy : y ≠ x := hspare.resolve_left (Option.some_ne_none content)
      exact guardsEntry_bind (guards_replaceContent hy content) fun _ => guardsEntry_view _

theorem guards_updateNode (env : Env) {y : Nat} (title content : Option Bytes)
    (hspare : content = none ∨ y ≠ x) : GuardsEntry O x n (updateNode env y title content) := by
  cases title with
  | none => exact guards_updateContent env content hspare
  | some title =>
      exact guardsEntry_bind (guardsEntry_onDocument (guards_setNodeTitle y title)) fun _ =>
        guards_updateContent env content hspare

theorem guards_appendTextChunk (env : Env) {y : Nat} (hy : y ≠ x) (chunk : Bytes) :
    GuardsEntry O x n (appendTextChunk env y chunk) :=
  guardsEntry_bind (guardsEntry_bind (guardsEntry_view _) fun _ => guards_appendText hy chunk)
    fun _ => guardsEntry_view _

/-- Only a tty node without a pane takes a chunk, and the artifact is none. -/
theorem guards_pushSyntheticTtyChunk (hn : IsArtifact n) (env : Env) (y : Nat) (chunk : Bytes) :
    GuardsEntry O x n (pushSyntheticTtyChunk env y chunk) := by
  refine (guardsEntry_view _).bind_of Action.always_progress fun e _ e' h hview h' => ?_
  have hy : y ≠ x := by
    rintro rfl
    obtain ⟨m, hm, hsame⟩ := h.kept
    obtain ⟨artifact, hsource⟩ := hn.of_same hsame
    have hcheck : (do isSyntheticTty (← e.document.nodeOr y .unknownNode)) = .ok () :=
      congrArg Prod.fst hview
    rw [nodeOr_of_lookup hm, ok_bind, isSyntheticTty, hsource] at hcheck
    cases hcheck
  exact guardsEntry_bind (guards_appendText hy chunk) (fun _ => guardsEntry_bind
    (guardsEntry_view _) fun _ => guardsEntry_view _) e' h'

theorem guards_appendNodeWithRuntime (documentPath : Bytes) (p : Nat) (kind : NodeKind)
    (title : Bytes) (source : Source) :
    GuardsEntry O x n (appendNodeWithRuntime documentPath p kind title source) := by
  have hcommit : GuardsEntry O x n (commitAppend p kind title source) :=
    guardsEntry_bind (guardsEntry_onDocument (guards_appendNode p kind title source)) fun _ =>
      guardsEntry_bind guardsEntry_markTopologyChanged fun _ => guardsEntry_pure _
  unfold appendNodeWithRuntime
  split
  · exact guardsEntry_bind (guardsEntry_pure _) fun _ => hcommit
  · exact guardsEntry_bind (guardsEntry_view _) fun _ => hcommit

theorem guards_appendNode (env : Env) (documentPath : Bytes) (p : Nat) (kind : NodeKind)
    (title : Bytes) : GuardsEntry O x n (appendNode env documentPath p kind title) :=
  guardsEntry_bind (guards_appendNodeWithRuntime documentPath p kind title .none) fun _ =>
    guardsEntry_bind (guardsEntry_view _) fun _ => guardsEntry_pure _

theorem guards_attachSyntheticTty (env : Env) (documentPath : Bytes) (p : Nat)
    (title sessionName : Bytes) :
    GuardsEntry O x n (attachSyntheticTty env documentPath p title sessionName) :=
  guardsEntry_bind (guards_appendNodeWithRuntime documentPath p .ttyLeaf title _) fun _ =>
    guardsEntry_bind (guardsEntry_view _) fun _ => guardsEntry_pure _

theorem guards_attachLeaf (hn : IsArtifact n) (env : Env) (documentPath : Bytes) (kind : NodeKind)
    (title : Bytes) (source : Source) :
    GuardsEntry O x n (attachLeaf env documentPath kind title source) :=
  guardsEntry_bind (guardsEntry_view _) fun root =>
    guardsEntry_bind (guards_appendNodeWithRuntime documentPath root kind title source) fun _ =>
      guardsEntry_bind (guards_refreshSourcesForDocument hn env 0) fun _ =>
        guardsEntry_bind (guardsEntry_view _) fun _ => guardsEntry_pure _

theorem guards_removeNode (env : Env) {y : Nat} (hspare : ¬ O.Under y x) :
    GuardsEntry O x n (removeNode env y) := by
  have hremove : GuardsEntry O x n (removeNodeWithRuntime y) := by
    refine Action.keeps_of fun e h => ?_
    rcases removal_cases h.valid y with ⟨f, heq⟩ | ⟨m, p, postorder, -, hy, hp, hpost, heq⟩
    · rw [heq]
      exact h
    · rw [heq]
      exact h.removed hy hp hpost hspare
  exact guardsEntry_bind hremove fun _ => guardsEntry_view _

theorem guards_setFileFollowTail (env : Env) (y : Nat) (enabled : Bool) :
    GuardsEntry O x n (setFileFollowTail env y enabled) := by
  have hkeep : KeepsLinks fun node : Node => { node with followTail := enabled } :=
    ⟨fun _ => rfl, fun _ => rfl, fun _ => rfl, fun _ => rfl, fun _ => rfl⟩
  have hedit : Guards O x n (modify (·.modifyNode y fun node => { node with followTail := enabled })) :=
    Action.keeps_of fun _ h => h.modifyNode hkeep (fun _ => rfl) (fun _ _ => rfl) fun _ =>
      ⟨rfl, rfl, rfl⟩
  refine guardsEntry_bind (guardsEntry_onDocument ?_) fun _ => guardsEntry_view _
  exact guards_bind (guards_view _) fun node => guards_bind
    (Action.advances_lift Action.always_progress _) fun _ => hedit

theorem local_freezeTtyNodeAsArtifact (y : Nat) (artifactKind : TerminalArtifactKind)
    (sections : TerminalArtifactSections) :
    Local y (freezeTtyNodeAsArtifact y artifactKind sections) := by
  intro d z hz
  rw [freezeTtyNodeAsArtifact, Action.bind_apply, Action.view_apply]
  cases d.nodeOr y .unknownNode with
  | error f => rfl
  | ok k =>
      rw [Action.next_ok]
      cases k.source with
      | tty tty =>
          show (d.modifyNode y _).lookup z = _
          rw [lookup_modifyNode, if_neg hz]
      | none => rfl
      | terminalArtifact artifact => rfl
      | file file => rfl

/-- A freeze writes to its node alone. -/
theorem local_freezeTerminalNode (env : Env) {y z : Nat} (hz : z ≠ y)
    (artifactKind : TerminalArtifactKind) (m : Node) :
    Action.Keeps (fun e : DocumentEntry => e.document.lookup z = some m)
      (freezeTerminalNode env y artifactKind) := by
  have hR : Action.Progress fun _ _ : DocumentEntry => True := Action.always_progress
  have hwrite : ∀ {α : Type} {f : DocM α}, Local y f →
      Action.Keeps (fun e : DocumentEntry => e.document.lookup z = some m)
        (DocumentEntry.onDocument f) :=
    fun hf => Action.keeps_of fun e he => (hf e.document z hz).trans he
  have hreplace : ∀ content, Action.Keeps (fun e : DocumentEntry => e.document.lookup z = some m)
      (replaceNodeContentWithAccounting y content) := fun content =>
    (Action.advances_view hR _).bind hR fun _ => hwrite (local_replaceStableNodeContent y content)
  have hcapture : Action.Keeps (fun e : DocumentEntry => e.document.lookup z = some m)
      (captureTerminalArtifact env y artifactKind) :=
    (Action.advances_view hR _).bind hR fun captured =>
      (hreplace captured.1).bind hR fun _ => Action.advances_pure hR _
  exact hcapture.bind hR fun sections =>
    (hwrite (local_freezeTtyNodeAsArtifact y artifactKind sections)).bind hR fun _ =>
      Action.advances_view hR _

/-- A tty node is frozen, and the artifact is none any more. -/
theorem kept_freezeTerminalNode (hn : IsArtifact n) (env : Env) (y : Nat)
    (artifactKind : TerminalArtifactKind) {e : DocumentEntry} (hx : e.document.lookup x = some n) :
    (freezeTerminalNode env y artifactKind e).2.document.lookup x = some n := by
  by_cases hy : x = y
  · subst hy
    obtain ⟨artifact, hsource⟩ := hn
    have hpane : artifactPane e.document x = .error (.error .invalidSourceKind) := by
      rw [artifactPane, nodeOr_of_lookup hx, ok_bind, hsource]
      rfl
    have hcapture : captureTerminalArtifact env x artifactKind e
        = (.error (.error .invalidSourceKind), e) := by
      rw [captureTerminalArtifact, Action.bind_apply, Action.view_apply, hpane]
      rfl
    rw [freezeTerminalNode, Action.bind_apply, hcapture]
    exact hx
  · exact (local_freezeTerminalNode env hy artifactKind n e hx).1

end Sequential

open Daemon.Sequential in
/-- A call that spares an artifact leaves it as it is. -/
theorem kept_storeCall {e : DocumentEntry} (he : Sane e) (hx : e.document.lookup x = some n)
    (hn : IsArtifact n) (env : Env) (documentPath : Bytes) {call : StoreCall}
    (hspare : call.Spares x e.document) :
    ∃ m, (call.reading env documentPath e).2.document.lookup x = some m ∧ SameArtifact n m := by
  have h := Guarded.start he.valid hx
  have hkept : ∀ {f : EntryAction Unit}, GuardsEntry (outline e.document) x n f →
      ∃ m, (f e).2.document.lookup x = some m ∧ SameArtifact n m :=
    fun hf => (hf e h).1.kept
  cases call with
  | appendNode p kind title =>
      exact hkept (guardsEntry_effect (Sequential.guards_appendNode env documentPath p kind title))
  | updateNode y title content => exact hkept (guards_updateNode env title content hspare)
  | appendTextChunk y chunk => exact hkept (guards_appendTextChunk env hspare chunk)
  | attachSyntheticTty p title sessionName =>
      exact hkept (guardsEntry_effect
        (guards_attachSyntheticTty env documentPath p title sessionName))
  | pushSyntheticTtyChunk y chunk => exact hkept (guards_pushSyntheticTtyChunk hn env y chunk)
  | attachFile path mode =>
      exact hkept (guardsEntry_effect (guards_attachLeaf hn env documentPath _ path _))
  | attachTty sessionName =>
      exact hkept (guardsEntry_effect (guards_attachLeaf hn env documentPath _ sessionName _))
  | removeNode y => exact hkept (Sequential.guards_removeNode env hspare)
  | setViewRoot y =>
      exact hkept (guardsEntry_onDocument (guards_of_lookup (setViewRoot_settled y)
        (lookup_checkedView y (fun _ => some y) fun d => d.elidedNodeIds)))
  | clearViewRoot =>
      exact hkept (guardsEntry_onDocument (guards_of_lookup clearViewRoot_settled fun _ _ => rfl))
  | toggleElided y =>
      exact hkept (guardsEntry_onDocument (guards_of_lookup (toggleElided_settled y)
        (lookup_checkedView y (fun d => d.viewRootNodeId) _)))
  | expandNode y =>
      exact hkept (guardsEntry_onDocument (guards_of_lookup (setElided_settled y false)
        (lookup_checkedView y (fun d => d.viewRootNodeId) _)))
  | resetView =>
      exact hkept (guardsEntry_onDocument (guards_of_lookup resetView_settled fun _ _ => rfl))
  | freezeNode y artifactKind =>
      exact ⟨n, kept_freezeTerminalNode hn env y artifactKind hx, .refl n⟩
  | freezeDocument =>
      exact hkept (guardsEntry_onDocument (guards_of_lookup freeze_settled fun _ _ => rfl))
  | setFileFollowTail y enabled => exact hkept (guards_setFileFollowTail env y enabled)
  | refreshSources visit => exact hkept (guards_refreshSourcesForDocument hn env visit)
  | rebuildTmuxSession visit p snapshots =>
      exact hkept (guardsEntry_effect (guards_rebuildTmuxSessionProjection hn env visit hspare))
  | projectNewPane visit p snapshots paneId =>
      exact hkept (guardsEntry_effect (guardsEntry_bind
        (guards_rebuildTmuxSessionProjectionForPane hn env visit p hspare) fun _ =>
          guardsEntry_bind (guardsEntry_view _) fun _ => guardsEntry_pure _))
  | reconcileTmuxState visit snapshots => exact hkept (guards_reconcileTmuxState hn env visit hspare)
  | closeTmuxPane visit remaining again paneId =>
      exact (guarded_closeTmuxPane hn env visit he.tidy h hspare).kept
  | captureTmuxPane paneId capture => exact hkept (guards_captureTmuxPane hn env paneId capture)
  | tmuxOutput paneId normalized => exact hkept (guards_appendTmuxPaneOutput hn env paneId normalized)
  | windowRenamed windowId windowName =>
      exact hkept (guardsEntry_effect (guards_tryApplyWindowRenamed env windowId windowName))
  | windowClose windowId => exact (guarded_tryApplyWindowClose env windowId h hspare).kept
  | setPaneFollowTail paneId enabled => exact hkept (guards_setPaneFollowTail hn env paneId enabled)

/-! ## Runs -/

/-- Every call of the run spares `x` in the document that it finds. -/
def SparedRun (documentPath : Bytes) (x : Nat) (e : DocumentEntry) :
    List (Env × StoreCall) → Prop
  | [] => True
  | call :: rest =>
    call.2.Spares x e.document ∧
      SparedRun documentPath x ((call.2.program call.1 documentPath).leaves e) rest

/-- A run of calls that spare an artifact leaves it as it is. -/
theorem kept_run {e : DocumentEntry} (he : Sane e) (hx : e.document.lookup x = some n)
    (hn : IsArtifact n) (documentPath : Bytes) {calls : List (Env × StoreCall)}
    (hspare : SparedRun documentPath x e calls) :
    ∃ m, (afterStoreCalls documentPath e calls).document.lookup x = some m ∧ SameArtifact n m := by
  induction calls generalizing e n with
  | nil => exact ⟨n, hx, .refl n⟩
  | cons call rest ih =>
      obtain ⟨hfirst, hrest⟩ := hspare
      obtain ⟨m, hm, hsame⟩ := kept_storeCall he hx hn call.1 documentPath hfirst
      have hleaves := (alone_storeCall call.1 documentPath call.2).leaves e
      rw [← hleaves] at hm
      obtain ⟨k, hk, hsame'⟩ := ih (sane_leaves he call.1 documentPath call.2).1 hm
        (hn.of_same hsame) hrest
      exact ⟨k, hk, hsame.trans hsame'⟩

theorem sparedRun_append (documentPath : Bytes) (x : Nat) (e : DocumentEntry)
    (calls more : List (Env × StoreCall)) :
    SparedRun documentPath x e (calls ++ more) ↔ SparedRun documentPath x e calls ∧
      SparedRun documentPath x (afterStoreCalls documentPath e calls) more := by
  induction calls generalizing e with
  | nil => exact (iff_of_eq (true_and _)).symm
  | cons call rest ih => exact (and_congr_right' (ih _)).trans and_assoc.symm

/-- What a freeze that succeeds leaves. -/
structure FrozenNode (n : Node) : Prop where
  artifact : IsArtifact n
  lifecycle : n.lifecycle = .frozen

theorem frozen_of_freezeTtyNode {d d' : Document} {artifactKind : TerminalArtifactKind}
    {sections : TerminalArtifactSections}
    (h : freezeTtyNodeAsArtifact x artifactKind sections d = (.ok (), d')) :
    ∃ n, d'.lookup x = some n ∧ FrozenNode n := by
  rw [freezeTtyNodeAsArtifact, Action.bind_apply, Action.view_apply] at h
  cases hx : d.lookup x with
  | none =>
      rw [nodeOr_of_missing hx] at h
      cases h
  | some k =>
      rw [nodeOr_of_lookup hx, Action.next_ok] at h
      cases hsource : k.source with
      | tty tty =>
          simp only [hsource] at h
          cases h
          have hfrozen : FrozenNode { k with
              source := .terminalArtifact (.fromTty tty artifactKind sections)
              lifecycle := .frozen } := ⟨⟨_, rfl⟩, rfl⟩
          refine ⟨_, ?_, hfrozen⟩
          rw [lookup_modifyNode, if_pos rfl, hx]
          rfl
      | none =>
          simp only [hsource] at h
          cases h
      | terminalArtifact artifact =>
          simp only [hsource] at h
          cases h
      | file file =>
          simp only [hsource] at h
          cases h

theorem frozen_of_freeze {env : Env} {artifactKind : TerminalArtifactKind} {e e' : DocumentEntry}
    (h : Sequential.freezeTerminalNode env x artifactKind e = (.ok (), e')) :
    ∃ n, e'.document.lookup x = some n ∧ FrozenNode n := by
  rw [Sequential.freezeTerminalNode, Action.bind_apply] at h
  rcases hcapture : Sequential.captureTerminalArtifact env x artifactKind e with ⟨_ | sections, e₁⟩
  · rw [hcapture] at h
    cases h
  rw [hcapture, Action.next_ok, Action.bind_apply] at h
  rcases hfreeze : freezeTtyNodeAsArtifact x artifactKind sections e₁.document with ⟨_ | _, d'⟩
  · rw [DocumentEntry.onDocument, hfreeze] at h
    cases h
  · rw [DocumentEntry.onDocument, hfreeze, Action.next_ok] at h
    have hdocument : e'.document = d' := (congrArg (fun r => r.2.document) h).symm
    rw [hdocument]
    exact frozen_of_freezeTtyNode hfreeze

/-- A node for which `node.freeze` succeeded in a document that any calls made stays through every
run of calls that spare it, with its content, its source and its lifecycle. -/
theorem artifact_durable (documentPath : Bytes) (id : Nat) (title : Bytes)
    (maxContentBytes : UInt64) (earlier later : List (Env × StoreCall)) (env : Env) (x : Nat)
    (artifactKind : TerminalArtifactKind) :
    let e := afterStoreCalls documentPath (cappedEntry documentPath id title maxContentBytes) earlier
    let freeze := (StoreCall.freezeNode x artifactKind).program env documentPath
    (Program.solo freeze [] e).1 = .done (.ok ()) → SparedRun documentPath x (freeze.leaves e) later →
    ∃ n m, (freeze.leaves e).document.lookup x = some n ∧ FrozenNode n ∧
      (afterStoreCalls documentPath (freeze.leaves e) later).document.lookup x = some m ∧
      SameArtifact n m := by
  intro e freeze hfreeze hspare
  have he : Sane e :=
    (sane_afterStoreCalls (sane_cappedEntry documentPath id title maxContentBytes) documentPath
      earlier).1
  have halone := alone_storeCall env documentPath (.freezeNode x artifactKind)
  have hrun : Sequential.freezeTerminalNode env x artifactKind e = (.ok (), freeze.leaves e) := by
    have hresult := congrArg Prod.fst (halone e)
    rw [hfreeze] at hresult
    exact Prod.ext (Program.Stop.done.inj hresult).symm (halone.leaves e).symm
  obtain ⟨n, hn, hfrozen⟩ := frozen_of_freeze hrun
  have hsane := (sane_leaves he env documentPath (.freezeNode x artifactKind)).1
  obtain ⟨m, hm, hsame⟩ := kept_run hsane hn hfrozen.artifact documentPath hspare
  exact ⟨n, m, hn, hfrozen, hm, hsame⟩

/-! ### Two windows -/

/-- Surroundings in which every capture succeeds. -/
def sampleEnv : Env where
  debugRpcEnabled := false
  capturePane _ _ _ := .ok (ascii "screen")
  captureSurface _ _ := .ok (ascii "screen", [])
  readPath _ _ _ := .ok []
  onInvalidate _ _ _ := .ok ()
  onTtyData _ _ _ := .ok ()

/-- The root document after a session with two windows was projected into it. -/
def sampleEntry : DocumentEntry :=
  afterStoreCalls rootDocumentPath (cappedEntry rootDocumentPath 1 [] 1000)
    [(sampleEnv, .rebuildTmuxSession 0 1 beforeMove)]

theorem freeze_succeeds {e : DocumentEntry} {env : Env} {documentPath : Bytes} {x : Nat}
    {artifactKind : TerminalArtifactKind}
    (h : (Sequential.freezeTerminalNode env x artifactKind e).1.toOption = some ()) :
    (Program.solo ((StoreCall.freezeNode x artifactKind).program env documentPath) [] e).1
      = .done (.ok ()) := by
  have halone := congrArg Prod.fst (alone_storeCall env documentPath (.freezeNode x artifactKind) e)
  rw [halone]
  show Program.Stop.done (Sequential.freezeTerminalNode env x artifactKind e).1 = _
  rcases hr : (Sequential.freezeTerminalNode env x artifactKind e).1 with f | _
  · rw [hr] at h
    cases h
  · rfl

/-- Where the snapshots have every window and every pane up to `x`, a pass spares `x`. -/
theorem sparedBelow_of_named {d : Document} (hv : Valid d) {x s : Nat}
    {snapshots : List PaneSnapshot}
    (hnamed : ∀ c ≤ x, ∀ n, d.lookup c = some n →
      (∀ w, windowProjectionId n = some w → w ∈ snapshots.map (·.windowId)) ∧
      ∀ p, ttyPaneId n.source = some p → p ∈ snapshots.map (·.paneId)) :
    SparedBelow (outline d) x snapshots s := by
  intro c hc hcx
  have hle := (wellFormed_outline hv).le hcx
  rcases hc with ⟨w, -, hw, hnot⟩ | ⟨q, w, p, -, -, -, -, hp, hnot⟩
  · obtain ⟨n, hn, hwindow⟩ := has_outline.mp hw
    exact hnot ((hnamed c hle n hn).1 w hwindow)
  · obtain ⟨n, hn, hpane⟩ := has_outline.mp hp
    exact hnot ((hnamed c hle n hn).2 p (projectedPane_eq_some.mp hpane).2)

/-- The document after pane `%1`, which is node 4, was frozen. -/
def frozenEntry : DocumentEntry :=
  ((StoreCall.freezeNode 4 .text).program sampleEnv rootDocumentPath).leaves sampleEntry

/-- The sources are refreshed and the other pane of the window writes something. -/
def quietCalls : List (Env × StoreCall) :=
  [(sampleEnv, .refreshSources 0), (sampleEnv, .tmuxOutput (ascii "%2") (ascii "more"))]

/-- The other window goes. -/
def closingCalls : List (Env × StoreCall) :=
  quietCalls ++ [(sampleEnv, .windowClose (ascii "@2"))]

/-- What is left of the session is reconciled. -/
def reconcilingCalls : List (Env × StoreCall) :=
  closingCalls ++ [(sampleEnv, .reconcileTmuxState 1 (beforeMove.take 2))]

theorem sane_afterFreeze (calls : List (Env × StoreCall)) :
    Sane (afterStoreCalls rootDocumentPath frozenEntry calls) := by
  have hnew := sane_cappedEntry rootDocumentPath 1 [] 1000
  have hsample : Sane sampleEntry := (sane_afterStoreCalls hnew rootDocumentPath _).1
  exact (sane_afterStoreCalls (sane_leaves hsample sampleEnv rootDocumentPath _).1
    rootDocumentPath calls).1

theorem spared_closing :
    (StoreCall.windowClose (ascii "@2")).Spares 4
      (afterStoreCalls rootDocumentPath frozenEntry quietCalls).document := by
  have hid : ((afterStoreCalls rootDocumentPath frozenEntry
      quietCalls).document.findNodeByBackendId
        (windowBackendPrefix ++ ascii "@2")).toOption.join.map (·.id) = some 6 := by
    decide +kernel
  have hv := (sane_afterFreeze quietCalls).valid
  generalize (afterStoreCalls rootDocumentPath frozenEntry quietCalls).document = d at hid hv ⊢
  intro node hnode hunder
  rw [hnode] at hid
  have h6 : node.id = 6 := Option.some.inj hid
  rw [h6] at hunder
  exact absurd ((wellFormed_outline hv).le hunder) (by decide)

theorem spared_reconciling :
    (StoreCall.reconcileTmuxState 1 (beforeMove.take 2)).Spares 4
      (afterStoreCalls rootDocumentPath frozenEntry closingCalls).document := by
  have hnamed : ∀ c ≤ 4, ∀ n ∈ (afterStoreCalls rootDocumentPath frozenEntry
      closingCalls).document.lookup c, (∀ t ∈ (projectionOf n).session, t = ascii "$0") ∧
        (∀ w ∈ windowProjectionId n, w = ascii "@1") ∧
        ∀ p ∈ ttyPaneId n.source, p = ascii "%1" := by
    decide +kernel
  have hv := (sane_afterFreeze closingCalls).valid
  generalize (afterStoreCalls rootDocumentPath frozenEntry closingCalls).document = d at hnamed hv ⊢
  intro s sessionId hs hsx
  obtain ⟨n, hn, hsession⟩ := has_outline.mp hs
  have hid : sessionId = ascii "$0" :=
    (hnamed s ((wellFormed_outline hv).le hsx) n hn).1 sessionId hsession
  have hall : (beforeMove.take 2).filter (fun snapshot => snapshot.sessionId == sessionId)
      = beforeMove.take 2 := by rw [hid]; decide
  simp only [hall]
  refine ⟨by decide, sparedBelow_of_named hv fun c hc m hm => ?_⟩
  obtain ⟨-, hwindow, hpane⟩ := hnamed c hc m hm
  refine ⟨fun w hw => ?_, fun p hp => ?_⟩
  · rw [hwindow w hw]
    decide
  · rw [hpane p hp]
    decide

/-- Pane `%1` outlives its neighbours. -/
theorem artifact_durable_sample :
    ∃ n m, frozenEntry.document.lookup 4 = some n ∧ FrozenNode n ∧
      (afterStoreCalls rootDocumentPath frozenEntry reconcilingCalls).document.lookup 4 = some m ∧
      SameArtifact n m := by
  have hspare : SparedRun rootDocumentPath 4 frozenEntry reconcilingCalls := by
    refine (sparedRun_append _ _ _ _ _).mpr ⟨(sparedRun_append _ _ _ _ _).mpr ⟨?_, ?_⟩, ?_⟩
    · exact ⟨trivial, trivial, trivial⟩
    · exact ⟨spared_closing, trivial⟩
    · exact ⟨spared_reconciling, trivial⟩
  exact artifact_durable rootDocumentPath 1 [] 1000 [(sampleEnv, .rebuildTmuxSession 0 1 beforeMove)]
    reconcilingCalls sampleEnv 4 .text (freeze_succeeds (by decide +kernel)) hspare

/-- A window that tmux closes takes a frozen pane along. -/
theorem closed_window_takes_artifact : ¬ ∀ (documentPath : Bytes) (id : Nat) (title : Bytes)
    (maxContentBytes : UInt64) (earlier later : List (Env × StoreCall)) (env : Env) (x : Nat)
    (artifactKind : TerminalArtifactKind),
    let e := afterStoreCalls documentPath (cappedEntry documentPath id title maxContentBytes) earlier
    let freeze := (StoreCall.freezeNode x artifactKind).program env documentPath
    (Program.solo freeze [] e).1 = .done (.ok ()) → (∀ call ∈ later, call.2.isBackend = true) →
    ∃ n m, (freeze.leaves e).document.lookup x = some n ∧ FrozenNode n ∧
      (afterStoreCalls documentPath (freeze.leaves e) later).document.lookup x = some m ∧
      SameArtifact n m := by
  intro h
  obtain ⟨n, m, -, -, hm, -⟩ := h rootDocumentPath 1 [] 1000
    [(sampleEnv, .rebuildTmuxSession 0 1 beforeMove)] [(sampleEnv, .windowClose (ascii "@2"))]
    sampleEnv 7 .text (freeze_succeeds (by decide +kernel)) (by simp [StoreCall.isBackend])
  have hgone : (afterStoreCalls rootDocumentPath
      (((StoreCall.freezeNode 7 .text).program sampleEnv rootDocumentPath).leaves sampleEntry)
      [(sampleEnv, .windowClose (ascii "@2"))]).document.lookup 7 = none := by decide +kernel
  rw [sampleEntry] at hgone
  rw [hgone] at hm
  cases hm

end Muxly.Daemon
