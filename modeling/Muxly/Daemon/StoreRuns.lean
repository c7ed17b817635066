/-
# Muxly.Daemon.StoreRuns -- mutations of a document, one after another

`StoreCall` lists the mutations of the store on one document. Each of them, whether it succeeds or
fails, keeps the document invariant and never gives an id to a node twice; so do all sequences of
them from a new document.
-/
import Muxly.Daemon.ContentCap
import Muxly.Daemon.TmuxStore

namespace Muxly.Daemon

open Muxly.Control Muxly.Core Muxly.Sync Muxly.Tree
open Document

/-! ## The calls -/

/-- A mutation of the store on one document. -/
inductive StoreCall where
  | appendNode (parentId : Nat) (kind : NodeKind) (title : Bytes)
  | updateNode (nodeId : Nat) (title content : Option Bytes)
  | appendTextChunk (nodeId : Nat) (chunk : Bytes)
  | attachSyntheticTty (parentId : Nat) (title sessionName : Bytes)
  | pushSyntheticTtyChunk (nodeId : Nat) (chunk : Bytes)
  | attachFile (path : Bytes) (mode : FileMode)
  | attachTty (sessionName : Bytes)
  | removeNode (nodeId : Nat)
  | setViewRoot (nodeId : Nat)
  | clearViewRoot
  | toggleElided (nodeId : Nat)
  | expandNode (nodeId : Nat)
  | resetView
  | freezeNode (nodeId : Nat) (artifactKind : TerminalArtifactKind)
  | freezeDocument
  | setFileFollowTail (nodeId : Nat) (enabled : Bool)
  | refreshSources (visit : Nat)
  | rebuildTmuxSession (visit parentId : Nat) (snapshots : List PaneSnapshot)
  | projectNewPane (visit preferredParentId : Nat) (snapshots : List PaneSnapshot) (paneId : Bytes)
  | reconcileTmuxState (visit : Nat) (snapshots : List PaneSnapshot)
  | closeTmuxPane (visit : Nat) (remaining again : List PaneSnapshot) (paneId : Bytes)
  | captureTmuxPane (paneId capture : Bytes)
  | tmuxOutput (paneId normalized : Bytes)
  | windowRenamed (windowId windowName : Bytes)
  | windowClose (windowId : Bytes)
  | setPaneFollowTail (paneId : Bytes) (enabled : Bool)

/-- Run an action for its effect. -/
def effect {α : Type} (f : EntryAction α) : EntryAction Unit := do
  let _ ← f

/-- Run a program for its effect. -/
def run {α : Type} (p : EntryM α) : EntryM Unit := do
  let _ ← p

/-- The code of a call on the document at a path. What is done for tmux is one step. -/
def StoreCall.program (env : Env) (documentPath : Bytes) : StoreCall → EntryM Unit
  | .appendNode p kind title => run (Daemon.appendNode env documentPath p kind title)
  | .updateNode x title content => Daemon.updateNode env x title content
  | .appendTextChunk x chunk => Daemon.appendTextChunk env x chunk
  | .attachSyntheticTty p title sessionName =>
    run (Daemon.attachSyntheticTty env documentPath p title sessionName)
  | .pushSyntheticTtyChunk x chunk => Daemon.pushSyntheticTtyChunk env x chunk
  | .attachFile path mode => run (Daemon.attachFile env documentPath path mode)
  | .attachTty sessionName => run (Daemon.attachTty env documentPath sessionName)
  | .removeNode x => Daemon.removeNode env documentPath x
  | .setViewRoot x => Daemon.onDocument (Document.setViewRoot x)
  | .clearViewRoot => Daemon.onDocument Document.clearViewRoot
  | .toggleElided x => Daemon.onDocument (Document.toggleElided x)
  | .expandNode x => Daemon.onDocument (Document.setElided x false)
  | .resetView => Daemon.onDocument Document.resetView
  | .freezeNode x artifactKind => Daemon.freezeTerminalNode env x artifactKind
  | .freezeDocument => Daemon.onDocument Document.freeze
  | .setFileFollowTail x enabled => Daemon.setFileFollowTail env x enabled
  | .refreshSources visit => Daemon.refreshSourcesForDocument env visit
  | .rebuildTmuxSession visit p snapshots =>
    Program.act (effect (Sequential.rebuildTmuxSessionProjection env visit p snapshots))
  | .projectNewPane visit p snapshots paneId =>
    Program.act (effect (Sequential.projectNewPane env visit p snapshots paneId))
  | .reconcileTmuxState visit snapshots => Program.act (Sequential.reconcileTmuxState env visit snapshots)
  | .closeTmuxPane visit remaining again paneId =>
    Program.act (Sequential.closeTmuxPane env visit remaining again paneId)
  | .captureTmuxPane paneId capture => Program.act (Sequential.captureTmuxPane env paneId capture)
  | .tmuxOutput paneId normalized => Program.act (Sequential.appendTmuxPaneOutput env paneId normalized)
  | .windowRenamed windowId windowName =>
    Program.act (effect (Sequential.tryApplyWindowRenamed env windowId windowName))
  | .windowClose windowId => Program.act (Sequential.tryApplyWindowClose env windowId)
  | .setPaneFollowTail paneId enabled => Program.act (Sequential.setPaneFollowTail env paneId enabled)

/-- What a call does when no other thread runs. -/
def StoreCall.reading (env : Env) (documentPath : Bytes) : StoreCall → EntryAction Unit
  | .appendNode p kind title => effect (Sequential.appendNode env documentPath p kind title)
  | .updateNode x title content => Sequential.updateNode env x title content
  | .appendTextChunk x chunk => Sequential.appendTextChunk env x chunk
  | .attachSyntheticTty p title sessionName =>
    effect (Sequential.attachSyntheticTty env documentPath p title sessionName)
  | .pushSyntheticTtyChunk x chunk => Sequential.pushSyntheticTtyChunk env x chunk
  | .attachFile path mode => effect (Sequential.attachFile env documentPath path mode)
  | .attachTty sessionName => effect (Sequential.attachTty env documentPath sessionName)
  | .removeNode x => Sequential.removeNode env x
  | .setViewRoot x => DocumentEntry.onDocument (Document.setViewRoot x)
  | .clearViewRoot => DocumentEntry.onDocument Document.clearViewRoot
  | .toggleElided x => DocumentEntry.onDocument (Document.toggleElided x)
  | .expandNode x => DocumentEntry.onDocument (Document.setElided x false)
  | .resetView => DocumentEntry.onDocument Document.resetView
  | .freezeNode x artifactKind => Sequential.freezeTerminalNode env x artifactKind
  | .freezeDocument => DocumentEntry.onDocument Document.freeze
  | .setFileFollowTail x enabled => Sequential.setFileFollowTail env x enabled
  | .refreshSources visit => Sequential.refreshSourcesForDocument env visit
  | .rebuildTmuxSession visit p snapshots =>
    effect (Sequential.rebuildTmuxSessionProjection env visit p snapshots)
  | .projectNewPane visit p snapshots paneId =>
    effect (Sequential.projectNewPane env visit p snapshots paneId)
  | .reconcileTmuxState visit snapshots => Sequential.reconcileTmuxState env visit snapshots
  | .closeTmuxPane visit remaining again paneId =>
    Sequential.closeTmuxPane env visit remaining again paneId
  | .captureTmuxPane paneId capture => Sequential.captureTmuxPane env paneId capture
  | .tmuxOutput paneId normalized => Sequential.appendTmuxPaneOutput env paneId normalized
  | .windowRenamed windowId windowName =>
    effect (Sequential.tryApplyWindowRenamed env windowId windowName)
  | .windowClose windowId => Sequential.tryApplyWindowClose env windowId
  | .setPaneFollowTail paneId enabled => Sequential.setPaneFollowTail env paneId enabled

/-- Each program does what its reading says. -/
theorem alone_storeCall (env : Env) (documentPath : Bytes) (call : StoreCall) :
    Alone [] (call.program env documentPath) (call.reading env documentPath) := by
  have hfree := handlerFree_nil
  cases call with
  | appendNode p kind title =>
      exact (alone_appendNode hfree env documentPath p kind title).bind fun _ => alone_pure ()
  | updateNode x title content => exact alone_updateNode hfree env x title content
  | appendTextChunk x chunk => exact alone_appendTextChunk hfree env x chunk
  | attachSyntheticTty p title sessionName =>
      exact (alone_attachSyntheticTty hfree env documentPath p title sessionName).bind fun _ =>
        alone_pure ()
  | pushSyntheticTtyChunk x chunk => exact alone_pushSyntheticTtyChunk hfree env x chunk
  | attachFile path mode =>
      exact (alone_attachLeaf hfree env documentPath _ path _).bind fun _ => alone_pure ()
  | attachTty sessionName =>
      exact (alone_attachLeaf hfree env documentPath _ sessionName _).bind fun _ => alone_pure ()
  | removeNode x => exact alone_removeNode hfree env documentPath x
  | freezeNode x artifactKind => exact alone_freezeTerminalNode hfree env x artifactKind
  | setFileFollowTail x enabled => exact alone_setFileFollowTail env x enabled
  | refreshSources visit => exact alone_refreshSourcesForDocument hfree env visit
  | setViewRoot x => exact alone_onDocument _
  | clearViewRoot => exact alone_onDocument _
  | toggleElided x => exact alone_onDocument _
  | expandNode x => exact alone_onDocument _
  | resetView => exact alone_onDocument _
  | freezeDocument => exact alone_onDocument _
  | rebuildTmuxSession visit p snapshots => exact alone_act _
  | projectNewPane visit p snapshots paneId => exact alone_act _
  | reconcileTmuxState visit snapshots => exact alone_act _
  | closeTmuxPane visit remaining again paneId => exact alone_act _
  | captureTmuxPane paneId capture => exact alone_act _
  | tmuxOutput paneId normalized => exact alone_act _
  | windowRenamed windowId windowName => exact alone_act _
  | windowClose windowId => exact alone_act _
  | setPaneFollowTail paneId enabled => exact alone_act _

/-- The entry after some calls, each in its own surroundings. -/
def afterStoreCalls (documentPath : Bytes) (e : DocumentEntry) (calls : List (Env × StoreCall)) :
    DocumentEntry := calls.foldl (fun e call => (call.2.program call.1 documentPath).leaves e) e

theorem afterStoreCalls_append (documentPath : Bytes) (e : DocumentEntry)
    (calls more : List (Env × StoreCall)) :
    afterStoreCalls documentPath e (calls ++ more)
      = afterStoreCalls documentPath (afterStoreCalls documentPath e calls) more :=
  List.foldl_append

/-! ## Each call is sound -/

/-- What every call leaves: a document with its invariant, and tidy. -/
structure Sane (e : DocumentEntry) : Prop where
  valid : Valid e.document
  tidy : Tidy e.document

/-- Code on an entry that keeps the document invariant and never goes back on an id. -/
abbrev SoundEntry {α : Type} (f : EntryAction α) : Prop :=
  Action.Advances Sane (fun e e' => Evolves e.document e'.document) f

theorem entry_progress :
    Action.Progress fun e e' : DocumentEntry => Evolves e.document e'.document where
  refl e := evolves_progress.refl e.document
  trans h h' := evolves_progress.trans h h'

theorem soundEntry_onDocument {α : Type} {m : DocM α} (hm : Settled m) :
    SoundEntry (DocumentEntry.onDocument m) := by
  intro e he
  obtain ⟨hvalid, hsettles⟩ := hm e.document he.valid
  exact ⟨⟨hvalid, hsettles.tidy he.tidy⟩, hsettles.evolves⟩

theorem soundEntry_view {α : Type} (f : DocumentEntry → Except Failure α) :
    SoundEntry (Action.view f) := Action.advances_view entry_progress f

theorem soundEntry_pure {α : Type} (a : α) : SoundEntry (pure a) :=
  Action.advances_pure entry_progress a

theorem soundEntry_throw {α : Type} (failure : Failure) :
    SoundEntry (throw failure : EntryAction α) := Action.advances_throw entry_progress failure

theorem soundEntry_markTopologyChanged :
    SoundEntry (modify (·.markTopologyChanged) : EntryAction PUnit) :=
  fun e he => ⟨⟨he.valid, he.tidy⟩, evolves_progress.refl e.document⟩

theorem soundEntry_bind {α β : Type} {f : EntryAction α} {k : α → EntryAction β}
    (hf : SoundEntry f) (hk : ∀ a, SoundEntry (k a)) : SoundEntry (f >>= k) :=
  hf.bind entry_progress hk

theorem soundEntry_effect {α : Type} {f : EntryAction α} (hf : SoundEntry f) :
    SoundEntry (effect f) := soundEntry_bind hf fun _ => soundEntry_pure ()

namespace Sequential

theorem sound_withStableNode {α : Type} (x : Nat) (check : Node → Except Failure Unit)
    {body : EntryAction α} (hbody : SoundEntry body) :
    SoundEntry (withStableNode x check body) := soundEntry_bind (soundEntry_view _) fun _ => hbody

theorem settled_replaceStableNodeContent (x : Nat) (content : Bytes) :
    Settled (replaceStableNodeContent x content) := by
  refine (settled_view _).bind settles_progress fun node => ?_
  split
  · exact Action.advances_pure settles_progress _
  · exact (setStableNodeContent_settled x content).bind settles_progress fun _ =>
      Action.advances_pure settles_progress _

theorem sound_replaceContent (x : Nat) (content : Bytes) :
    SoundEntry (replaceNodeContentWithAccounting x content) :=
  sound_withStableNode x _ (soundEntry_onDocument (settled_replaceStableNodeContent x content))

theorem sound_appendContent (x : Nat) (chunk : Bytes) :
    SoundEntry (appendNodeContentWithAccounting x chunk) :=
  sound_withStableNode x _ (soundEntry_onDocument (appendTextToStableNode_settled x chunk))

theorem sound_notifyInvalidate (env : Env) (x : Nat) (reason : ProjectionEventReason) :
    SoundEntry (notifyInvalidate env x reason) := soundEntry_view _

theorem sound_notifyTtyData (env : Env) (x : Nat) (chunk : Bytes) :
    SoundEntry (notifyTtyData env x chunk) := soundEntry_view _

theorem sound_setNodeContentFromSource (env : Env) (x : Nat) (content : Bytes) :
    SoundEntry (setNodeContentFromSource env x content) := by
  refine soundEntry_bind (sound_replaceContent x content) fun changed => ?_
  cases changed with
  | true => exact sound_notifyInvalidate env x .content
  | false => exact soundEntry_pure ()

theorem sound_appendTextChunk (env : Env) (x : Nat) (chunk : Bytes) :
    SoundEntry (appendTextChunk env x chunk) :=
  soundEntry_bind (sound_appendContent x chunk) fun _ => sound_notifyInvalidate env x .content

theorem sound_pushSyntheticTtyChunk (env : Env) (x : Nat) (chunk : Bytes) :
    SoundEntry (pushSyntheticTtyChunk env x chunk) := by
  apply sound_withStableNode
  exact soundEntry_bind (soundEntry_onDocument (appendTextToStableNode_settled x chunk)) fun _ =>
    soundEntry_bind (sound_notifyInvalidate env x .content) fun _ => sound_notifyTtyData env x chunk

/-- The second half of `updateNode`: the content, and the event. -/
theorem sound_updateContent (env : Env) (x : Nat) (content : Option Bytes) : SoundEntry (do
    if let some content := content then
      let _ ← replaceNodeContentWithAccounting x content
    notifyInvalidate env x (if content.isSome then .content else .metadata)) := by
  cases content with
  | none => exact sound_notifyInvalidate env x _
  | some content =>
      exact soundEntry_bind (sound_replaceContent x content) fun _ =>
        sound_notifyInvalidate env x _

theorem sound_updateNode (env : Env) (x : Nat) (title content : Option Bytes) :
    SoundEntry (updateNode env x title content) := by
  cases title with
  | none => exact sound_updateContent env x content
  | some title =>
      exact soundEntry_bind (soundEntry_onDocument (setNodeTitle_settled x title)) fun _ =>
        sound_updateContent env x content

theorem sound_commitAppend (p : Nat) (kind : NodeKind) (title : Bytes) (source : Source) :
    SoundEntry (commitAppend p kind title source) :=
  soundEntry_bind (soundEntry_onDocument (appendNode_settled p kind title source)) fun _ =>
    soundEntry_bind soundEntry_markTopologyChanged fun _ => soundEntry_pure _

theorem sound_appendNodeWithRuntime (documentPath : Bytes) (p : Nat) (kind : NodeKind)
    (title : Bytes) (source : Source) :
    SoundEntry (appendNodeWithRuntime documentPath p kind title source) := by
  have hcommit := sound_commitAppend p kind title source
  unfold appendNodeWithRuntime
  split
  · exact soundEntry_bind (soundEntry_pure _) fun _ => hcommit
  · exact soundEntry_bind (soundEntry_view _) fun _ => hcommit

theorem sound_appendNode (env : Env) (documentPath : Bytes) (p : Nat) (kind : NodeKind)
    (title : Bytes) : SoundEntry (appendNode env documentPath p kind title) :=
  soundEntry_bind (sound_appendNodeWithRuntime documentPath p kind title .none) fun _ =>
    soundEntry_bind (sound_notifyInvalidate env _ _) fun _ => soundEntry_pure _

theorem sound_attachSyntheticTty (env : Env) (documentPath : Bytes) (p : Nat)
    (title sessionName : Bytes) :
    SoundEntry (attachSyntheticTty env documentPath p title sessionName) :=
  soundEntry_bind (sound_appendNodeWithRuntime documentPath p .ttyLeaf title _) fun _ =>
    soundEntry_bind (sound_notifyInvalidate env _ _) fun _ => soundEntry_pure _

/-- A removal takes the subtree it resolved, or changes nothing. -/
theorem sound_removeNodeWithRuntime (x : Nat) : SoundEntry (removeNodeWithRuntime x) := by
  intro e he
  rcases removal_cases he.valid x with ⟨f, heq⟩ | ⟨n, p, postorder, -, hx, hp, hpost, heq⟩
  · rw [heq]
    exact ⟨he, evolves_progress.refl e.document⟩
  · rw [heq]
    obtain ⟨hremovable, -, -, hvalid⟩ := he.valid.removal hx hp hpost
    exact ⟨⟨hvalid, he.tidy.pruned hremovable _⟩, evolves_pruned hremovable _⟩

theorem sound_removeNode (env : Env) (x : Nat) : SoundEntry (removeNode env x) :=
  soundEntry_bind (sound_removeNodeWithRuntime x) fun _ => sound_notifyInvalidate env x .structural

theorem sound_refreshSource (env : Env) (visit x : Nat) : SoundEntry (refreshSource env visit x) := by
  refine soundEntry_bind (soundEntry_view _) fun node => ?_
  cases node.bind fun node => refreshedContent env visit x node.source with
  | none => exact soundEntry_pure _
  | some content => exact sound_setNodeContentFromSource env x content

theorem sound_refreshSourcesForDocument (env : Env) (visit : Nat) :
    SoundEntry (refreshSourcesForDocument env visit) :=
  soundEntry_bind (soundEntry_view _) fun _ =>
    Action.Advances.forM_of entry_progress fun x _ => sound_refreshSource env visit x

theorem sound_attachLeaf (env : Env) (documentPath : Bytes) (kind : NodeKind) (title : Bytes)
    (source : Source) : SoundEntry (attachLeaf env documentPath kind title source) :=
  soundEntry_bind (soundEntry_view _) fun root =>
    soundEntry_bind (sound_appendNodeWithRuntime documentPath root kind title source) fun _ =>
      soundEntry_bind (sound_refreshSourcesForDocument env 0) fun _ =>
        soundEntry_bind (sound_notifyInvalidate env _ _) fun _ => soundEntry_pure _

theorem sound_freezeTerminalNode (env : Env) (x : Nat) (artifactKind : TerminalArtifactKind) :
    SoundEntry (freezeTerminalNode env x artifactKind) := by
  have hcapture : SoundEntry (captureTerminalArtifact env x artifactKind) :=
    soundEntry_bind (soundEntry_view _) fun captured =>
      soundEntry_bind (sound_replaceContent x captured.1) fun _ => soundEntry_pure _
  exact soundEntry_bind hcapture fun sections =>
    soundEntry_bind (soundEntry_onDocument (freezeTtyNodeAsArtifact_settled x artifactKind sections))
      fun _ => sound_notifyInvalidate env x .structural

theorem sound_setFileFollowTail (env : Env) (x : Nat) (enabled : Bool) :
    SoundEntry (setFileFollowTail env x enabled) := by
  have hkeep : KeepsLinks fun node : Node => { node with followTail := enabled } :=
    ⟨fun _ => rfl, fun _ => rfl, fun _ => rfl, fun _ => rfl, fun _ => rfl⟩
  have hedit : Settled (modify (·.modifyNode x fun node => { node with followTail := enabled })) :=
    fun d hv => ⟨hv.modifyNode hkeep (fun _ => rfl) x, evolves_modifyNode d x hkeep,
      fun htidy => htidy.modifyNode (fun _ => rfl) fun _ _ => rfl⟩
  refine soundEntry_bind (soundEntry_onDocument ?_) fun _ => sound_notifyInvalidate env x .metadata
  exact (settled_view _).bind settles_progress fun node =>
    (Action.advances_lift settles_progress _).bind settles_progress fun _ => hedit

/-! ### Tmux -/

theorem sound_onTopology {α : Type} {m : DocM α} (hm : Settled m) : SoundEntry (onTopology m) :=
  soundEntry_bind (soundEntry_onDocument hm) fun _ =>
    soundEntry_bind soundEntry_markTopologyChanged fun _ => soundEntry_pure _

theorem sound_rebuildTmuxSessionProjection (env : Env) (visit p : Nat)
    (snapshots : List PaneSnapshot) :
    SoundEntry (rebuildTmuxSessionProjection env visit p snapshots) :=
  soundEntry_bind (sound_onTopology (reconcileSessionSnapshots_settled p snapshots)) fun _ =>
    soundEntry_bind (sound_refreshSourcesForDocument env visit) fun _ =>
      soundEntry_bind (sound_notifyInvalidate env _ _) fun _ => soundEntry_pure _

theorem sound_rebuildTmuxSessionProjectionForPane (env : Env) (visit p : Nat)
    (snapshots : List PaneSnapshot) (paneId : Bytes) :
    SoundEntry (rebuildTmuxSessionProjectionForPane env visit p snapshots paneId) := by
  unfold rebuildTmuxSessionProjectionForPane
  cases snapshots.find? fun snapshot => snapshot.paneId == paneId with
  | none => exact soundEntry_throw _
  | some snapshot =>
      refine soundEntry_bind (soundEntry_view _) fun parentId => ?_
      refine soundEntry_bind (sound_rebuildTmuxSessionProjection env visit _ _) fun _ => ?_
      refine soundEntry_bind (soundEntry_view _) fun nodeId => ?_
      cases nodeId with
      | none => exact soundEntry_throw _
      | some x => exact soundEntry_pure x

theorem sound_projectNewPane (env : Env) (visit p : Nat) (snapshots : List PaneSnapshot)
    (paneId : Bytes) : SoundEntry (projectNewPane env visit p snapshots paneId) :=
  soundEntry_bind (sound_rebuildTmuxSessionProjectionForPane env visit p snapshots paneId) fun _ =>
    soundEntry_bind (sound_notifyInvalidate env _ _) fun _ => soundEntry_pure _

theorem settled_reconcileProjection (snapshots : List PaneSnapshot)
    (projection : SessionProjectionRef) : Settled (reconcileProjection snapshots projection) := by
  unfold reconcileProjection
  simp only
  split
  · exact (removeSessionProjection_settled _).bind settles_progress fun _ =>
      Action.advances_pure settles_progress _
  · exact (reconcileSessionSnapshots_settled _ _).bind settles_progress fun _ =>
      Action.advances_pure settles_progress _

theorem sound_reconcileTmuxState (env : Env) (visit : Nat) (snapshots : List PaneSnapshot) :
    SoundEntry (reconcileTmuxState env visit snapshots) := by
  refine soundEntry_bind (sound_onTopology ?_) fun _ => sound_refreshSourcesForDocument env visit
  exact (settled_view _).bind settles_progress fun projections =>
    Action.Advances.forM_of settles_progress fun projection _ =>
      settled_reconcileProjection snapshots projection

theorem sound_appendTmuxPaneOutput (env : Env) (paneId normalized : Bytes) :
    SoundEntry (appendTmuxPaneOutput env paneId normalized) := by
  refine soundEntry_bind (soundEntry_view _) fun nodeId => ?_
  cases nodeId with
  | none => exact soundEntry_throw _
  | some x =>
      refine soundEntry_bind (soundEntry_view _) fun node => ?_
      split
      · exact soundEntry_pure _
      · exact soundEntry_bind (soundEntry_onDocument (appendTextToStableNode_settled x normalized))
          fun _ => soundEntry_bind (soundEntry_view _) fun _ => soundEntry_view _

theorem sound_captureTmuxPane (env : Env) (paneId capture : Bytes) :
    SoundEntry (captureTmuxPane env paneId capture) := by
  refine soundEntry_bind (soundEntry_view _) fun nodeId => ?_
  cases nodeId with
  | none => exact soundEntry_pure ()
  | some x =>
      refine soundEntry_bind (soundEntry_view _) fun node => ?_
      split
      · exact sound_setNodeContentFromSource env x capture
      · exact soundEntry_pure ()

theorem sound_setPaneFollowTail (env : Env) (paneId : Bytes) (enabled : Bool) :
    SoundEntry (setPaneFollowTail env paneId enabled) := by
  refine soundEntry_bind (soundEntry_view _) fun nodeId => ?_
  cases nodeId with
  | none => exact soundEntry_throw _
  | some x =>
      exact soundEntry_bind (soundEntry_onDocument (setFollowTail_settled x enabled)) fun _ =>
        sound_notifyInvalidate env x .metadata

theorem sound_tryApplyWindowRenamed (env : Env) (windowId windowName : Bytes) :
    SoundEntry (tryApplyWindowRenamed env windowId windowName) := by
  refine soundEntry_bind (soundEntry_view _) fun node => ?_
  cases node with
  | none => exact soundEntry_pure _
  | some node =>
      have hkeep := keepsLinks_setTitle windowName
      have hedit : SoundEntry (modify fun e =>
          { e with document := e.document.modifyNode node.id (·.setTitle windowName) }) :=
        fun e he => ⟨⟨he.valid.modifyNode hkeep (fun _ => rfl) _,
          he.tidy.modifyNode (fun _ => rfl) fun _ _ => rfl⟩, evolves_modifyNode _ _ hkeep⟩
      exact soundEntry_bind hedit fun _ => soundEntry_bind (soundEntry_view _) fun _ =>
        soundEntry_pure _

/-- What is left when an error is dropped. -/
theorem sound_dropError {α : Type} {f : EntryAction α} (hf : SoundEntry f) (a : α) :
    SoundEntry (tryCatch f fun failure =>
      match failure with
      | .error _ => pure a
      | failure => throw failure) := by
  refine hf.tryCatch entry_progress fun failure => ?_
  cases failure with
  | error e => exact soundEntry_pure _
  | panic p => exact soundEntry_throw _
  | outOfFuel => exact soundEntry_throw _

theorem sound_tryApplyWindowClose (env : Env) (windowId : Bytes) :
    SoundEntry (tryApplyWindowClose env windowId) := by
  refine soundEntry_bind (soundEntry_view _) fun node => ?_
  cases node with
  | none => exact soundEntry_pure _
  | some node =>
      refine soundEntry_bind (sound_dropError (soundEntry_bind (soundEntry_onDocument
        (removeSubtree_settled node.id)) fun _ => soundEntry_pure _) _) fun removed => ?_
      cases removed with
      | false => exact soundEntry_pure _
      | true => exact soundEntry_bind soundEntry_markTopologyChanged fun _ => soundEntry_view _

/-- What is found by a pane is a tty node of the pane. -/
theorem findNodeIdByPaneId_some {d : Document} {paneId : Bytes} {x : Nat}
    (h : findNodeIdByPaneId d paneId = .ok (some x)) :
    ∃ n, d.lookup x = some n ∧ ttyPaneId n.source = some paneId := by
  unfold findNodeIdByPaneId at h
  split at h
  · have htest := test_of_findM? h
    cases hx : d.findNode x with
    | error f =>
        rw [hx] at htest
        cases htest
    | ok found =>
        rw [hx, ok_bind] at htest
        cases found with
        | none => cases htest
        | some n => exact ⟨n, findNode_eq_some hx, beq_iff_eq.mp (Except.ok.inj htest)⟩
  · cases h
  · cases h

/-- A node that is found by its pane is not the root, which shows no source. -/
theorem ne_root_of_findNodeIdByPaneId {d : Document} (htidy : Tidy d) {paneId : Bytes}
    {x : Nat} (h : findNodeIdByPaneId d paneId = .ok (some x)) : x ≠ 1 := by
  rintro rfl
  obtain ⟨n, hn, hpane⟩ := findNodeIdByPaneId_some h
  rw [(htidy 1 n hn).plain rfl] at hpane
  cases hpane

theorem sound_removePaneNode {x : Nat} (hx1 : x ≠ 1) : SoundEntry (removePaneNode x) := by
  have hremove : SoundEntry (DocumentEntry.onDocument (Document.removeNode x)) := by
    intro e he
    obtain ⟨hvalid, hsettles⟩ := removeNode_settled he.valid hx1
    exact ⟨⟨hvalid, hsettles.tidy he.tidy⟩, hsettles.evolves⟩
  exact soundEntry_bind (sound_dropError hremove ()) fun _ => soundEntry_markTopologyChanged

theorem sound_projectRemaining (env : Env) (visit : Nat) (remaining again : List PaneSnapshot)
    (sessionId : Bytes) : SoundEntry (projectRemaining env visit remaining again sessionId) := by
  unfold projectRemaining
  cases remaining.find? fun snapshot => snapshot.sessionId == sessionId with
  | some surviving =>
      exact soundEntry_bind (soundEntry_view _) fun _ => soundEntry_bind
        (sound_rebuildTmuxSessionProjectionForPane env visit _ again _) fun _ => soundEntry_pure _
  | none =>
      exact soundEntry_bind (sound_onTopology (removeSessionProjection_settled sessionId)) fun _ =>
        soundEntry_pure _

/-- What `closeTmuxPane` does once tmux has closed the pane and its node is gone. -/
theorem sound_afterClose (env : Env) (visit : Nat) (remaining again : List PaneSnapshot)
    (sessionId : Option Bytes) : SoundEntry (do
      if let some knownSessionId := sessionId then
        projectRemaining env visit remaining again knownSessionId
      refreshSourcesForDocument env (visit + 1)) := by
  cases sessionId with
  | none => exact sound_refreshSourcesForDocument env (visit + 1)
  | some s =>
      exact soundEntry_bind (sound_projectRemaining env visit remaining again s) fun _ =>
        sound_refreshSourcesForDocument env (visit + 1)

theorem sound_closeTmuxPane (env : Env) (visit : Nat) (remaining again : List PaneSnapshot)
    (paneId : Bytes) : SoundEntry (closeTmuxPane env visit remaining again paneId) := by
  refine Action.Advances.bind_of entry_progress (soundEntry_view _) ?_
  intro e nodeId e' he hfound he'
  have hnotRoot : ∀ x, nodeId = some x → x ≠ 1 := by
    intro x hx
    subst hx
    exact ne_root_of_findNodeIdByPaneId he.tidy (Prod.ext_iff.mp hfound).1
  have hprojected := sound_afterClose env visit remaining again
  cases nodeId with
  | none => exact soundEntry_bind (soundEntry_view _) (fun s => hprojected s) e' he'
  | some x =>
      exact soundEntry_bind (soundEntry_view _) (fun s => soundEntry_bind
        (sound_removePaneNode (hnotRoot x rfl)) fun _ => hprojected s) e' he'

end Sequential

open Daemon.Sequential in
theorem sound_storeCall (env : Env) (documentPath : Bytes) (call : StoreCall) :
    SoundEntry (call.reading env documentPath) := by
  cases call with
  | appendNode p kind title =>
      exact soundEntry_effect (sound_appendNode env documentPath p kind title)
  | updateNode x title content => exact sound_updateNode env x title content
  | appendTextChunk x chunk => exact sound_appendTextChunk env x chunk
  | attachSyntheticTty p title sessionName =>
      exact soundEntry_effect (sound_attachSyntheticTty env documentPath p title sessionName)
  | pushSyntheticTtyChunk x chunk => exact sound_pushSyntheticTtyChunk env x chunk
  | attachFile path mode => exact soundEntry_effect (sound_attachLeaf env documentPath _ path _)
  | attachTty sessionName =>
      exact soundEntry_effect (sound_attachLeaf env documentPath _ sessionName _)
  | removeNode x => exact sound_removeNode env x
  | setViewRoot x => exact soundEntry_onDocument (setViewRoot_settled x)
  | clearViewRoot => exact soundEntry_onDocument clearViewRoot_settled
  | toggleElided x => exact soundEntry_onDocument (toggleElided_settled x)
  | expandNode x => exact soundEntry_onDocument (setElided_settled x false)
  | resetView => exact soundEntry_onDocument resetView_settled
  | freezeNode x artifactKind => exact sound_freezeTerminalNode env x artifactKind
  | freezeDocument => exact soundEntry_onDocument freeze_settled
  | setFileFollowTail x enabled => exact sound_setFileFollowTail env x enabled
  | refreshSources visit => exact sound_refreshSourcesForDocument env visit
  | rebuildTmuxSession visit p snapshots =>
      exact soundEntry_effect (sound_rebuildTmuxSessionProjection env visit p snapshots)
  | projectNewPane visit p snapshots paneId =>
      exact soundEntry_effect (sound_projectNewPane env visit p snapshots paneId)
  | reconcileTmuxState visit snapshots => exact sound_reconcileTmuxState env visit snapshots
  | closeTmuxPane visit remaining again paneId =>
      exact sound_closeTmuxPane env visit remaining again paneId
  | captureTmuxPane paneId capture => exact sound_captureTmuxPane env paneId capture
  | tmuxOutput paneId normalized => exact sound_appendTmuxPaneOutput env paneId normalized
  | windowRenamed windowId windowName =>
      exact soundEntry_effect (sound_tryApplyWindowRenamed env windowId windowName)
  | windowClose windowId => exact sound_tryApplyWindowClose env windowId
  | setPaneFollowTail paneId enabled => exact sound_setPaneFollowTail env paneId enabled

/-! ## Runs -/

/-- One call of a run. -/
theorem sane_leaves {e : DocumentEntry} (he : Sane e) (env : Env) (documentPath : Bytes)
    (call : StoreCall) :
    Sane ((call.program env documentPath).leaves e) ∧
      Evolves e.document ((call.program env documentPath).leaves e).document := by
  rw [(alone_storeCall env documentPath call).leaves]
  exact sound_storeCall env documentPath call e he

theorem sane_afterStoreCalls {e : DocumentEntry} (he : Sane e) (documentPath : Bytes)
    (calls : List (Env × StoreCall)) :
    Sane (afterStoreCalls documentPath e calls) ∧
      Evolves e.document (afterStoreCalls documentPath e calls).document := by
  induction calls generalizing e with
  | nil => exact ⟨he, evolves_progress.refl _⟩
  | cons call rest ih =>
      obtain ⟨hsane, hstep⟩ := sane_leaves he call.1 documentPath call.2
      obtain ⟨hrest, hlater⟩ := ih hsane
      exact ⟨hrest, evolves_progress.trans hstep hlater⟩

theorem sane_cappedEntry (documentPath : Bytes) (id : Nat) (title : Bytes)
    (maxContentBytes : UInt64) : Sane (cappedEntry documentPath id title maxContentBytes) where
  valid := valid_cappedEntry documentPath id title maxContentBytes
  tidy := tidy_init id title

/-- An id that was live and is dead stays dead. -/
theorem stays_removed {e : DocumentEntry} (he : Sane e) (documentPath : Bytes)
    (calls more : List (Env × StoreCall)) {x : Nat} {n : Node}
    (hlive : e.document.findNode x = .ok (some n))
    (hdead : (afterStoreCalls documentPath e calls).document.findNode x = .ok none) :
    (afterStoreCalls documentPath e (calls ++ more)).document.findNode x = .ok none := by
  have hx := findNode_eq_some hlive
  rw [findNode_of_ne_zero (lookup_pos hx)] at hdead ⊢
  obtain ⟨hsane, hevolves⟩ := sane_afterStoreCalls he documentPath calls
  obtain ⟨-, hmore⟩ := sane_afterStoreCalls hsane documentPath more
  have hbelow : x < (afterStoreCalls documentPath e calls).document.nextNodeId :=
    (he.valid.shape.lookup_lt hx).trans_le hevolves.next
  rw [afterStoreCalls_append, hmore.dead hbelow (Except.ok.inj hdead)]

/-- What holds of a document between two calls. -/
structure Kept (d : Document) : Prop where
  validates : ∃ summary, d.validate = .ok summary
  elidedNodup : d.elidedNodeIds.Nodup
  slot : ∀ i n, d.nodeSlots[i]? = some (some n) → n.id = i + 1 ∧ n.id < d.nextNodeId

theorem Sane.kept {e : DocumentEntry} (he : Sane e) : Kept e.document where
  validates := ⟨_, he.valid.validate_ok⟩
  elidedNodup := he.valid.elidedNodup
  slot i n hslot := by
    have hx : e.document.lookup (i + 1) = some n := by
      show (e.document.nodeSlots[i]?).join = some n
      rw [hslot]
      rfl
    have hid := he.valid.shape.id_eq hx
    exact ⟨hid, hid ▸ he.valid.shape.lookup_lt hx⟩

/-- After any calls on a new document with a cap, each of which may succeed or fail, the document
validates, its slots hold their own nodes, and an id that was removed is never live again. -/
theorem store_calls_keep (documentPath : Bytes) (id : Nat) (title : Bytes)
    (maxContentBytes : UInt64) (calls : List (Env × StoreCall)) :
    let after := fun calls =>
      (afterStoreCalls documentPath (cappedEntry documentPath id title maxContentBytes)
        calls).document
    Kept (after calls) ∧
      ∀ earlier middle later x n, calls = earlier ++ middle ++ later →
        (after earlier).findNode x = .ok (some n) → (after (earlier ++ middle)).findNode x = .ok none →
        (after calls).findNode x = .ok none := by
  intro after
  have hnew := sane_cappedEntry documentPath id title maxContentBytes
  refine ⟨(sane_afterStoreCalls hnew documentPath calls).1.kept, ?_⟩
  intro earlier middle later x n hcalls hlive hdead
  have hearlier := (sane_afterStoreCalls hnew documentPath earlier).1
  simp only [after, afterStoreCalls_append] at hdead
  have hgone := stays_removed hearlier documentPath middle later hlive hdead
  rwa [← afterStoreCalls_append, ← List.append_assoc, ← hcalls] at hgone

end Muxly.Daemon
