/-
# Muxly.Daemon.Sequential -- the store operations, one after another

What each operation of `Muxly.Daemon.Operations` does to the entry when no other thread runs: the
same steps without the locks. `alone_` connects each reading to the program it reads; statements
about sequences of operations are proved about the readings and hold of the programs.
-/
import Mathlib.Init
import Muxly.Daemon.Operations
import Muxly.Sync.Alone

namespace Muxly.Daemon

open Muxly.Control Muxly.Core Muxly.Sync Program

/-- Code on one document entry. -/
abbrev EntryAction (α : Type) : Type := Action DocumentEntry Failure α

/-- None of the mutexes that the operations take is held. -/
structure HandlerFree (held : List Mutex) : Prop where
  globalStructureFallback : Mutex.globalStructureFallback ∉ held
  parent : ∀ parentId, Mutex.parent parentId ∉ held
  nodeRegistry : Mutex.nodeRegistry ∉ held
  contentBytes : Mutex.contentBytes ∉ held

theorem handlerFree_nil : HandlerFree [] where
  globalStructureFallback := by simp
  parent := by simp
  nodeRegistry := by simp
  contentBytes := by simp

/-! ## Readings -/

namespace Sequential

/-- `withStableNode`. -/
def withStableNode {α : Type} (nodeId : Nat) (check : Node → Except Failure Unit)
    (body : EntryAction α) : EntryAction α := do
  Action.view fun e => do check (← e.document.nodeOr nodeId .unknownNode)
  body

/-- `replaceNodeContentWithAccounting`. -/
def replaceNodeContentWithAccounting (nodeId : Nat) (content : Bytes) : EntryAction Bool :=
  withStableNode nodeId (fun _ => .ok ()) <|
    DocumentEntry.onDocument (replaceStableNodeContent nodeId content)

/-- `appendNodeContentWithAccounting`. -/
def appendNodeContentWithAccounting (nodeId : Nat) (chunk : Bytes) : EntryAction Unit :=
  withStableNode nodeId (fun _ => .ok ()) <|
    DocumentEntry.onDocument (Document.appendTextToStableNode nodeId chunk)

/-- `notifyInvalidate`. -/
def notifyInvalidate (env : Env) (nodeId : Nat) (reason : ProjectionEventReason) :
    EntryAction Unit := Action.view fun e => env.onInvalidate e.document nodeId reason

/-- `notifyTtyData`. -/
def notifyTtyData (env : Env) (nodeId : Nat) (chunk : Bytes) : EntryAction Unit :=
  Action.view fun e => env.onTtyData e.document nodeId chunk

/-- `setNodeContentFromSource`. -/
def setNodeContentFromSource (env : Env) (nodeId : Nat) (content : Bytes) : EntryAction Unit := do
  let changed ← replaceNodeContentWithAccounting nodeId content
  if changed then notifyInvalidate env nodeId .content

/-- `appendTextChunk`. -/
def appendTextChunk (env : Env) (nodeId : Nat) (chunk : Bytes) : EntryAction Unit := do
  appendNodeContentWithAccounting nodeId chunk
  notifyInvalidate env nodeId .content

/-- `pushSyntheticTtyChunk`. -/
def pushSyntheticTtyChunk (env : Env) (nodeId : Nat) (chunk : Bytes) : EntryAction Unit :=
  withStableNode nodeId isSyntheticTty do
    DocumentEntry.onDocument (Document.appendTextToStableNode nodeId chunk)
    notifyInvalidate env nodeId .content
    notifyTtyData env nodeId chunk

/-- `updateNode`. -/
def updateNode (env : Env) (nodeId : Nat) (title content : Option Bytes) : EntryAction Unit := do
  if let some title := title then DocumentEntry.onDocument (Document.setNodeTitle nodeId title)
  if let some content := content then
    let _ ← replaceNodeContentWithAccounting nodeId content
  notifyInvalidate env nodeId (if content.isSome then .content else .metadata)

/-- `appendNodeWithRuntime`. -/
def appendNodeWithRuntime (documentPath : Bytes) (parentId : Nat) (kind : NodeKind) (title : Bytes)
    (source : Source) : EntryAction Nat := do
  let _ ←
    if documentUsesGlobalStructuralFallback documentPath then pure false
    else Action.view fun e => appendNeedsCoordinatorParentLock e.document parentId
  commitAppend parentId kind title source

/-- `appendNode`. -/
def appendNode (env : Env) (documentPath : Bytes) (parentId : Nat) (kind : NodeKind)
    (title : Bytes) : EntryAction Nat := do
  let nodeId ← appendNodeWithRuntime documentPath parentId kind title .none
  notifyInvalidate env nodeId .structural
  return nodeId

/-- `removeNodeWithRuntime`. -/
def removeNodeWithRuntime (nodeId : Nat) : EntryAction Unit := do
  let (mode, parentId) ← Action.view fun e => resolveRemoval e.document nodeId
  let (postorder, totalContentBytes) ← Action.view fun e => measureRemoval e.document mode nodeId
  commitRemoval parentId nodeId postorder totalContentBytes

/-- `removeNode`. -/
def removeNode (env : Env) (nodeId : Nat) : EntryAction Unit := do
  removeNodeWithRuntime nodeId
  notifyInvalidate env nodeId .structural

/-- `refreshSource`. -/
def refreshSource (env : Env) (visit nodeId : Nat) : EntryAction Unit := do
  let node ← Action.view fun e => e.document.findNode nodeId
  match node.bind fun node => refreshedContent env visit nodeId node.source with
  | some content => setNodeContentFromSource env nodeId content
  | none => pure ()

/-- `refreshSourcesForDocument`. -/
def refreshSourcesForDocument (env : Env) (visit : Nat) : EntryAction Unit := do
  let nodeIds ← Action.view fun e => e.document.collectPreorderNodeIds
  nodeIds.forM (refreshSource env visit)

/-- `attachLeaf`. -/
def attachLeaf (env : Env) (documentPath : Bytes) (kind : NodeKind) (title : Bytes)
    (source : Source) : EntryAction Nat := do
  let rootNodeId ← Action.view fun e => .ok e.document.rootNodeId
  let nodeId ← appendNodeWithRuntime documentPath rootNodeId kind title source
  refreshSourcesForDocument env 0
  notifyInvalidate env nodeId .structural
  return nodeId

/-- `attachFile`. -/
def attachFile (env : Env) (documentPath path : Bytes) (mode : FileMode) : EntryAction Nat :=
  let kind : NodeKind :=
    match mode with
    | .monitored => .monitoredFileLeaf
    | .static => .staticFileLeaf
  attachLeaf env documentPath kind path (.file { path := path, mode := mode })

/-- `attachTty`. -/
def attachTty (env : Env) (documentPath sessionName : Bytes) : EntryAction Nat :=
  attachLeaf env documentPath .ttyLeaf sessionName
    (.tty { sessionName := sessionName, windowId := none, paneId := none })

/-- `attachSyntheticTty`. -/
def attachSyntheticTty (env : Env) (documentPath : Bytes) (parentId : Nat)
    (title sessionName : Bytes) : EntryAction Nat := do
  let nodeId ← appendNodeWithRuntime documentPath parentId .ttyLeaf title
    (.tty { sessionName := sessionName, windowId := none, paneId := none })
  notifyInvalidate env nodeId .structural
  return nodeId

/-- `setFileFollowTail`. -/
def setFileFollowTail (env : Env) (nodeId : Nat) (enabled : Bool) : EntryAction Unit := do
  DocumentEntry.onDocument do
    let node ← Action.view fun d => d.nodeOr nodeId .unknownNode
    Action.lift (requireFileSource node)
    modify (·.modifyNode nodeId fun node => { node with followTail := enabled })
  notifyInvalidate env nodeId .metadata

/-- `captureTerminalArtifact`. -/
def captureTerminalArtifact (env : Env) (nodeId : Nat) (artifactKind : TerminalArtifactKind) :
    EntryAction TerminalArtifactSections := do
  let (content, sections) ← Action.view fun e => do
    artifactCapture env nodeId artifactKind (← artifactPane e.document nodeId)
  let _ ← replaceNodeContentWithAccounting nodeId content
  return sections

/-- `freezeTerminalNode`. -/
def freezeTerminalNode (env : Env) (nodeId : Nat) (artifactKind : TerminalArtifactKind) :
    EntryAction Unit := do
  let sections ← captureTerminalArtifact env nodeId artifactKind
  DocumentEntry.onDocument (Document.freezeTtyNodeAsArtifact nodeId artifactKind sections)
  notifyInvalidate env nodeId .structural

end Sequential

/-! ## The programs do what their readings say -/

variable {held : List Mutex}

/-- The content mutex is taken before the registry mutex is given back. -/
theorem alone_withStableNode {α : Type} (hfree : HandlerFree held) (nodeId : Nat)
    (check : Node → Except Failure Unit) {body : EntryM α} {f : EntryAction α}
    (hbody : Alone (.contentBytes :: held) body f) :
    Alone held (withStableNode nodeId check body) (Sequential.withStableNode nodeId check f) := by
  intro e
  have hcontent : Mutex.contentBytes ∉ Mutex.nodeRegistry :: held := by
    simp [hfree.contentBytes]
  have herase : (Mutex.contentBytes :: Mutex.nodeRegistry :: held).erase .nodeRegistry
      = .contentBytes :: held := by simp
  have hrun : ∀ e, solo (ensure body (release .contentBytes)) (.contentBytes :: held) e
      = (.done (f e).1, held, (f e).2) :=
    hbody.ensure fun e => by rw [solo_release, List.erase_cons_head]
  show solo (.lock .nodeRegistry (bindResult (onError (Program.read _) _) _)) held e = _
  rw [solo, if_neg hfree.nodeRegistry, solo_bindResult, solo_onError_read,
    Sequential.withStableNode, Action.bind_apply, Action.view_apply]
  generalize (do check (← e.document.nodeOr nodeId .unknownNode) : Except Failure Unit) = found
  cases found with
  | error failure => rfl
  | ok _ =>
      show solo (.lock .contentBytes (.unlock .nodeRegistry _)) (.nodeRegistry :: held) e = _
      rw [solo, if_neg hcontent, solo, herase]
      exact hrun e

theorem alone_onDocument {α : Type} (m : DocM α) :
    Alone held (onDocument m) (DocumentEntry.onDocument m) := alone_act _

theorem alone_notifyInvalidate (env : Env) (nodeId : Nat) (reason : ProjectionEventReason) :
    Alone held (notifyInvalidate env nodeId reason)
      (Sequential.notifyInvalidate env nodeId reason) := alone_read _

theorem alone_replaceNodeContentWithAccounting (hfree : HandlerFree held) (nodeId : Nat)
    (content : Bytes) :
    Alone held (replaceNodeContentWithAccounting nodeId content)
      (Sequential.replaceNodeContentWithAccounting nodeId content) :=
  alone_withStableNode hfree _ _ (alone_onDocument _)

theorem alone_appendNodeContentWithAccounting (hfree : HandlerFree held) (nodeId : Nat)
    (chunk : Bytes) :
    Alone held (appendNodeContentWithAccounting nodeId chunk)
      (Sequential.appendNodeContentWithAccounting nodeId chunk) :=
  alone_withStableNode hfree _ _ (alone_onDocument _)

theorem alone_setNodeContentFromSource (hfree : HandlerFree held) (env : Env) (nodeId : Nat)
    (content : Bytes) :
    Alone held (setNodeContentFromSource env nodeId content)
      (Sequential.setNodeContentFromSource env nodeId content) := by
  refine (alone_replaceNodeContentWithAccounting hfree nodeId content).bind fun changed => ?_
  cases changed with
  | true => exact alone_read _
  | false => exact alone_pure _

theorem alone_appendTextChunk (hfree : HandlerFree held) (env : Env) (nodeId : Nat)
    (chunk : Bytes) :
    Alone held (appendTextChunk env nodeId chunk) (Sequential.appendTextChunk env nodeId chunk) :=
  (alone_appendNodeContentWithAccounting hfree nodeId chunk).bind fun _ => alone_read _

theorem alone_pushSyntheticTtyChunk (hfree : HandlerFree held) (env : Env) (nodeId : Nat)
    (chunk : Bytes) :
    Alone held (pushSyntheticTtyChunk env nodeId chunk)
      (Sequential.pushSyntheticTtyChunk env nodeId chunk) := by
  apply alone_withStableNode hfree
  exact (alone_onDocument _).bind fun _ => (alone_read _).bind fun _ => alone_read _

theorem alone_updateNode (hfree : HandlerFree held) (env : Env) (nodeId : Nat)
    (title content : Option Bytes) :
    Alone held (updateNode env nodeId title content)
      (Sequential.updateNode env nodeId title content) := by
  have hcontent : Alone held
      (do
        if let some content := content then
          let _ ← replaceNodeContentWithAccounting nodeId content
        notifyInvalidate env nodeId (if content.isSome then .content else .metadata))
      (do
        if let some content := content then
          let _ ← Sequential.replaceNodeContentWithAccounting nodeId content
        Sequential.notifyInvalidate env nodeId
          (if content.isSome then .content else .metadata)) := by
    cases content with
    | none => exact alone_read _
    | some content =>
        exact (alone_replaceNodeContentWithAccounting hfree nodeId content).bind fun _ =>
          alone_read _
  cases title with
  | none => exact hcontent
  | some title => exact (alone_onDocument _).bind fun _ => hcontent

theorem alone_appendNodeWithRuntime (hfree : HandlerFree held) (documentPath : Bytes)
    (parentId : Nat) (kind : NodeKind) (title : Bytes) (source : Source) :
    Alone held (appendNodeWithRuntime documentPath parentId kind title source)
      (Sequential.appendNodeWithRuntime documentPath parentId kind title source) := by
  have hcommit : ∀ {held : List Mutex}, Mutex.nodeRegistry ∉ held →
      Alone held
        (withMutex .nodeRegistry (act (commitAppend parentId kind title source)) : EntryM Nat)
        (commitAppend parentId kind title source) :=
    fun h => .withMutex h (alone_act _)
  unfold appendNodeWithRuntime Sequential.appendNodeWithRuntime
  by_cases hglobal : documentUsesGlobalStructuralFallback documentPath = true
  · simp only [hglobal, whenLocked, if_true]
    apply Alone.withMutex hfree.globalStructureFallback
    have hregistry : Mutex.nodeRegistry ∉ Mutex.globalStructureFallback :: held := by
      simp [hfree.nodeRegistry]
    exact hcommit hregistry
  · simp only [hglobal, whenLocked, Bool.false_eq_true, if_false]
    refine (Alone.withMutex hfree.nodeRegistry (alone_read _)).bind fun needsParentLock => ?_
    cases needsParentLock with
    | true => exact .withMutex (hfree.parent parentId) (hcommit (by simp [hfree.nodeRegistry]))
    | false => exact hcommit hfree.nodeRegistry

theorem alone_appendNode (hfree : HandlerFree held) (env : Env) (documentPath : Bytes)
    (parentId : Nat) (kind : NodeKind) (title : Bytes) :
    Alone held (appendNode env documentPath parentId kind title)
      (Sequential.appendNode env documentPath parentId kind title) :=
  (alone_appendNodeWithRuntime hfree documentPath parentId kind title .none).bind fun _ =>
    (alone_read _).bind fun _ => alone_pure _

theorem alone_removeNodeWithRuntime (hfree : HandlerFree held) (documentPath : Bytes)
    (nodeId : Nat) :
    Alone held (removeNodeWithRuntime documentPath nodeId)
      (Sequential.removeNodeWithRuntime nodeId) := by
  have hcommit : ∀ {held : List Mutex} (mode : RemoveExecutionMode) (parentId : Nat),
      Mutex.nodeRegistry ∉ held → Mutex.contentBytes ∉ held →
      Alone held
        (withMutex .nodeRegistry do
          let (postorder, totalContentBytes) ←
            actTag (fun e => (measureRemoval e.document mode nodeId, e))
              (measuredPhase mode nodeId)
          withMutex .contentBytes <|
            actTag (commitRemoval parentId nodeId postorder totalContentBytes) fun _ =>
              GuardPhase.record fun grant => { grant with measured := none } : EntryM Unit)
        (do
          let (postorder, totalContentBytes) ←
            Action.view fun e => measureRemoval e.document mode nodeId
          commitRemoval parentId nodeId postorder totalContentBytes) := by
    intro held mode parentId hregistry hcontent
    apply Alone.withMutex hregistry
    refine (alone_actTag _ _).bind fun measured => ?_
    exact .withMutex (by simp [hcontent]) (alone_actTag _ _)
  have hsections : ∀ {held : List Mutex} (useGlobalFallback : Bool),
      Mutex.nodeRegistry ∉ held → Mutex.contentBytes ∉ held →
      (∀ parentId, Mutex.parent parentId ∉ held) →
      Alone held (do
        let (mode, parentId) ←
          withMutex .nodeRegistry (read fun e => resolveRemoval e.document nodeId)
        whenLocked
            (!useGlobalFallback && (mode = .leafCoordinator || mode = .recursiveCoordinatorSafe))
            (.parent parentId) <|
          withMutex .nodeRegistry do
            let (postorder, totalContentBytes) ←
              actTag (fun e => (measureRemoval e.document mode nodeId, e))
                (measuredPhase mode nodeId)
            withMutex .contentBytes <|
              actTag (commitRemoval parentId nodeId postorder totalContentBytes) fun _ =>
                GuardPhase.record fun grant => { grant with measured := none })
        (Sequential.removeNodeWithRuntime nodeId) := by
    intro held useGlobalFallback hregistry hcontent hparent
    refine (Alone.withMutex hregistry (alone_read _)).bind fun (mode, parentId) => ?_
    simp only [whenLocked]
    split
    · exact .withMutex (hparent parentId)
        (hcommit mode parentId (by simp [hregistry]) (by simp [hcontent]))
    · exact hcommit mode parentId hregistry hcontent
  unfold removeNodeWithRuntime
  by_cases hglobal : documentUsesGlobalStructuralFallback documentPath = true
  · simp only [hglobal]
    exact .withMutex hfree.globalStructureFallback (hsections true (by simp [hfree.nodeRegistry])
      (by simp [hfree.contentBytes]) fun parentId => by simp [hfree.parent parentId])
  · simp only [hglobal]
    exact hsections false hfree.nodeRegistry hfree.contentBytes hfree.parent

theorem alone_removeNode (hfree : HandlerFree held) (env : Env) (documentPath : Bytes)
    (nodeId : Nat) :
    Alone held (removeNode env documentPath nodeId) (Sequential.removeNode env nodeId) :=
  (alone_removeNodeWithRuntime hfree documentPath nodeId).bind fun _ => alone_read _

theorem alone_refreshSource (hfree : HandlerFree held) (env : Env) (visit nodeId : Nat) :
    Alone held (refreshSource env visit nodeId) (Sequential.refreshSource env visit nodeId) := by
  refine (alone_read _).bind fun node => ?_
  cases node.bind fun node => refreshedContent env visit nodeId node.source with
  | none => exact alone_pure _
  | some content => exact alone_setNodeContentFromSource hfree env nodeId content

theorem alone_refreshSourcesForDocument (hfree : HandlerFree held) (env : Env) (visit : Nat) :
    Alone held (refreshSourcesForDocument env visit)
      (Sequential.refreshSourcesForDocument env visit) :=
  (alone_read _).bind fun _ => .forEach fun nodeId _ => alone_refreshSource hfree env visit nodeId

theorem alone_attachLeaf (hfree : HandlerFree held) (env : Env) (documentPath : Bytes)
    (kind : NodeKind) (title : Bytes) (source : Source) :
    Alone held (attachLeaf env documentPath kind title source)
      (Sequential.attachLeaf env documentPath kind title source) :=
  (alone_read _).bind fun rootNodeId =>
    (alone_appendNodeWithRuntime hfree documentPath rootNodeId kind title source).bind fun _ =>
      (alone_refreshSourcesForDocument hfree env 0).bind fun _ =>
        (alone_read _).bind fun _ => alone_pure _

theorem alone_attachSyntheticTty (hfree : HandlerFree held) (env : Env) (documentPath : Bytes)
    (parentId : Nat) (title sessionName : Bytes) :
    Alone held (attachSyntheticTty env documentPath parentId title sessionName)
      (Sequential.attachSyntheticTty env documentPath parentId title sessionName) :=
  (alone_appendNodeWithRuntime hfree documentPath parentId .ttyLeaf title _).bind fun _ =>
    (alone_read _).bind fun _ => alone_pure _

theorem alone_setFileFollowTail (env : Env) (nodeId : Nat) (enabled : Bool) :
    Alone held (setFileFollowTail env nodeId enabled)
      (Sequential.setFileFollowTail env nodeId enabled) :=
  (alone_onDocument _).bind fun _ => alone_read _

theorem alone_captureTerminalArtifact (hfree : HandlerFree held) (env : Env) (nodeId : Nat)
    (artifactKind : TerminalArtifactKind) :
    Alone held (captureTerminalArtifact env nodeId artifactKind)
      (Sequential.captureTerminalArtifact env nodeId artifactKind) :=
  (alone_read _).bind fun captured =>
    (alone_replaceNodeContentWithAccounting hfree nodeId captured.1).bind fun _ => alone_pure _

theorem alone_freezeTerminalNode (hfree : HandlerFree held) (env : Env) (nodeId : Nat)
    (artifactKind : TerminalArtifactKind) :
    Alone held (freezeTerminalNode env nodeId artifactKind)
      (Sequential.freezeTerminalNode env nodeId artifactKind) :=
  (alone_captureTerminalArtifact hfree env nodeId artifactKind).bind fun _ =>
    (alone_onDocument _).bind fun _ => alone_read _

end Muxly.Daemon
