/-
# Muxly.Daemon.Operations -- the store operations on one document

The functions of `store.zig` that read or change one document, as programs over its mutexes. What
the daemon learns from outside while it handles one request (pane captures, file contents, whether
the debug methods are on) and what its projection streams do with a notification are given by an
`Env`; a refresh of the sources carries the number of the visit, so that two refreshes of one
request may see different contents.
-/
import Muxly.Daemon.Reconcile
import Muxly.Daemon.Runtime

namespace Muxly.Daemon

open Muxly.Control Muxly.Core Muxly.Sync Program

/-- `ProjectionEventReason`. -/
inductive ProjectionEventReason where
  | content
  | metadata
  /-- `structure`. -/
  | structural
  | targetGone
  deriving DecidableEq

/-- The surroundings of one request. -/
structure Env where
  /-- `debugRpcEnabled`. -/
  debugRpcEnabled : Bool
  /-- `tmux.capturePane` for a visit, a node and its pane. -/
  capturePane : Nat → Nat → Bytes → Except Bytes Bytes
  /-- `tmux.capturePaneVisible` and `tmux.capturePaneAlternate`. -/
  captureSurface : Nat → Bytes → Except Bytes (Bytes × Bytes)
  /-- `readPathAlloc` for a visit, a node and its path. -/
  readPath : Nat → Nat → Bytes → Except Bytes Bytes
  /-- `on_invalidate` of the projection notifier. -/
  onInvalidate : Document → Nat → ProjectionEventReason → Except Failure Unit
  /-- `on_tty_data` of the projection notifier. -/
  onTtyData : Document → Nat → Bytes → Except Failure Unit

/-! ## Building blocks -/

/-- `documentUsesGlobalStructuralFallback`. -/
def documentUsesGlobalStructuralFallback (documentPath : Bytes) : Bool :=
  documentPath = rootDocumentPath

/-- Hold `m` while `body` runs, if `enabled`. -/
def whenLocked {α : Type} (enabled : Bool) (m : Mutex) (body : EntryM α) : EntryM α :=
  if enabled then withMutex m body else body

/-- A mutation of `document.zig` as one data step. -/
def onDocument {α : Type} (m : DocM α) : EntryM α := act (DocumentEntry.onDocument m)

/-- `notifyInvalidate`. -/
def notifyInvalidate (env : Env) (nodeId : Nat) (reason : ProjectionEventReason) : EntryM Unit :=
  read fun e => env.onInvalidate e.document nodeId reason

/-- `notifyTtyData`. -/
def notifyTtyData (env : Env) (nodeId : Nat) (chunk : Bytes) : EntryM Unit :=
  read fun e => env.onTtyData e.document nodeId chunk

/-- Find a node under the registry mutex, take the content mutex before the registry mutex is
given back, and run `body` on the node under the content mutex. -/
def withStableNode {α : Type} (nodeId : Nat) (check : Node → Except Failure Unit)
    (body : EntryM α) : EntryM α := do
  acquire .nodeRegistry
  onError (read fun e => do check (← e.document.nodeOr nodeId .unknownNode)) (release .nodeRegistry)
  acquire .contentBytes
  release .nodeRegistry
  ensure body (release .contentBytes)

/-! ## Content -/

/-- The write of `replaceNodeContentWithAccounting`: whether the content changed. -/
def replaceStableNodeContent (nodeId : Nat) (content : Bytes) : DocM Bool := do
  let node ← Action.view fun d => d.deref nodeId
  if node.content = content then return false
  Document.setStableNodeContent nodeId content
  return true

/-- `replaceNodeContentWithAccounting`. -/
def replaceNodeContentWithAccounting (nodeId : Nat) (content : Bytes) : EntryM Bool :=
  withStableNode nodeId (fun _ => .ok ()) <| onDocument (replaceStableNodeContent nodeId content)

/-- `appendNodeContentWithAccounting`. -/
def appendNodeContentWithAccounting (nodeId : Nat) (chunk : Bytes) : EntryM Unit :=
  withStableNode nodeId (fun _ => .ok ()) <|
    onDocument (Document.appendTextToStableNode nodeId chunk)

/-- `setNodeContentFromSource`. -/
def setNodeContentFromSource (env : Env) (nodeId : Nat) (content : Bytes) : EntryM Unit := do
  let changed ← replaceNodeContentWithAccounting nodeId content
  if changed then notifyInvalidate env nodeId .content

/-- `appendTextChunk`. -/
def appendTextChunk (env : Env) (nodeId : Nat) (chunk : Bytes) : EntryM Unit := do
  appendNodeContentWithAccounting nodeId chunk
  notifyInvalidate env nodeId .content

/-- The node of `pushSyntheticTtyChunk` is a tty leaf without a pane. -/
def isSyntheticTty (node : Node) : Except Failure Unit :=
  match node.source with
  | .tty tty => if tty.paneId.isSome then .error (.error .invalidSourceKind) else .ok ()
  | _ => .error (.error .invalidSourceKind)

/-- `pushSyntheticTtyChunk`. -/
def pushSyntheticTtyChunk (env : Env) (nodeId : Nat) (chunk : Bytes) : EntryM Unit :=
  withStableNode nodeId isSyntheticTty do
    onDocument (Document.appendTextToStableNode nodeId chunk)
    notifyInvalidate env nodeId .content
    notifyTtyData env nodeId chunk

/-- `updateNode`. -/
def updateNode (env : Env) (nodeId : Nat) (title content : Option Bytes) : EntryM Unit := do
  if let some title := title then onDocument (Document.setNodeTitle nodeId title)
  if let some content := content then
    let _ ← replaceNodeContentWithAccounting nodeId content
  notifyInvalidate env nodeId (if content.isSome then .content else .metadata)

/-! ## Structure -/

/-- `appendNeedsCoordinatorParentLock`. -/
def appendNeedsCoordinatorParentLock (d : Document) (parentId : Nat) : Except Failure Bool := do
  if parentId = d.rootNodeId then return true
  let some parent ← d.findNode parentId | return false
  return isConcurrentContainer parent.kind

/-- The part of `appendNodeWithRuntime` under the registry mutex. -/
def commitAppend (parentId : Nat) (kind : NodeKind) (title : Bytes) (source : Source) :
    Action DocumentEntry Failure Nat := do
  let nodeId ← DocumentEntry.onDocument (Document.appendNode parentId kind title source)
  modify (·.markTopologyChanged)
  return nodeId

/-- `appendNodeWithRuntime`. -/
def appendNodeWithRuntime (documentPath : Bytes) (parentId : Nat) (kind : NodeKind) (title : Bytes)
    (source : Source) : EntryM Nat :=
  let useGlobalFallback := documentUsesGlobalStructuralFallback documentPath
  whenLocked useGlobalFallback .globalStructureFallback do
    let needsParentLock ←
      if useGlobalFallback then pure false
      else withMutex .nodeRegistry (read fun e => appendNeedsCoordinatorParentLock e.document parentId)
    whenLocked needsParentLock (.parent parentId) <|
      withMutex .nodeRegistry (act (commitAppend parentId kind title source))

/-- `appendNode`. -/
def appendNode (env : Env) (documentPath : Bytes) (parentId : Nat) (kind : NodeKind)
    (title : Bytes) : EntryM Nat := do
  let nodeId ← appendNodeWithRuntime documentPath parentId kind title .none
  notifyInvalidate env nodeId .structural
  return nodeId

/-- The first section of `removeNodeWithRuntime`: how the node is removed, and its parent. -/
def resolveRemoval (d : Document) (nodeId : Nat) : Except Failure (RemoveExecutionMode × Nat) := do
  let mode ← classifyRemoveExecutionMode d nodeId
  if mode = .rootPolicyReject ∨ mode = .unsupported then throw (.error .nodeHasChildren)
  let node ← d.nodeOr nodeId .unknownNode
  let some parentId := node.parentId | throw (.error .unknownParent)
  return (mode, parentId)

/-- The nodes that a removal takes, and their content bytes. -/
def measureRemoval (d : Document) (mode : RemoveExecutionMode) (nodeId : Nat) :
    Except Failure (List Nat × Nat) := do
  let postorder ←
    if mode = .recursiveDomainSafe ∨ mode = .recursiveCoordinatorSafe then
      d.collectSubtreePostorder nodeId
    else pure [nodeId]
  let totalContentBytes ← d.totalContentBytesForNodes postorder
  return (postorder, totalContentBytes)

/-- The phase after a removal has measured its nodes. -/
def measuredPhase (mode : RemoveExecutionMode) (nodeId : Nat) (e : DocumentEntry) :
    GuardPhase → GuardPhase :=
  GuardPhase.record fun grant =>
    match measureRemoval e.document mode nodeId with
    | .ok (_, totalContentBytes) => { grant with measured := some totalContentBytes }
    | .error _ => grant

/-- The last section of `removeNodeWithRuntime`. -/
def commitRemoval (parentId nodeId : Nat) (postorder : List Nat) (totalContentBytes : Nat) :
    Action DocumentEntry Failure Unit := do
  DocumentEntry.onDocument (Document.detachChildFromParent parentId nodeId)
  DocumentEntry.onDocument (Document.removeDetachedPostorder postorder totalContentBytes)
  modify (·.markTopologyChanged)

/-- `removeNodeWithRuntime`. -/
def removeNodeWithRuntime (documentPath : Bytes) (nodeId : Nat) : EntryM Unit :=
  let useGlobalFallback := documentUsesGlobalStructuralFallback documentPath
  whenLocked useGlobalFallback .globalStructureFallback do
    let (mode, parentId) ←
      withMutex .nodeRegistry (read fun e => resolveRemoval e.document nodeId)
    whenLocked (!useGlobalFallback && (mode = .leafCoordinator || mode = .recursiveCoordinatorSafe))
        (.parent parentId) <|
      withMutex .nodeRegistry do
        let (postorder, totalContentBytes) ←
          actTag (fun e => (measureRemoval e.document mode nodeId, e)) (measuredPhase mode nodeId)
        withMutex .contentBytes <|
          actTag (commitRemoval parentId nodeId postorder totalContentBytes) fun _ =>
            GuardPhase.record fun grant => { grant with measured := none }

/-- `removeNode`. -/
def removeNode (env : Env) (documentPath : Bytes) (nodeId : Nat) : EntryM Unit := do
  removeNodeWithRuntime documentPath nodeId
  notifyInvalidate env nodeId .structural

/-! ## Sources -/

/-- What `refreshSourcesForDocument` writes into a node, if its source is refreshed. -/
def refreshedContent (env : Env) (visit nodeId : Nat) (source : Source) : Option Bytes :=
  match source with
  | .none => none
  | .tty tty =>
    match tty.paneId with
    | some paneId =>
      match env.capturePane visit nodeId paneId with
      | .ok capture => some capture
      | .error _ => some (ascii "tty source unavailable for pane " ++ paneId ++
          ascii " in session " ++ tty.sessionName)
    | none => some (ascii "live tty source attached to session " ++ tty.sessionName)
  | .terminalArtifact _ => none
  | .file file =>
    match env.readPath visit nodeId file.path with
    | .ok content => some content
    | .error name =>
      some (ascii "file source unavailable at " ++ file.path ++ ascii ": " ++ name)

/-- One turn of `refreshSourcesForDocument`. -/
def refreshSource (env : Env) (visit nodeId : Nat) : EntryM Unit := do
  let node ← read fun e => e.document.findNode nodeId
  match node.bind fun node => refreshedContent env visit nodeId node.source with
  | some content => setNodeContentFromSource env nodeId content
  | none => pure ()

/-- `refreshSourcesForDocument`. -/
def refreshSourcesForDocument (env : Env) (visit : Nat) : EntryM Unit := do
  let nodeIds ← read fun e => e.document.collectPreorderNodeIds
  forEach nodeIds (refreshSource env visit)

/-- The shared part of `attachFile` and `attachPaneRef`: a leaf under the root, then a refresh. -/
def attachLeaf (env : Env) (documentPath : Bytes) (kind : NodeKind) (title : Bytes)
    (source : Source) : EntryM Nat := do
  let rootNodeId ← read fun e => .ok e.document.rootNodeId
  let nodeId ← appendNodeWithRuntime documentPath rootNodeId kind title source
  refreshSourcesForDocument env 0
  notifyInvalidate env nodeId .structural
  return nodeId

/-- `attachFile`. -/
def attachFile (env : Env) (documentPath path : Bytes) (mode : FileMode) : EntryM Nat :=
  let kind : NodeKind :=
    match mode with
    | .monitored => .monitoredFileLeaf
    | .static => .staticFileLeaf
  attachLeaf env documentPath kind path (.file { path := path, mode := mode })

/-- `attachTty`, through `attachPaneRef` with empty pane and window ids. -/
def attachTty (env : Env) (documentPath sessionName : Bytes) : EntryM Nat :=
  attachLeaf env documentPath .ttyLeaf sessionName
    (.tty { sessionName := sessionName, windowId := none, paneId := none })

/-- `attachSyntheticTty`. -/
def attachSyntheticTty (env : Env) (documentPath : Bytes) (parentId : Nat)
    (title sessionName : Bytes) : EntryM Nat := do
  let nodeId ← appendNodeWithRuntime documentPath parentId .ttyLeaf title
    (.tty { sessionName := sessionName, windowId := none, paneId := none })
  notifyInvalidate env nodeId .structural
  return nodeId

/-- The source of a file leaf. -/
def requireFileSource (node : Node) : Except Failure Unit :=
  match node.source with
  | .file _ => .ok ()
  | _ => .error (.error .invalidSourceKind)

/-- `captureFileNode`. -/
def captureFileNode (env : Env) (nodeId : Nat) : EntryM Bytes := do
  refreshSourcesForDocument env 0
  read fun e => do
    let node ← e.document.nodeOr nodeId .unknownNode
    requireFileSource node
    return node.content

/-- `setFileFollowTail`. -/
def setFileFollowTail (env : Env) (nodeId : Nat) (enabled : Bool) : EntryM Unit := do
  onDocument do
    let node ← Action.view fun d => d.nodeOr nodeId .unknownNode
    Action.lift (requireFileSource node)
    modify (·.modifyNode nodeId fun node => { node with followTail := enabled })
  notifyInvalidate env nodeId .metadata

/-! ## Freezing -/

/-- A byte that `captureSurfaceArtifact` trims. -/
def isTrimmed (c : UInt8) : Bool := c = 13 || c = 10 || c = 9 || c = 32

/-- `captureSurfaceArtifact`: the sectioned text of the two screens. -/
def surfaceArtifact (visible alternate : Bytes) : Bytes × TerminalArtifactSections :=
  let content := ascii "[surface]\n" ++ visible
  if alternate.all isTrimmed then (content, { surface := true, alternate := false })
  else
    let separator := if visible ≠ [] ∧ visible.getLast? ≠ some 10 then ascii "\n" else []
    (content ++ separator ++ ascii "\n[alternate]\n" ++ alternate,
      { surface := true, alternate := true })

/-- The pane of a node that is frozen. -/
def artifactPane (d : Document) (nodeId : Nat) : Except Failure Bytes := do
  let node ← d.nodeOr nodeId .unknownNode
  match node.source with
  | .tty tty =>
    match tty.paneId with
    | some paneId => return paneId
    | none => throw (.error .missingPaneId)
  | _ => throw (.error .invalidSourceKind)

/-- The capture of `captureTerminalArtifact`. -/
def artifactCapture (env : Env) (nodeId : Nat) (artifactKind : TerminalArtifactKind)
    (paneId : Bytes) : Except Failure (Bytes × TerminalArtifactSections) :=
  match artifactKind with
  | .text =>
    match env.capturePane 0 nodeId paneId with
    | .ok content => .ok (content, { surface := false, alternate := false })
    | .error name => .error (.error (.backend name))
  | .surface =>
    match env.captureSurface nodeId paneId with
    | .ok (visible, alternate) => .ok (surfaceArtifact visible alternate)
    | .error name => .error (.error (.backend name))

/-- `captureTerminalArtifact`. -/
def captureTerminalArtifact (env : Env) (nodeId : Nat) (artifactKind : TerminalArtifactKind) :
    EntryM TerminalArtifactSections := do
  let (content, sections) ← read fun e => do
    artifactCapture env nodeId artifactKind (← artifactPane e.document nodeId)
  let _ ← replaceNodeContentWithAccounting nodeId content
  return sections

/-- `freezeTerminalNode`. -/
def freezeTerminalNode (env : Env) (nodeId : Nat) (artifactKind : TerminalArtifactKind) :
    EntryM Unit := do
  let sections ← captureTerminalArtifact env nodeId artifactKind
  onDocument (Document.freezeTtyNodeAsArtifact nodeId artifactKind sections)
  notifyInvalidate env nodeId .structural

end Muxly.Daemon
