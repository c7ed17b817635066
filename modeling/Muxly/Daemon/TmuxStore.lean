/-
# Muxly.Daemon.TmuxStore -- what the store does to the root document for tmux

The functions of `store.zig` that answer to tmux: rebuilding the projection of a session, the
notifications of control mode, output of a pane, and closing a pane. They are read one after
another, so the mutexes they hold around a change are left out. What tmux itself answers (a
snapshot list, an output chunk) is an argument.
-/
import Muxly.Daemon.Sequential

namespace Muxly.Daemon.Sequential

open Muxly.Control Muxly.Core Muxly.Sync

/-- `findNodeIdByPaneId`: the first node in preorder with a tty source of the pane. -/
def findNodeIdByPaneId (d : Document) (paneId : Bytes) : Except Failure (Option Nat) :=
  match d.collectPreorderNodeIds with
  | .ok nodeIds =>
    nodeIds.findM? fun nodeId => do
      let some node ← d.findNode nodeId | return false
      return ttyPaneId node.source == some paneId
  | .error (.error _) => .ok none
  | .error failure => .error failure

/-- A change of the root document that is followed by `markTopologyChanged`. -/
def onTopology {α : Type} (m : DocM α) : EntryAction α := do
  let a ← DocumentEntry.onDocument m
  modify (·.markTopologyChanged)
  return a

/-- `rebuildTmuxSessionProjection`; `refreshSources` is the refresh of this document. -/
def rebuildTmuxSessionProjection (env : Env) (visit parentId : Nat)
    (snapshots : List PaneSnapshot) : EntryAction Nat := do
  let sessionNodeId ← onTopology (reconcileSessionSnapshots parentId snapshots)
  refreshSourcesForDocument env visit
  notifyInvalidate env sessionNodeId .structural
  return sessionNodeId

/-- The loop of `reconcileKnownTmuxProjections`, for one projection. -/
def reconcileProjection (snapshots : List PaneSnapshot) (projection : SessionProjectionRef) :
    DocM Unit := do
  let ofSession := snapshots.filter fun snapshot => snapshot.sessionId == projection.sessionId
  if ofSession = [] then
    let _ ← removeSessionProjection projection.sessionId
  else
    let _ ← reconcileSessionSnapshots projection.parentId ofSession

/-- `reconcileKnownTmuxProjections`. -/
def reconcileKnownTmuxProjections (snapshots : List PaneSnapshot) : EntryAction Unit :=
  onTopology do
    let projections ← Action.view listSessionProjections
    projections.forM (reconcileProjection snapshots)

/-- The end of `pumpTmuxBackend` when the projection is not clean. -/
def reconcileTmuxState (env : Env) (visit : Nat) (snapshots : List PaneSnapshot) :
    EntryAction Unit := do
  reconcileKnownTmuxProjections snapshots
  refreshSourcesForDocument env visit

/-- `appendTmuxPaneOutput`, with the chunk that `normalizeTmuxOutputChunk` makes of the payload. -/
def appendTmuxPaneOutput (env : Env) (paneId normalized : Bytes) : EntryAction Unit := do
  let some nodeId ← Action.view fun e => findNodeIdByPaneId e.document paneId
    | throw (.error .unknownPane)
  let node ← Action.view fun e => e.document.nodeOr nodeId .unknownNode
  if !node.followTail then return ()
  DocumentEntry.onDocument (Document.appendTextToStableNode nodeId normalized)
  notifyInvalidate env nodeId .content
  notifyTtyData env nodeId normalized

/-- `tryApplyWindowRenamed` for a parsed notification. -/
def tryApplyWindowRenamed (env : Env) (windowId windowName : Bytes) : EntryAction Bool := do
  let some node ← Action.view fun e =>
      e.document.findNodeByBackendId (windowBackendPrefix ++ windowId)
    | return false
  modify fun e => { e with document := e.document.modifyNode node.id (·.setTitle windowName) }
  notifyInvalidate env node.id .metadata
  return true

/-- `tryApplyWindowClose` for a parsed notification: an error of the removal is dropped. -/
def tryApplyWindowClose (env : Env) (windowId : Bytes) : EntryAction Unit := do
  let some node ← Action.view fun e =>
      e.document.findNodeByBackendId (windowBackendPrefix ++ windowId)
    | return ()
  let removed ← tryCatch
    (do DocumentEntry.onDocument (Document.removeSubtree node.id)
        return true) fun failure =>
      match failure with
      | .error _ => pure false
      | failure => throw failure
  if removed then
    modify (·.markTopologyChanged)
    notifyInvalidate env node.id .structural

/-- The first change of `closeTmuxPane`: an error of the removal is dropped. -/
def removePaneNode (nodeId : Nat) : EntryAction Unit := do
  tryCatch (DocumentEntry.onDocument (Document.removeNode nodeId)) fun failure =>
    match failure with
    | .error _ => pure ()
    | failure => throw failure
  modify (·.markTopologyChanged)

/-- `findProjectionParentForSession`. -/
def findProjectionParentForSession (d : Document) (sessionId : Bytes) :
    Except Failure (Option Nat) := do
  let some sessionNodeId ← findSessionProjectionNode d sessionId | return none
  let some sessionNode ← d.findNode sessionNodeId | return none
  return sessionNode.parentId

/-- `rebuildTmuxSessionProjectionForPane`, with the snapshots that it reads. -/
def rebuildTmuxSessionProjectionForPane (env : Env) (visit preferredParentId : Nat)
    (snapshots : List PaneSnapshot) (paneId : Bytes) : EntryAction Nat := do
  let some snapshot := snapshots.find? fun snapshot => snapshot.paneId == paneId
    | throw (.error .unknownPane)
  let ofSession := snapshots.filter fun item => item.sessionId == snapshot.sessionId
  let parentId ← Action.view fun e => findProjectionParentForSession e.document snapshot.sessionId
  let _ ← rebuildTmuxSessionProjection env visit (parentId.getD preferredParentId) ofSession
  let some nodeId ← Action.view fun e => findNodeIdByPaneId e.document paneId
    | throw (.error .unknownNode)
  return nodeId

/-- The end of `createTmuxSession`, `createTmuxWindow` and `splitTmuxPane`, for a new pane. -/
def projectNewPane (env : Env) (visit preferredParentId : Nat) (snapshots : List PaneSnapshot)
    (paneId : Bytes) : EntryAction Nat := do
  let nodeId ← rebuildTmuxSessionProjectionForPane env visit preferredParentId snapshots paneId
  notifyInvalidate env nodeId .structural
  return nodeId

/-- The middle of `closeTmuxPane`: what is left of the session is projected again. -/
def projectRemaining (env : Env) (visit : Nat) (remaining again : List PaneSnapshot)
    (sessionId : Bytes) : EntryAction Unit := do
  match remaining.find? fun snapshot => snapshot.sessionId == sessionId with
  | some surviving =>
    let rootNodeId ← Action.view fun e => .ok e.document.rootNodeId
    let _ ← rebuildTmuxSessionProjectionForPane env visit rootNodeId again surviving.paneId
  | none =>
    let _ ← onTopology (removeSessionProjection sessionId)

/-- `closeTmuxPane` once tmux has closed the pane. It reads the snapshots up to two times. -/
def closeTmuxPane (env : Env) (visit : Nat) (remaining again : List PaneSnapshot)
    (paneId : Bytes) : EntryAction Unit := do
  let nodeId ← Action.view fun e => findNodeIdByPaneId e.document paneId
  let sessionId ← Action.view fun e =>
    match nodeId with
    | some knownNodeId => findSessionIdForPaneNode e.document knownNodeId
    | none => .ok none
  if let some knownNodeId := nodeId then removePaneNode knownNodeId
  if let some knownSessionId := sessionId then
    projectRemaining env visit remaining again knownSessionId
  refreshSourcesForDocument env (visit + 1)

/-- `captureTmuxPane`, with what tmux captured. -/
def captureTmuxPane (env : Env) (paneId capture : Bytes) : EntryAction Unit := do
  let nodeId ← Action.view fun e => findNodeIdByPaneId e.document paneId
  if let some nodeId := nodeId then
    if (← Action.view fun e => e.document.findNode nodeId).isSome then
      setNodeContentFromSource env nodeId capture

/-- `setPaneFollowTail`. -/
def setPaneFollowTail (env : Env) (paneId : Bytes) (enabled : Bool) : EntryAction Unit := do
  let some nodeId ← Action.view fun e => findNodeIdByPaneId e.document paneId
    | throw (.error .unknownNode)
  DocumentEntry.onDocument (Document.setFollowTail nodeId enabled)
  notifyInvalidate env nodeId .metadata

end Muxly.Daemon.Sequential
