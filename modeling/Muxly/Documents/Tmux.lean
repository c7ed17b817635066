/-
# Muxly.Documents.Tmux -- tmux and the root document, with mutexes

The functions of `store.zig` that ask tmux or follow it, as programs over the mutexes of the store:
listing the panes, the control connection, the pump, and the requests that make, close or capture a
pane. A change of the root document's structure is made under three of its mutexes.
`Muxly.Daemon.TmuxStore` reads the same changes one after another, without the mutexes.
-/
import Muxly.Documents.Store

namespace Muxly.Documents

open Muxly.Control Muxly.Core Muxly.Daemon Muxly.Sync Program

/-! ## Code on the root document -/

/-- A change of the structure under the mutexes that exclude every other one. -/
def underStructureMutexes {α : Type} (f : EntryAction α) : EntryM α :=
  withMutex .globalStructureFallback <| withMutex .nodeRegistry <| withMutex .contentBytes <| act f

/-- `findNodeIdByPaneId`. -/
def findNodeIdByPaneId (paneId : Bytes) : EntryM (Option Nat) :=
  withMutex .nodeRegistry <| read fun e => Sequential.findNodeIdByPaneId e.document paneId

/-- The end of `appendTmuxPaneOutput`, under the content mutex. -/
def appendPaneText (env : Env) (nodeId : Nat) (normalized : Bytes) : EntryM Unit := do
  onDocument (Document.appendTextToStableNode nodeId normalized)
  notifyInvalidate env nodeId .content
  notifyTtyData env nodeId normalized

/-- `appendTmuxPaneOutput`. -/
def appendTmuxPaneOutput (env : Env) (paneId normalized : Bytes) : EntryM Unit := do
  match ← findNodeIdByPaneId paneId with
  | none => throw (.error .unknownPane)
  | some nodeId => do
    acquire .nodeRegistry
    let node ← onError (read fun e => e.document.nodeOr nodeId .unknownNode) (release .nodeRegistry)
    if node.followTail then do
      acquire .contentBytes
      release .nodeRegistry
      ensure (appendPaneText env nodeId normalized) (release .contentBytes)
    else release .nodeRegistry

/-- The section of `tryApplyWindowClose`: an error of the removal is dropped. -/
def closeWindowNode (env : Env) (nodeId : Nat) : EntryAction Unit := do
  let removed ← tryCatch
    (do DocumentEntry.onDocument (Document.removeSubtree nodeId)
        return true) fun failure =>
      match failure with
      | .error _ => pure false
      | failure => throw failure
  if removed then
    modify (·.markTopologyChanged)
    Sequential.notifyInvalidate env nodeId .structural

/-- `tryApplyWindowClose` for a parsed notification. -/
def tryApplyWindowClose (env : Env) (windowId : Bytes) : EntryM Unit := do
  match ← read fun e => e.document.findNodeByBackendId (windowBackendPrefix ++ windowId) with
  | none => pure ()
  | some node => underStructureMutexes (closeWindowNode env node.id)

/-- `tryApplyIncrementalNotification`. -/
def tryApplyIncrementalNotification (env : Env) (name payload : Bytes) : EntryM Bool :=
  if name = ascii "window-renamed" then
    match Pump.parseWindowNotificationPayload payload with
    | some (windowId, windowName) => act (Sequential.tryApplyWindowRenamed env windowId windowName)
    | none => pure false
  else if name = ascii "window-close" then
    match Pump.parseWindowNotificationPayload payload with
    | some (windowId, _) => do
      tryApplyWindowClose env windowId
      return false
    | none => pure false
  else pure false

/-- `setPaneFollowTail`. -/
def setPaneFollowTail (env : Env) (paneId : Bytes) (enabled : Bool) : EntryM Unit := do
  match ← findNodeIdByPaneId paneId with
  | none => throw (.error .unknownNode)
  | some nodeId => do
    onDocument (Document.setFollowTail nodeId enabled)
    notifyInvalidate env nodeId .metadata

/-- `captureTmuxPane`, with what tmux captured. -/
def captureIntoNode (env : Env) (paneId capture : Bytes) : EntryM Unit := do
  match ← findNodeIdByPaneId paneId with
  | none => pure ()
  | some nodeId => do
    match ← read fun e => e.document.findNode nodeId with
    | none => pure ()
    | some _ => setNodeContentFromSource env nodeId capture

/-! ## Listing and attaching -/

section Backend

variable (w : Backend)

/-- `refreshTmuxPaneSnapshots`: the old snapshots are gone also when the listing fails. -/
def refreshTmuxPaneSnapshots (visit : Nat) : StoreM Unit :=
  act fun s =>
    match w.listPaneSnapshots visit with
    | .ok snapshots => (.ok (), { s with tmuxPaneSnapshots := snapshots })
    | .error failure => (.error failure, { s with tmuxPaneSnapshots := [] })

/-- `ensureControlConnection`. -/
def ensureControlConnection (visit : Nat) (sessionName : Bytes) : StoreM Unit :=
  act fun s =>
    if s.controlConnection then (.ok (), s)
    else
      match w.initAttach visit sessionName with
      | .ok attached => (.ok (), { s with controlConnection := attached })
      | .error failure => (.error failure, s)

/-- The snapshots that `ensureControlConnectionForKnownTmuxState` looks at. -/
def listIfEmpty (visit : Nat) : StoreM Unit := do
  let snapshots ← read fun s => .ok s.tmuxPaneSnapshots
  if snapshots = [] then refreshTmuxPaneSnapshots w visit else pure ()

/-- `ensureControlConnectionForKnownTmuxState`. -/
def ensureControlConnectionForKnownTmuxState (visit : Nat) : StoreM Unit := do
  let connected ← read fun s => .ok s.controlConnection
  if connected then pure ()
  else do
    listIfEmpty w visit
    match ← read fun s => .ok s.tmuxPaneSnapshots.head? with
    | none => pure ()
    | some first => ensureControlConnection w visit first.sessionName

/-! ## The pump -/

/-- `invalidateTmuxProjection`. -/
def invalidateTmuxProjection (state : TmuxProjectionState) : StoreM Unit :=
  act fun s => (.ok (), { s with
    tmuxProjectionState :=
      if state = .invalidatedByControlDisconnect then state
      else if s.tmuxProjectionState = .clean then state
      else s.tmuxProjectionState })

/-- `self.tmux_projection_state = .clean`. -/
def setClean : StoreM Unit := act fun s => (.ok (), { s with tmuxProjectionState := .clean })

/-- One turn of `drainEvents`, for an event other than `exit`. -/
def handleEvent (event : ControlEvent) : StoreM Unit :=
  match event with
  | .paneOutput paneId normalized =>
    tryCatch (onRoot (appendTmuxPaneOutput (w.env rootDocumentPath) paneId normalized))
      fun failure =>
        match failure with
        | .error _ => invalidateTmuxProjection .invalidatedByNotification
        | failure => throw failure
  | .notification name payload => do
    let applied ← onRoot (tryApplyIncrementalNotification (w.env rootDocumentPath) name payload)
    if !applied && Pump.isStateInvalidatingNotification name then
      invalidateTmuxProjection .invalidatedByNotification
    else pure ()
  | _ => pure ()

/-- `drainEvents`: whether it ended with `ControlModeExited`. -/
def drainEvents : List ControlEvent → StoreM Bool
  | [] => do
    read fun _ => w.drained
    return false
  | .exit :: _ => do
    invalidateTmuxProjection .invalidatedByControlDisconnect
    return true
  | event :: rest => do
    handleEvent w event
    drainEvents rest

/-- The part of `pumpTmuxBackend` that reads the control connection. -/
def drainConnection : StoreM Unit := do
  let connected ← read fun s => .ok s.controlConnection
  if connected then do
    let exited ← drainEvents w w.events
    act fun s => (.ok (), { s with controlConnection := !exited })
  else pure ()

/-- `reconcileKnownTmuxProjections`. -/
def reconcileKnownTmuxProjections : StoreM Unit := do
  let snapshots ← read fun s => .ok s.tmuxPaneSnapshots
  onRoot (underStructureMutexes (Sequential.reconcileKnownTmuxProjections snapshots))

/-- The end of `pumpTmuxBackend`, when the projection is not clean. -/
def reconcileTmuxState : StoreM Unit := do
  refreshTmuxPaneSnapshots w 1
  let disconnected ← read fun s =>
    .ok (!s.controlConnection && s.tmuxProjectionState = .invalidatedByControlDisconnect)
  if disconnected then ensureControlConnectionForKnownTmuxState w 2 else pure ()
  reconcileKnownTmuxProjections
  refreshSources w 0
  let connected ← read fun s => .ok s.controlConnection
  if connected then setClean else pure ()

/-- `pumpTmuxBackend`. -/
def pumpTmuxBackend : StoreM Unit := do
  ensureControlConnectionForKnownTmuxState w 0
  drainConnection w
  let state ← read fun s => .ok s.tmuxProjectionState
  if state = .clean then pure () else reconcileTmuxState w

/-- The errors of the pump that a request goes on after. -/
def ignoredPumpErrors : List Err :=
  [.backend (ascii "FileNotFound"), .backend (ascii "TmuxCommandFailed"),
    .backend (ascii "ControlModeUnavailable")]

/-- The pump before a request on the root document. -/
def pumpBeforeRequest : StoreM Unit :=
  tryCatch (pumpTmuxBackend w) fun failure =>
    match failure with
    | .error e => if e ∈ ignoredPumpErrors then pure () else throw (.error e)
    | failure => throw failure

/-! ## Rebuilding the projection -/

/-- `rebuildTmuxSessionProjection`. -/
def rebuildTmuxSessionProjection (visit parentId : Nat) (snapshots : List PaneSnapshot) :
    StoreM Nat := do
  let sessionNodeId ← onRoot <| underStructureMutexes <|
    Sequential.onTopology (reconcileSessionSnapshots parentId snapshots)
  setClean
  refreshSources w visit
  onRoot (notifyInvalidate (w.env rootDocumentPath) sessionNodeId .structural)
  return sessionNodeId

/-- `findProjectionParentForSession`. -/
def findProjectionParentForSession (sessionId : Bytes) : StoreM (Option Nat) :=
  onRoot (read fun e => Sequential.findProjectionParentForSession e.document sessionId)

/-- `rebuildTmuxSessionProjectionForPane`. -/
def rebuildTmuxSessionProjectionForPane (visit preferredParentId : Nat) (paneId : Bytes) :
    StoreM Nat := do
  refreshTmuxPaneSnapshots w visit
  let snapshots ← read fun s => .ok s.tmuxPaneSnapshots
  match snapshots.find? fun snapshot => snapshot.paneId == paneId with
  | none => throw (.error .unknownPane)
  | some snapshot => do
    let parentId ← findProjectionParentForSession snapshot.sessionId
    let _ ← rebuildTmuxSessionProjection w visit (parentId.getD preferredParentId)
      (snapshots.filter fun item => item.sessionId == snapshot.sessionId)
    ensureControlConnection w visit snapshot.sessionName
    match ← onRoot (findNodeIdByPaneId paneId) with
    | none => throw (.error .unknownNode)
    | some nodeId => return nodeId

/-- The root node of the root document. -/
def rootNodeId : StoreM Nat := onRoot (read fun e => .ok e.document.rootNodeId)

/-- `createTmuxSession`. -/
def createTmuxSession (parentId : Nat) (sessionName : Bytes) : StoreM Nat := do
  let paneId ← read fun _ => w.createdPane
  let nodeId ← rebuildTmuxSessionProjectionForPane w 2 parentId paneId
  ensureControlConnection w 3 sessionName
  onRoot (notifyInvalidate (w.env rootDocumentPath) nodeId .structural)
  return nodeId

/-- `createTmuxWindow` and `splitTmuxPane`. -/
def createTmuxPane : StoreM Nat := do
  let paneId ← read fun _ => w.createdPane
  let rootId ← rootNodeId
  let nodeId ← rebuildTmuxSessionProjectionForPane w 2 rootId paneId
  onRoot (notifyInvalidate (w.env rootDocumentPath) nodeId .structural)
  return nodeId

/-- `captureTmuxPane`. -/
def captureTmuxPane (paneId : Bytes) : StoreM Bytes := do
  let capture ← read fun _ => w.captured
  onRoot (captureIntoNode (w.env rootDocumentPath) paneId capture)
  return capture

/-- `resizeTmuxPane`, `focusTmuxPane` and `sendKeysTmuxPane`. -/
def commandTmuxPane : StoreM Unit := do
  read fun _ => w.commanded
  refreshSources w 2

/-- The middle of `closeTmuxPane`: what is left of the session is projected again. -/
def projectRemaining (sessionId : Bytes) : StoreM Unit := do
  refreshTmuxPaneSnapshots w 2
  let snapshots ← read fun s => .ok s.tmuxPaneSnapshots
  match snapshots.find? fun snapshot => snapshot.sessionId == sessionId with
  | some surviving => do
    let rootId ← rootNodeId
    let _ ← rebuildTmuxSessionProjectionForPane w 3 rootId surviving.paneId
  | none => do
    let _ ← onRoot <| underStructureMutexes <|
      Sequential.onTopology (removeSessionProjection sessionId)

/-- The session of a pane that is shown. -/
def sessionOfPane (nodeId : Option Nat) : StoreM (Option Bytes) :=
  match nodeId with
  | none => pure none
  | some knownNodeId => onRoot (read fun e => findSessionIdForPaneNode e.document knownNodeId)

/-- The first change of `closeTmuxPane`: the node of the pane is removed. -/
def removePane (nodeId : Option Nat) : StoreM Unit :=
  match nodeId with
  | none => pure ()
  | some knownNodeId => onRoot (underStructureMutexes (Sequential.removePaneNode knownNodeId))

/-- The second change of `closeTmuxPane`. -/
def projectSession (sessionId : Option Bytes) : StoreM Unit :=
  match sessionId with
  | none => pure ()
  | some knownSessionId => projectRemaining w knownSessionId

/-- `closeTmuxPane`. -/
def closeTmuxPane (paneId : Bytes) : StoreM Unit := do
  let nodeId ← onRoot (findNodeIdByPaneId paneId)
  let sessionId ← sessionOfPane nodeId
  read fun _ => w.commanded
  removePane nodeId
  projectSession w sessionId
  refreshSources w 4

end Backend

end Muxly.Documents
