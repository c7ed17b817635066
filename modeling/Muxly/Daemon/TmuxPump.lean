/-
# Muxly.Daemon.TmuxPump -- the tmux state of the store

The store lists the panes of tmux, keeps a control connection, and knows whether its projection of
tmux may be out of date: `tmux_projection_state`. The functions of `store.zig` that read or write
these fields are here, over the readings of `Muxly.Daemon.TmuxStore` for what they do to the root
document. What tmux answers during one step is given by a `TmuxEnv`.

`marks` is what happened so far, the last first; no function reads it.
-/
import Muxly.Control.Triple
import Muxly.Daemon.StoreRuns

namespace Muxly.Daemon

open Muxly.Control Muxly.Core Muxly.Sync Muxly.Tree

/-! ## The state -/

/-- `TmuxProjectionState`. -/
inductive TmuxProjectionState where
  | clean
  | invalidatedByNotification
  | invalidatedByControlDisconnect
  deriving DecidableEq

/-- `events.Event`. The pane output carries what `normalizeTmuxOutputChunk` makes of the payload. -/
inductive ControlEvent where
  | notification (name payload : Bytes)
  | paneOutput (paneId normalized : Bytes)
  | exit
  /-- `begin`, `end`, `command_error` and `output`, which the store ignores. -/
  | other
  deriving DecidableEq

/-- Something that happened to the projection of tmux. -/
inductive Mark where
  /-- `invalidateTmuxProjection` was called. -/
  | invalidated (cause : TmuxProjectionState)
  /-- The panes of tmux were listed; the listings are numbered. -/
  | listed (serial : Nat)
  /-- The projection of a session below a parent was reconciled against the panes of a listing. -/
  | reconciled (parentId : Nat) (sessionId : Bytes) (serial : Nat)
  /-- A control connection was attached. -/
  | attached
  /-- The state was set to clean, from another one or not, with this document. -/
  | cleaned (before : TmuxProjectionState) (document : Document)
  deriving DecidableEq

/-- The fields of `Store` that concern tmux, and the root document. -/
structure TmuxStore where
  entry : DocumentEntry
  tmuxPaneSnapshots : List PaneSnapshot
  controlConnection : Bool
  tmuxProjectionState : TmuxProjectionState
  /-- The number of the listing that the snapshots are from. -/
  serial : Nat
  marks : List Mark

/-- Code on the store. -/
abbrev TmuxAction (α : Type) : Type := Action TmuxStore Failure α

/-- What tmux and the file system answer during one step. -/
structure TmuxEnv where
  env : Env
  /-- `tmux.listPaneSnapshots`, for each place that calls it. -/
  listPaneSnapshots : Nat → Except Failure (List PaneSnapshot)
  /-- `ControlConnection.initAttach`: whether a connection is made. An error other than
  `FileNotFound` and `ControlModeUnavailable` is returned. -/
  initAttach : Nat → Bytes → Except Failure Bool
  /-- The events that `drainEvents` reads. -/
  events : List ControlEvent
  /-- How reading them ends, when the connection does not exit. -/
  drained : Except Failure Unit
  /-- How `refreshSources` ends for the documents other than the root document. -/
  otherSources : Except Failure Unit

/-- `Store.init`, with the root document of `initWithRuntimeLimits`. -/
def TmuxStore.init (title : Bytes) (maxContentBytes : UInt64) : TmuxStore where
  entry := cappedEntry rootDocumentPath 1 title maxContentBytes
  tmuxPaneSnapshots := []
  controlConnection := false
  tmuxProjectionState := .clean
  serial := 0
  marks := []

namespace Pump

/-- Code on the root document. -/
def onEntry {α : Type} (f : EntryAction α) : TmuxAction α := fun s =>
  ((f s.entry).1, { s with entry := (f s.entry).2 })

def mark (m : Mark) : TmuxAction Unit := modify fun s => { s with marks := m :: s.marks }

/-- How many listings a history has. -/
def listings (marks : List Mark) : Nat :=
  marks.countP fun m =>
    match m with
    | .listed _ => true
    | _ => false

/-! ## Listing and attaching -/

/-- `refreshTmuxPaneSnapshots`: the old snapshots are gone also when the listing fails. -/
def refreshTmuxPaneSnapshots (w : TmuxEnv) (place : Nat) : TmuxAction Unit := do
  modify fun s => { s with tmuxPaneSnapshots := [] }
  let snapshots ← Action.lift (w.listPaneSnapshots place)
  modify fun s => { s with
    tmuxPaneSnapshots := snapshots
    serial := listings s.marks
    marks := .listed (listings s.marks) :: s.marks }

/-- `ensureControlConnection`. -/
def ensureControlConnection (w : TmuxEnv) (place : Nat) (sessionName : Bytes) :
    TmuxAction Unit := do
  if (← get).controlConnection then return ()
  if ← Action.lift (w.initAttach place sessionName) then
    modify fun s => { s with controlConnection := true, marks := .attached :: s.marks }

/-- The snapshots that `ensureControlConnectionForKnownTmuxState` looks at. -/
def listIfEmpty (w : TmuxEnv) (place : Nat) : TmuxAction Unit := do
  if (← get).tmuxPaneSnapshots = [] then refreshTmuxPaneSnapshots w place else return ()

/-- `ensureControlConnectionForKnownTmuxState`. -/
def ensureControlConnectionForKnownTmuxState (w : TmuxEnv) (place : Nat) : TmuxAction Unit := do
  if (← get).controlConnection then return ()
  listIfEmpty w place
  match (← get).tmuxPaneSnapshots with
  | [] => return ()
  | first :: _ => ensureControlConnection w place first.sessionName

/-! ## Invalidation -/

/-- `invalidateTmuxProjection`. -/
def invalidateTmuxProjection (state : TmuxProjectionState) : TmuxAction Unit := modify fun s =>
  { s with
    tmuxProjectionState :=
      if state = .invalidatedByControlDisconnect then state
      else if s.tmuxProjectionState = .clean then state
      else s.tmuxProjectionState
    marks := .invalidated state :: s.marks }

/-- `self.tmux_projection_state = .clean`. -/
def setClean : TmuxAction Unit := modify fun s =>
  { s with
    tmuxProjectionState := .clean
    marks := .cleaned s.tmuxProjectionState s.entry.document :: s.marks }

/-- `isStateInvalidatingNotification`. -/
def isStateInvalidatingNotification (name : Bytes) : Bool :=
  name ∈ [ascii "sessions-changed", ascii "session-changed", ascii "session-renamed",
    ascii "window-add", ascii "window-close", ascii "window-renamed", ascii "windows-changed",
    ascii "layout-change", ascii "pane-mode-changed", ascii "unlinked-window-add",
    ascii "unlinked-window-close"]

/-- `parseWindowNotificationPayload`: the window id up to the first blank, and the name after it. -/
def parseWindowNotificationPayload (payload : Bytes) : Option (Bytes × Bytes) :=
  if payload = [] then none
  else if (32 : UInt8) ∈ payload then
    some (payload.takeWhile (· ≠ 32), (payload.dropWhile (· ≠ 32)).tail)
  else some (payload, [])

/-- `tryApplyIncrementalNotification`. -/
def tryApplyIncrementalNotification (env : Env) (name payload : Bytes) : TmuxAction Bool :=
  if name = ascii "window-renamed" then
    match parseWindowNotificationPayload payload with
    | some (windowId, windowName) =>
      onEntry (Sequential.tryApplyWindowRenamed env windowId windowName)
    | none => pure false
  else if name = ascii "window-close" then do
    if let some (windowId, _) := parseWindowNotificationPayload payload then
      onEntry (Sequential.tryApplyWindowClose env windowId)
    return false
  else pure false

/-- One turn of `drainEvents`, for an event other than `exit`. -/
def handleEvent (env : Env) (event : ControlEvent) : TmuxAction Unit :=
  match event with
  | .paneOutput paneId normalized =>
    tryCatch (onEntry (Sequential.appendTmuxPaneOutput env paneId normalized)) fun failure =>
      match failure with
      | .error _ => invalidateTmuxProjection .invalidatedByNotification
      | failure => throw failure
  | .notification name payload => do
    if !(← tryApplyIncrementalNotification env name payload) &&
        isStateInvalidatingNotification name then
      invalidateTmuxProjection .invalidatedByNotification
  | _ => pure ()

/-- `drainEvents`: whether it ended with `ControlModeExited`. -/
def drainEvents (w : TmuxEnv) : List ControlEvent → TmuxAction Bool
  | [] => do
    Action.lift w.drained
    return false
  | .exit :: _ => do
    invalidateTmuxProjection .invalidatedByControlDisconnect
    return true
  | event :: rest => do
    handleEvent w.env event
    drainEvents w rest

/-! ## Reconciliation -/

/-- `refreshSources`: the root document comes first. -/
def refreshSources (w : TmuxEnv) (visit : Nat) : TmuxAction Unit := do
  onEntry (Sequential.refreshSourcesForDocument w.env visit)
  Action.lift w.otherSources

/-- The loop of `reconcileKnownTmuxProjections`, for one projection. -/
def reconcileProjection (projection : SessionProjectionRef) : TmuxAction Unit := do
  let s ← get
  onEntry (DocumentEntry.onDocument
    (Sequential.reconcileProjection s.tmuxPaneSnapshots projection))
  mark (.reconciled projection.parentId projection.sessionId s.serial)

/-- `reconcileKnownTmuxProjections`. -/
def reconcileKnownTmuxProjections : TmuxAction Unit := do
  let projections ← onEntry (Action.view fun e => listSessionProjections e.document)
  projections.forM reconcileProjection
  onEntry (modify (·.markTopologyChanged))

/-- The part of `pumpTmuxBackend` that reads the control connection. -/
def drainConnection (w : TmuxEnv) : TmuxAction Unit := do
  if (← get).controlConnection then
    let exited ← drainEvents w w.events
    modify fun s => { s with controlConnection := !exited }
  else return ()

/-- The second attempt of `pumpTmuxBackend` to attach. -/
def reattach (w : TmuxEnv) : TmuxAction Unit := do
  let s ← get
  if !s.controlConnection && s.tmuxProjectionState = .invalidatedByControlDisconnect then
    ensureControlConnectionForKnownTmuxState w 2
  else return ()

/-- The end of `pumpTmuxBackend`. -/
def setCleanIfAttached : TmuxAction Unit := do
  if (← get).controlConnection then setClean else return ()

/-- `pumpTmuxBackend`. -/
def pumpTmuxBackend (w : TmuxEnv) : TmuxAction Unit := do
  ensureControlConnectionForKnownTmuxState w 0
  drainConnection w
  if (← get).tmuxProjectionState = .clean then return ()
  refreshTmuxPaneSnapshots w 1
  reattach w
  reconcileKnownTmuxProjections
  refreshSources w 0
  setCleanIfAttached

/-! ## Explicit rebuilds -/

/-- The session of a list of snapshots. -/
def sessionOf (snapshots : List PaneSnapshot) : Bytes := (snapshots.head?.map (·.sessionId)).getD []

/-- `rebuildTmuxSessionProjection`, with snapshots of the listing `serial`. -/
def rebuildTmuxSessionProjection (w : TmuxEnv) (visit parentId : Nat)
    (snapshots : List PaneSnapshot) (serial : Nat) : TmuxAction Nat := do
  let sessionNodeId ← onEntry (Sequential.onTopology (reconcileSessionSnapshots parentId snapshots))
  mark (.reconciled parentId (sessionOf snapshots) serial)
  setClean
  refreshSources w visit
  onEntry (Sequential.notifyInvalidate w.env sessionNodeId .structural)
  return sessionNodeId

/-- `rebuildTmuxSessionProjectionForPane`. -/
def rebuildTmuxSessionProjectionForPane (w : TmuxEnv) (place preferredParentId : Nat)
    (paneId : Bytes) : TmuxAction Nat := do
  refreshTmuxPaneSnapshots w place
  let s ← get
  let some snapshot := s.tmuxPaneSnapshots.find? fun snapshot => snapshot.paneId == paneId
    | throw (.error .unknownPane)
  let ofSession := s.tmuxPaneSnapshots.filter fun item => item.sessionId == snapshot.sessionId
  let parentId ← onEntry (Action.view fun e =>
    Sequential.findProjectionParentForSession e.document snapshot.sessionId)
  let _ ← rebuildTmuxSessionProjection w place (parentId.getD preferredParentId) ofSession s.serial
  ensureControlConnection w place snapshot.sessionName
  let some nodeId ← onEntry (Action.view fun e => Sequential.findNodeIdByPaneId e.document paneId)
    | throw (.error .unknownNode)
  return nodeId

/-- `createTmuxSession`, with the pane that tmux made. -/
def createTmuxSession (w : TmuxEnv) (parentId : Nat) (sessionName : Bytes)
    (created : Except Failure Bytes) : TmuxAction Unit := do
  let paneId ← Action.lift created
  let nodeId ← rebuildTmuxSessionProjectionForPane w 0 parentId paneId
  ensureControlConnection w 1 sessionName
  onEntry (Sequential.notifyInvalidate w.env nodeId .structural)

/-- `createTmuxWindow` and `splitTmuxPane`, with the pane that tmux made. -/
def createTmuxPane (w : TmuxEnv) (created : Except Failure Bytes) : TmuxAction Unit := do
  let paneId ← Action.lift created
  let nodeId ← rebuildTmuxSessionProjectionForPane w 0 (← get).entry.document.rootNodeId paneId
  onEntry (Sequential.notifyInvalidate w.env nodeId .structural)

/-- The middle of `closeTmuxPane`. -/
def projectRemaining (w : TmuxEnv) (sessionId : Bytes) : TmuxAction Unit := do
  refreshTmuxPaneSnapshots w 0
  let s ← get
  match s.tmuxPaneSnapshots.find? fun snapshot => snapshot.sessionId == sessionId with
  | some surviving =>
    let _ ← rebuildTmuxSessionProjectionForPane w 1 s.entry.document.rootNodeId surviving.paneId
  | none =>
    let _ ← onEntry (Sequential.onTopology (removeSessionProjection sessionId))

/-- `closeTmuxPane`; `closed` is what `tmux.closePane` returns. -/
def closeTmuxPane (w : TmuxEnv) (paneId : Bytes) (closed : Except Failure Unit) :
    TmuxAction Unit := do
  let nodeId ← onEntry (Action.view fun e => Sequential.findNodeIdByPaneId e.document paneId)
  let sessionId ← onEntry (Action.view fun e =>
    match nodeId with
    | some knownNodeId => findSessionIdForPaneNode e.document knownNodeId
    | none => .ok none)
  Action.lift closed
  if let some knownNodeId := nodeId then onEntry (Sequential.removePaneNode knownNodeId)
  if let some knownSessionId := sessionId then projectRemaining w knownSessionId
  refreshSources w 2

end Pump

/-! ## Steps -/

/-- What runs on the root lane: the pump, the rebuilds, a request that lists the panes, and any
other call on the root document. -/
inductive TmuxStep where
  | pump
  | rebuild (parentId : Nat) (snapshots : List PaneSnapshot) (serial : Nat)
  | createSession (parentId : Nat) (sessionName : Bytes) (created : Except Failure Bytes)
  | createPane (created : Except Failure Bytes)
  | closePane (paneId : Bytes) (closed : Except Failure Unit)
  | listPanes
  | other (env : Env) (call : StoreCall)

/-- The code of a step. -/
def TmuxStep.code (w : TmuxEnv) : TmuxStep → TmuxAction Unit
  | .pump => Pump.pumpTmuxBackend w
  | .rebuild parentId snapshots serial => do
    let _ ← Pump.rebuildTmuxSessionProjection w 0 parentId snapshots serial
  | .createSession parentId sessionName created =>
    Pump.createTmuxSession w parentId sessionName created
  | .createPane created => Pump.createTmuxPane w created
  | .closePane paneId closed => Pump.closeTmuxPane w paneId closed
  | .listPanes => Pump.refreshTmuxPaneSnapshots w 0
  | .other env call => Pump.onEntry (call.reading env rootDocumentPath)

/-- The store after some steps, each of which may succeed or fail. -/
def afterSteps (s : TmuxStore) (steps : List (TmuxEnv × TmuxStep)) : TmuxStore :=
  steps.foldl (fun s step => (step.2.code step.1 s).2) s

end Muxly.Daemon
