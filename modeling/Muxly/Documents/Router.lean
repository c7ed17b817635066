/-
# Muxly.Documents.Router -- a request, from its guard to its answer

`handleRequest` of `router.zig` on the whole store, and `executeQueuedRequest` around it: take the
guard that the request needs, handle it, give the guard back. The methods that act on one document
are those of `Muxly.Daemon.Handler`; the others are here. `none` is a text that is no request.
-/
import Muxly.Conversation.Classify
import Muxly.Documents.Tmux

namespace Muxly.Documents

open Muxly.Control Muxly.Core Muxly.Daemon Muxly.Sync Program

/-! ## Lists -/

/-- The elements that no earlier one has the key of. -/
def firstOfEach {α κ : Type} [DecidableEq κ] (key : α → κ) (xs : List α) : List α :=
  xs.foldl (fun seen x => if key x ∈ seen.map key then seen else seen ++ [x]) []

/-- `writeDocumentList`, for the entries at some places. -/
def writeDocumentList : List Nat → StoreM (List DocumentSummary)
  | [] => pure []
  | index :: rest => do
    let summary ← onEntry index <|
      underGuard acquireQuiescentRead (read fun e => .ok (documentSummary e.path e.document))
    let summaries ← writeDocumentList rest
    return summary :: summaries

/-- `writePaneList`: every pane with the node that shows it. -/
def writePaneList : List PaneSnapshot → StoreM (List (PaneSnapshot × Option Nat))
  | [] => pure []
  | snapshot :: rest => do
    let nodeId ← onRoot (findNodeIdByPaneId snapshot.paneId)
    let panes ← writePaneList rest
    return (snapshot, nodeId) :: panes

/-! ## Methods of the whole store -/

/-- `document.list`. -/
def handleDocumentList : StoreM Body := do
  let entries ← snapshotDocumentEntries
  let summaries ← writeDocumentList entries
  reply (.documentList summaries)

/-- The answer to the errors of `createDocument` that are not returned. -/
def createDocumentMessage : Err → Option String
  | .invalidDocumentPath => some "path must be a canonical absolute non-root path"
  | .documentAlreadyExists => some "document path already exists"
  | _ => none

/-- `document.create`. -/
def handleDocumentCreate (request : RequestEnvelope) : StoreM Body :=
  required (request.string "path") "path is required" fun path =>
    bindResult (createDocument path (request.string "title")) fun
    | .ok index => do
      let document ← read fun s => .ok (s.entryAt index).document
      reply (.documentSummary (documentSummary path document))
    | .error (.error e) =>
      match createDocumentMessage e with
      | some message => replyError .invalidParams message
      | none => .ret (.error (.error e))
    | .error failure => .ret (.error failure)

/-- `rootOnlyTargetGuard`: a method that only supports the root document. -/
def rootOnly (request : RequestEnvelope) (documentPath : Bytes) (k : StoreM Body) : StoreM Body :=
  match validateRootDocumentOnlyTarget documentPath with
  | .ok _ => k
  | .error (.error .rootDocumentOnlyTarget) =>
    .ret (.ok (.error ⟨.unsupported, Conversation.methodName request.method ++
      ascii " currently supports only the root document target /"⟩))
  | .error (.error .invalidDocumentPath) =>
    replyError .invalidParams "target.documentPath must be a canonical absolute path"
  | .error failure => .ret (.error failure)

section Methods

variable (w : Backend) (request : RequestEnvelope)

/-- `session.list`, `window.list` and `pane.list`: list the panes, then answer. -/
def handleList (answer : List PaneSnapshot → StoreM Body) : StoreM Body := do
  refreshTmuxPaneSnapshots w 2
  let snapshots ← read fun s => .ok s.tmuxPaneSnapshots
  answer snapshots

/-- `pane.list`. -/
def handlePaneList : StoreM Body :=
  handleList w fun snapshots => do
    let panes ← writePaneList snapshots
    reply (.panes panes)

/-- `session.create`. -/
def handleSessionCreate (index : Nat) : StoreM Body := do
  let rootId ← read fun s => .ok (s.entryAt index).document.rootNodeId
  let parentId := (request.integer "parentId").getD rootId
  if parentId < 0 then replyError .invalidParams "parentId must be non-negative"
  else
    required (request.string "sessionName") "sessionName is required" fun sessionName =>
      orError .backendUnavailable "unable to create tmux session: "
        (createTmuxSession w parentId.toNat sessionName)
        fun nodeId => .nodeAttached nodeId (ascii "tty")

/-- `window.create`. -/
def handleWindowCreate : StoreM Body :=
  required (request.string "target") "target is required" fun _ =>
    orError .backendUnavailable "unable to create tmux window: " (createTmuxPane w)
      fun nodeId => .nodeAttached nodeId (ascii "tty")

/-- `pane.split`. -/
def handlePaneSplit : StoreM Body :=
  required (request.string "target") "target is required" fun _ =>
    orError .backendUnavailable "unable to split tmux pane: " (createTmuxPane w)
      fun nodeId => .nodeAttached nodeId (ascii "tty")

/-- `pane.capture`. -/
def handlePaneCapture : StoreM Body :=
  required (request.string "paneId") "paneId is required" fun paneId =>
    orFixedError .backendUnavailable "unable to capture tmux pane" (captureTmuxPane w paneId)
      fun capture => .paneCapture paneId capture

/-- `pane.scroll`. -/
def handlePaneScroll : StoreM Body :=
  required (request.string "paneId") "paneId is required" fun paneId =>
    required (request.integer "startLine") "startLine is required" fun _ =>
      required (request.integer "endLine") "endLine is required" fun _ =>
        orError .backendUnavailable "unable to scroll tmux pane: " (read fun _ => w.captured)
          fun capture => .paneCapture paneId capture

/-- `pane.resize`. -/
def handlePaneResize : StoreM Body :=
  required (request.string "paneId") "paneId is required" fun _ =>
    required (request.string "direction") "direction is required" fun _ =>
      required (request.integer "amount") "amount is required" fun _ =>
        orError .backendUnavailable "unable to resize tmux pane: " (commandTmuxPane w) fun _ => .ok

/-- `pane.focus`. -/
def handlePaneFocus : StoreM Body :=
  required (request.string "paneId") "paneId is required" fun _ =>
    orError .backendUnavailable "unable to focus tmux pane: " (commandTmuxPane w) fun _ => .ok

/-- `pane.sendKeys`. -/
def handlePaneSendKeys : StoreM Body :=
  required (request.string "paneId") "paneId is required" fun _ =>
    required (request.string "keys") "keys is required" fun _ =>
      orError .backendUnavailable "unable to send tmux keys: " (commandTmuxPane w) fun _ => .ok

/-- `pane.close`. -/
def handlePaneClose : StoreM Body :=
  required (request.string "paneId") "paneId is required" fun paneId =>
    orError .backendUnavailable "unable to close tmux pane: " (closeTmuxPane w paneId) fun _ => .ok

/-- `pane.followTail`. -/
def handlePaneFollowTail : StoreM Body :=
  required (request.string "paneId") "paneId is required" fun paneId =>
    required (request.bool "enabled") "enabled is required" fun enabled =>
      orError .backendUnavailable "unable to set pane follow tail: "
        (onRoot (setPaneFollowTail (w.env rootDocumentPath) paneId enabled)) fun _ => .ok

/-- The methods that drive tmux. -/
def handleTmuxRequest (index : Nat) : Option (StoreM Body) :=
  match request.method with
  | .sessionCreate => some (handleSessionCreate w request index)
  | .windowCreate => some (handleWindowCreate w request)
  | .paneSplit => some (handlePaneSplit w request)
  | .paneCapture => some (handlePaneCapture w request)
  | .paneScroll => some (handlePaneScroll w request)
  | .paneResize => some (handlePaneResize w request)
  | .paneFocus => some (handlePaneFocus w request)
  | .paneSendKeys => some (handlePaneSendKeys w request)
  | .paneClose => some (handlePaneClose w request)
  | .paneFollowTail => some (handlePaneFollowTail w request)
  | _ => none

/-- The methods that touch no document. -/
def handlePlainRequest : StoreM Body :=
  match request.method with
  | .sessionList => handleList w fun snapshots => reply (.sessions (firstOfEach (·.sessionId) snapshots))
  | .windowList => handleList w fun snapshots =>
    reply (.windows (firstOfEach (fun snapshot => (snapshot.sessionId, snapshot.windowId)) snapshots))
  | .paneList => handlePaneList w
  | .bindingsInspect | .bindingsValidate | .bindingsPropose =>
    replyError .unsupported "keybinding analysis is scaffolded but not implemented in this slice"
  | .mouseSet => reply .mousePolicy
  | .modelineSet | .menuSet | .menuProject =>
    replyError .unsupported
      "menu/modeline infrastructure is scaffolded but not implemented in this slice"
  | .nvimAttach | .nvimDetach =>
    replyError .unsupported "Neovim integration is scaffolded but not implemented in this slice"
  | _ => replyError .methodNotFound "unknown method"

/-! ## Dispatch -/

/-- The pump of `handleRequest`: only a request on the root document follows tmux first. -/
def pumpFor (documentPath : Bytes) : StoreM Unit :=
  if documentPath = rootDocumentPath then pumpBeforeRequest w else pure ()

/-- The method of a request, on the document at a place. -/
def handleMethod (documentPath : Bytes) (index : Nat) : StoreM Body :=
  match handleDocumentRequest (w.env documentPath) documentPath request with
  | some handler => onEntry index handler
  | none =>
    match handleTmuxRequest w request index with
    | some handler => rootOnly request documentPath handler
    | none => handlePlainRequest w request

/-- `handleRequest` from the point where the debug methods have been tried. -/
def handleOnEntry (documentPath : Bytes) (index : Nat) : StoreM Body := do
  pumpFor w documentPath
  handleMethod w request documentPath index

/-- The entry of a request: the root document is always there. -/
def requestEntry (documentPath : Bytes) : StoreM Nat :=
  if documentPath = rootDocumentPath then rootDocument else documentEntryForPath documentPath

/-- `handleRequest` from the point where the entry of the request has been looked up. -/
def handleFound (documentPath : Bytes) : Except Failure Nat → StoreM Body
  | .error (.error .unsupportedDocumentPath) =>
    .ret (.ok (.error ⟨.unsupported, ascii "document path " ++ Client.jsonText documentPath ++
      ascii " is not supported yet"⟩))
  | .error failure => .ret (.error failure)
  | .ok index =>
    match handleDebugRequest (w.env documentPath) documentPath request with
    | some handler => onEntry index handler
    | none => handleOnEntry w request documentPath index

/-- `handleRequest` from the point where the document path is known. -/
def handleOnPath (documentPath : Bytes) : StoreM Body :=
  bindResult (requestEntry documentPath) (handleFound w request documentPath)

end Methods

/-- `handleRequest`. -/
def handleRequest (w : Backend) (request : Option RequestEnvelope) : StoreM Body :=
  match request with
  | none => replyError .parseError "invalid JSON-RPC payload"
  | some request =>
    if !request.jsonrpcIsTwo then replyError .invalidRequest "jsonrpc must be 2.0"
    else
      match request.method with
      | .ping => reply .pong
      | .initializeSession | .capabilitiesGet => reply .capabilities
      | .documentList => handleDocumentList
      | .documentCreate => handleDocumentCreate request
      | _ =>
        match requestDocumentPath request with
        | .error _ =>
          replyError .invalidParams "target.documentPath must be a canonical absolute path"
        | .ok documentPath => handleOnPath w request documentPath

/-- `executeQueuedRequest`: what a lane worker does for one request. -/
def executeQueuedRequest (w : Backend) (request : Option RequestEnvelope) : StoreM Body :=
  bindResult (acquireRequestGuard request) fun
  | .ok guard => ensure (handleRequest w request) (releaseGuard guard)
  | .error failure => .ret (.error failure)

end Muxly.Documents
