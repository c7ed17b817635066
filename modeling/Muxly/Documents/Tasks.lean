/-
# Muxly.Documents.Tasks -- what the threads of the daemon do on the store

Besides the requests that the lane workers execute, a request is sorted into its lane by the thread
of its connection; a stream is opened by the same thread, which looks its target up under a reader's
guard, or captures a pane; and the root lane runs the pump. Each of them is a `Task`, and a
`storeSystem` runs any assignment of tasks to threads on one store.
-/
import Muxly.Documents.Requests

namespace Muxly.Documents

open Muxly.Control Muxly.Core Muxly.Daemon Muxly.Sync Program

/-! ## The lane of a request -/

/-- `resolveExecutionDomainRootForRequest`. -/
def resolveExecutionDomainRootForRequest (documentPath : Bytes) (request : RequestEnvelope) :
    StoreM (Option Nat) :=
  bindResult (documentEntryForPath documentPath) fun
  | .ok index => onEntry index (resolveExecutionDomainRoot request)
  | .error (.error .unsupportedDocumentPath) => pure none
  | .error failure => .ret (.error failure)

/-- `classifyExecutionLane`, for a request that has been parsed. -/
def classifyParsed (request : RequestEnvelope) : StoreM Conversation.ExecutionLane :=
  match requestDocumentPath request with
  | .error _ => pure .root
  | .ok documentPath =>
    if documentPath = rootDocumentPath then pure .root
    else if Conversation.requestRunsOnDocumentLane request.method request.params = false then
      pure .root
    else if requestSupportsDynamicDomainLane request then do
      let domain ← resolveExecutionDomainRootForRequest documentPath request
      return domain.elim (.documentCoordinator documentPath) (.documentDomain documentPath)
    else pure (.documentCoordinator documentPath)

/-! ## The target of a stream -/

/-- What a stream handler reads of a document, under a reader's guard. -/
def observeTarget {α : Type} (documentPath : Bytes) (look : Document → Except Failure α) :
    StoreM α := do
  let index ← documentEntryForPath documentPath
  onEntry index (underGuard acquireQuiescentRead (read fun e => look e.document))

/-- The root node of a projection stream, in `resolveProjectionStreamTarget`. -/
def projectionStreamRoot (target : Option RequestTarget) (d : Document) : Except Failure Nat :=
  match target with
  | none => .ok (d.viewRootNodeId.getD d.rootNodeId)
  | some target =>
    match target.nodeId with
    | some nodeId => do
      let _ ← d.nodeOr nodeId.toNat .unknownNode
      return nodeId.toNat
    | none =>
      match target.selector with
      | some selector => d.resolveSelector (some selector)
      | none => .ok (d.viewRootNodeId.getD d.rootNodeId)

/-- `resolveProjectionStreamTarget`. -/
def resolveProjectionStreamTarget (request : RequestEnvelope) : StoreM (Bytes × Nat) := do
  let documentPath ← read fun _ => requestDocumentPath request
  let rootNodeId ← observeTarget documentPath (projectionStreamRoot request.target)
  return (documentPath, rootNodeId)

/-- `requestTargetNodeId`, with the field that all its callers name. -/
def requestTargetNodeId (request : RequestEnvelope) : Except Failure Int :=
  match request.target.bind (·.nodeId) with
  | some value =>
    if value.toNat ≥ i64Limit then .error (.error .invalidNodeTarget) else .ok value.toNat
  | none =>
    if (request.target.bind (·.selector)).isSome then
      .error (.error (.backend (ascii "UnsupportedNodeSelector")))
    else
      match getInteger request.params (ascii "nodeId") with
      | some nodeId => .ok nodeId
      | none => .error (.error .missingNodeTarget)

/-- The node that a tty stream follows, as `resolveTtyStreamTarget` takes it from the request. -/
def ttyStreamNodeId (request : RequestEnvelope) : Except Failure Nat := do
  let nodeId ← requestTargetNodeId request
  if nodeId < 0 then throw (.error .invalidNodeTarget)
  return nodeId.toNat

/-- The session and the pane of a tty stream, in `resolveTtyStreamTarget`. -/
def ttyStreamSource (nodeId : Nat) (d : Document) : Except Failure (Bytes × Bytes) := do
  let node ← d.nodeOr nodeId .unknownNode
  match node.source with
  | .tty tty =>
    match tty.paneId with
    | some paneId => return (tty.sessionName, paneId)
    | none => throw (.error .missingPaneId)
  | _ => throw (.error .invalidSourceKind)

/-- `resolveTtyStreamTarget`. -/
def resolveTtyStreamTarget (request : RequestEnvelope) : StoreM (Bytes × Nat × Bytes × Bytes) := do
  let documentPath ← read fun _ => requestDocumentPath request
  let nodeId ← read fun _ => ttyStreamNodeId request
  let (sessionName, paneId) ← observeTarget documentPath (ttyStreamSource nodeId)
  return (documentPath, nodeId, sessionName, paneId)

/-! ## Threads -/

/-- Run a program for what it does to the store. -/
def discard {α : Type} (p : StoreM α) : StoreM Unit :=
  bindResult p fun r => .ret (r.map fun _ => ())

/-- What a thread does on the store. -/
inductive Task where
  /-- `executeQueuedRequest`. -/
  | execute (w : Backend) (request : Option RequestEnvelope)
  /-- `classifyExecutionLane`. -/
  | classify (request : RequestEnvelope)
  /-- The target of a projection stream. -/
  | projectionStream (request : RequestEnvelope)
  /-- The target of a tty stream. -/
  | ttyStream (request : RequestEnvelope)
  /-- The pane of a capture stream. -/
  | paneStream (w : Backend) (paneId : Bytes)
  /-- `executeMaintenance`. -/
  | maintenance (w : Backend)

/-- The program of a task. -/
def Task.run : Task → StoreM Unit
  | .execute w request => discard (executeQueuedRequest w request)
  | .classify request => discard (classifyParsed request)
  | .projectionStream request => discard (resolveProjectionStreamTarget request)
  | .ttyStream request => discard (resolveTtyStreamTarget request)
  | .paneStream w paneId => discard (captureTmuxPane w paneId)
  | .maintenance w => pumpTmuxBackend w

/-- A state of the threads of the daemon on its store. -/
abbrev StoreSystem : Type := Config StoreMutex Store Unit Failure Unit

/-- Every thread before its first step. -/
def storeSystem (s : Store) (tasks : Nat → Task) : StoreSystem where
  view := { shared := s, tag := fun _ => () }
  owner := fun _ => none
  thread t := (tasks t).run

end Muxly.Documents
