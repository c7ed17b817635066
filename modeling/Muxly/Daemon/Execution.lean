/-
# Muxly.Daemon.Execution -- the threads that run on one document

A lane worker executes a request under the guard that it acquires for it. Besides the requests,
four other kinds of thread take guards of a document: the classification of a request into its
lane, the readers that list documents or open a stream, and the refresh of all sources. Each of
them is a `Task`; a `system` runs any assignment of tasks to threads.

A request on the root document takes no guard. `document.list` takes a reader's guard of every
document, the one that the request names among them. The methods that act on no document other than
the root document are answered without touching this one.
-/
import Muxly.Daemon.Handler

namespace Muxly.Daemon

open Muxly.Control Muxly.Core Muxly.Sync Program

/-- `acquireRequestGuard` for a request on the document with this path. -/
def acquireRequestGuard (documentPath : Bytes) (request : RequestEnvelope) : EntryM RequestGuard :=
  if documentPath = rootDocumentPath then .ret (.ok .none) else acquireRequestGuardForEntry request

/-- Acquire a guard, run `body` under it, release it. -/
def underGuard {α : Type} (acquireGuard : EntryM RequestGuard) (body : EntryM α) : EntryM α :=
  bindResult acquireGuard fun
    | .ok guard => ensure body guard.release
    | .error failure => .ret (.error failure)

/-- The turn of `writeDocumentList` for the document of the request. -/
def listDocument (documentPath : Bytes) : EntryM Body :=
  underGuard acquireQuiescentRead <|
    read fun e => .ok (.ok (.documentList [documentSummary documentPath e.document]))

/-- The part of `handleRequest` that touches the document of the request. -/
def handleOnDocument (env : Env) (documentPath : Bytes) (request : RequestEnvelope) : EntryM Body :=
  if !request.jsonrpcIsTwo then replyError .invalidRequest "jsonrpc must be 2.0"
  else if request.method = .documentList then listDocument documentPath
  else
    match handleDebugRequest env documentPath request with
    | some handler => handler
    | none => (handleDocumentRequest env documentPath request).getD
        (replyError .methodNotFound "unknown method")

/-- `executeQueuedRequest` on one document. -/
def executeRequest (env : Env) (documentPath : Bytes) (request : RequestEnvelope) : EntryM Body :=
  underGuard (acquireRequestGuard documentPath request) (handleOnDocument env documentPath request)

/-- What a thread runs on a document. -/
inductive Task where
  /-- `executeQueuedRequest`. -/
  | request (env : Env) (envelope : RequestEnvelope)
  /-- `classifyExecutionLane`. -/
  | classify (envelope : RequestEnvelope)
  /-- A reader under a quiescent read guard: `writeDocumentList` and the stream handlers. -/
  | observe (look : Document → Except Failure Unit)
  /-- The turn of `refreshSources` for this document. -/
  | refresh (env : Env) (visit : Nat)

/-- The program of a task. -/
def Task.run (documentPath : Bytes) : Task → EntryM Unit
  | .request env envelope =>
    bindResult (executeRequest env documentPath envelope) fun r => .ret (r.map fun _ => ())
  | .classify envelope =>
    bindResult (resolveExecutionDomainRoot envelope) fun r => .ret (r.map fun _ => ())
  | .observe look => underGuard acquireQuiescentRead (read fun e => look e.document)
  | .refresh env visit =>
    underGuard acquireCoordinatorExclusive (refreshSourcesForDocument env visit)

/-- A state of the threads of one document. -/
abbrev System : Type := Config Mutex DocumentEntry GuardPhase Failure Unit

/-- Every thread before its first step. -/
def system (e : DocumentEntry) (tasks : Nat → Task) : System where
  view := { shared := e, tag := fun _ => .idle }
  owner := fun _ => none
  thread t := (tasks t).run e.path

end Muxly.Daemon
