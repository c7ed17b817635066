/-
# Muxly.Server.State -- sessions, stream handles, registries, and what the daemon calls on them

The shared state of `server.zig` and one step for each call on it. A call runs in one step: the
source takes `state_mutex`, `write_mutex` or the mutex of a registry around it. Every call on a
session first looks whether the session is still there; `dangling` records a call that came after
the session was destroyed. Memory allocation is assumed to succeed, except where a request is handed
to its lane; reads, writes, the start of a thread and the tmux backend may fail, which the outside
decides by a `Choice`.

Sessions are numbered by their connections. A line is named by its session and its place among the
lines that the session reads, and the handle that a stream request creates by that line.
-/
import Mathlib.Logic.Function.Basic
import Muxly.Server.Frames

namespace Muxly.Server

open Muxly.Core Muxly.Daemon

/-! ## Sessions -/

/-- A line, by its connection and its place among the lines read. -/
structure LineId where
  session : Nat
  line : Nat
  deriving DecidableEq

/-- `ConnectionSession`. `broken`: a write on its stream has failed. -/
structure ConnectionSession where
  created : Bool
  refCount : Nat
  pendingRequests : Nat
  closed : Bool
  broken : Bool
  destroyed : Nat
  dangling : Bool
  deriving DecidableEq

/-- A session that no connection has created yet. -/
def ConnectionSession.absent : ConnectionSession := ⟨false, 0, 0, false, false, 0, false⟩

/-- `max_pending_requests_per_connection`. -/
def maxPendingRequestsPerConnection : Nat := 32

namespace ConnectionSession

variable (session : ConnectionSession)

/-- The session is in memory. -/
def Alive : Prop := session.created = true ∧ session.destroyed = 0

instance : Decidable session.Alive := inferInstanceAs (Decidable (_ ∧ _))

/-- A call reaches the session. -/
def touch : ConnectionSession :=
  { session with dangling := session.dangling || !decide session.Alive }

/-- `retain`. -/
def retain : ConnectionSession := { session with refCount := session.refCount + 1 }

/-- `release`: the last one closes the session and destroys it. -/
def release : ConnectionSession :=
  if session.refCount = 1 then
    { session with refCount := 0, closed := true, destroyed := session.destroyed + 1 }
  else { session with refCount := session.refCount - 1 }

/-- `finishPendingRequest`. -/
def finishPendingRequest : ConnectionSession :=
  { session with pendingRequests := session.pendingRequests - 1 }

/-- `markClosed`. -/
def markClosed : ConnectionSession := { session with closed := true }

/-- A frame can still be written. -/
def Writable : Prop := session.closed = false ∧ session.broken = false

instance : Decidable session.Writable := inferInstanceAs (Decidable (_ ∧ _))

end ConnectionSession

/-! ## Handles -/

/-- `TtyQueuedChunk`, by the number of its bytes. -/
inductive TtyQueuedChunk where
  | data (length : Nat)
  | overflow
  deriving DecidableEq

/-- The bytes that a queued chunk counts for. -/
def TtyQueuedChunk.length : TtyQueuedChunk → Nat
  | .data length => length
  | .overflow => 0

/-- `max_tty_output_queue_bytes`. -/
def maxTtyOutputQueueBytes : Nat := 4 * 1024 * 1024

/-- `TtyStreamHandle`. `deinits` counts the calls of `deinit`. -/
structure TtyStreamHandle where
  inited : Bool
  conversationId : Bytes
  queue : List TtyQueuedChunk
  overflowPending : Bool
  closing : Bool
  readerStarted : Bool
  readerDone : Bool
  deinits : Nat
  deriving DecidableEq

namespace TtyStreamHandle

/-- A handle that no request has created yet. -/
def absent : TtyStreamHandle := ⟨false, [], [], false, false, false, false, 0⟩

variable (handle : TtyStreamHandle)

/-- `requestClose`. -/
def requestClose : TtyStreamHandle :=
  { handle with closing := true, queue := [], overflowPending := false }

/-- `deinit`. -/
def deinit : TtyStreamHandle := { handle.requestClose with deinits := handle.deinits + 1 }

/-- The loop of `enqueueOwnedChunk` that drops the oldest data until `length` more bytes fit. -/
def makeRoom (length : Nat) : Nat → List TtyQueuedChunk → Bool → List TtyQueuedChunk × Bool
  | 0, queue, overflowPending => (queue, overflowPending)
  | turns + 1, queue, overflowPending =>
    if (queue.map (·.length)).sum + length > maxTtyOutputQueueBytes then
      if queue.any (· ≠ .overflow) then
        makeRoom length turns (queue.eraseP (· ≠ .overflow)) true
      else (queue, overflowPending)
    else (queue, overflowPending)

/-- `enqueueOwnedChunk`, for data. -/
def enqueueOwnedChunk (length : Nat) : TtyStreamHandle :=
  if handle.closing then handle
  else
    let (queue, overflowPending) :=
      makeRoom length handle.queue.length handle.queue handle.overflowPending
    { handle with
      queue := (if overflowPending then queue ++ [.overflow] else queue) ++ [.data length]
      overflowPending := false }

end TtyStreamHandle

/-- `ProjectionStreamHandle`; the session it holds is the one of its line. -/
structure ProjectionStreamHandle where
  inited : Bool
  conversationId : Bytes
  target : Option RequestTarget
  deinits : Nat
  deriving DecidableEq

/-- A handle that no request has created yet. -/
def ProjectionStreamHandle.absent : ProjectionStreamHandle := ⟨false, [], none, 0⟩

/-- The handle is initialised and not yet deinitialised. -/
def ProjectionStreamHandle.Live (handle : ProjectionStreamHandle) : Prop :=
  handle.inited = true ∧ handle.deinits = 0

/-! ## Shared state -/

/-- What a frame is written for. -/
inductive Role where
  /-- A line that the broker answers itself. -/
  | immediate
  /-- The final response to a request. -/
  | answer
  /-- The response that acknowledges a projection stream. -/
  | projectionAck
  /-- Data of a stream, and its end. -/
  | data
  | streamEnd
  deriving DecidableEq

/-- The frame is the final response to its request. -/
def Role.IsAnswer (role : Role) : Prop := role = .answer ∨ role = .projectionAck

instance (role : Role) : Decidable role.IsAnswer := inferInstanceAs (Decidable (_ ∨ _))

/-- A frame that has been written, and the line that it was written for. -/
structure Output where
  origin : LineId
  role : Role
  frame : Frame

/-- The state that the threads of the daemon share, with the lines that the clients have sent. -/
structure State where
  session : Nat → ConnectionSession
  tty : LineId → TtyStreamHandle
  projection : LineId → ProjectionStreamHandle
  /-- `TtyStreamRegistry.streams`. -/
  ttyStreams : List LineId
  /-- `ProjectionStreamRegistry.streams`. -/
  projectionStreams : List LineId
  /-- The requests that wait in the lanes. -/
  queued : List LineId
  output : List Output
  /-- How many lines the client of a connection has sent, and how many the daemon has read. -/
  sent : Nat → Nat
  read : Nat → Nat

/-- What the outside decides at a step. -/
structure Choice where
  /-- A call that may fail succeeds. -/
  succeeds : Bool
  /-- The event of a broadcast concerns this handle. -/
  addresses : LineId → Bool
  /-- The write of a broadcast to this handle fails. -/
  fails : LineId → Bool

/-- Everything succeeds, and a broadcast concerns nobody. -/
def Choice.fine : Choice := ⟨true, fun _ => false, fun _ => false⟩

namespace State

variable (st : State)

/-- The state at the start of the daemon. -/
def start : State where
  session _ := .absent
  tty _ := .absent
  projection _ := .absent
  ttyStreams := []
  projectionStreams := []
  queued := []
  output := []
  sent _ := 0
  read _ := 0

/-- A call on session `s`. -/
def onSession (s : Nat) (f : ConnectionSession → ConnectionSession) : State :=
  { st with session := Function.update st.session s (f (st.session s).touch) }

/-- A call on a tty handle. -/
def onTty (h : LineId) (f : TtyStreamHandle → TtyStreamHandle) : State :=
  { st with tty := Function.update st.tty h (f (st.tty h)) }

/-- A call on a projection handle. -/
def onProjection (h : LineId) (f : ProjectionStreamHandle → ProjectionStreamHandle) : State :=
  { st with projection := Function.update st.projection h (f (st.projection h)) }

/-- `ConnectionSession.writeFrame` on the session of the line that the frame belongs to. -/
def writeFrame (origin : LineId) (role : Role) (frame : Frame) (succeeds : Bool) : Bool × State :=
  if (st.session origin.session).closed then (false, st.onSession origin.session id)
  else if (st.session origin.session).broken || !succeeds then
    (false, st.onSession origin.session fun session => { session with broken := true })
  else
    (true, { st.onSession origin.session id with output := st.output ++ [⟨origin, role, frame⟩] })

/-! ## Tty registry -/

/-- `TtyStreamRegistry.unregister`: the first handle with the conversation id leaves. -/
def ttyUnregister (conversationId : Bytes) : State :=
  { st with ttyStreams := st.ttyStreams.eraseP fun h => (st.tty h).conversationId = conversationId }

/-- `TtyStreamRegistry.requestClose`: the first handle with the conversation id closes. -/
def ttyRegistryRequestClose (conversationId : Bytes) : Bool × State :=
  match st.ttyStreams.find? fun h => (st.tty h).conversationId = conversationId with
  | some h => (true, st.onTty h (·.requestClose))
  | none => (false, st)

/-! ## Projection registry -/

/-- `ProjectionStreamHandle.deinit`: the handle releases its session. -/
def projectionDeinit (h : LineId) : State :=
  (st.onProjection h fun handle => { handle with deinits := handle.deinits + 1 }).onSession
    h.session (·.release)

/-- `ProjectionStreamRegistry.unregister`: the first handle with the conversation id leaves and is
deinitialised. -/
def projectionUnregister (conversationId : Bytes) : Bool × State :=
  match st.projectionStreams.find? fun h => (st.projection h).conversationId = conversationId with
  | some h =>
    (true, { st with
      projectionStreams := st.projectionStreams.eraseP fun h =>
        (st.projection h).conversationId = conversationId }.projectionDeinit h)
  | none => (false, st)

/-- One turn of `ProjectionStreamRegistry.closeSession`. -/
def dropStream (h : LineId) : State :=
  { st with projectionStreams := st.projectionStreams.erase h }.projectionDeinit h

/-- `ProjectionStreamRegistry.closeSession`: every handle of the session leaves. -/
def closeSession (s : Nat) : State :=
  (st.projectionStreams.filter (·.session = s)).foldl dropStream st

/-- The event frame of a broadcast to one handle. -/
def eventFrame (h : LineId) : Frame :=
  .envelope (st.projection h).conversationId none (st.projection h).target .projectionEvent
    .projectionEvent false none

/-- One turn of the sending loop of `broadcast`: a failed write makes the conversation id stale. -/
def sendEvent (choice : Choice) (acc : State × List Bytes) (h : LineId) : State × List Bytes :=
  if choice.addresses h then
    let (wrote, st) := acc.1.writeFrame h .data (acc.1.eventFrame h) !choice.fails h
    (st, if wrote then acc.2 else acc.2 ++ [(st.projection h).conversationId])
  else acc

/-- `ProjectionStreamRegistry.broadcast`: the handles that the event concerns are the outside's
choice. For every stale conversation id the first handle that has it leaves. -/
def broadcast (choice : Choice) : State :=
  let (st', stale) := st.projectionStreams.foldl (sendEvent choice) (st, [])
  stale.foldl (fun st conversationId => (st.projectionUnregister conversationId).2) st'

end State

end Muxly.Server
