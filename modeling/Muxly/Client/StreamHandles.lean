/-
# Muxly.Client.StreamHandles -- the handles that read a stream of frames

`TtyOutputStream`, `PaneCaptureStream` and `ProjectionEventStream` of `client.zig` are one shape with
different values: a conversation of the router, a status behind a mutex, and calls that are sequences
of sections on the two. A `StreamHandle` is used by one caller. Between two sections of a call anybody
else may use the router, but for the conversation of the handle, whose name is a fresh number.
-/
import Muxly.Client.PendingRequest
import Muxly.Client.Streams

namespace Muxly.Client

open Muxly.Core Muxly.Daemon Muxly.Server Muxly.Sync

/-! ## Replies -/

/-- `ProjectionEvent`. -/
inductive ProjectionEvent where
  | invalidate (nodeId : Nat) (reason : Bytes)
  | ttyData (nodeId : Nat) (chunk : Bytes)
  | targetGone (nodeId : Nat)
  deriving DecidableEq

/-- What a call returns. -/
inductive StreamReply where
  | data (bytes : Bytes)
  | event (event : ProjectionEvent)
  | overflow
  | closed
  | pending
  | endOfStream
  | requestFailed
  | invalidResponse
  /-- `error.InvalidTtyOutputStream` and its likes, of a handle that is released. -/
  | invalidStream
  | routerError (error : RouterError)
  /-- `close` and `deinit` return nothing. -/
  | done
  deriving DecidableEq

/-- What a reply says. `waitEvent` says by `error.EndOfStream` that the stream is closed. -/
def StreamReply.outcome : StreamReply → StreamReply
  | .endOfStream => .closed
  | reply => reply

/-- The node id of a payload. -/
def eventNodeId (payload : JsonValue) : Option Nat :=
  match payload.get (ascii "nodeId") with
  | some (.integer value) => if value < 0 then none else some value.toInt.toNat
  | _ => none

/-- A text of a payload. -/
def eventText (payload : JsonValue) (fieldName : Bytes) : Option Bytes :=
  match payload.get fieldName with
  | some (.string text) => some text
  | _ => none

/-- The part of `ProjectionEventStream.consumeEnvelope` that reads the event. -/
def eventOf (payload : JsonValue) : Option ProjectionEvent := do
  let name ← eventText payload (ascii "event")
  if name = ascii "invalidate" then
    return .invalidate (← eventNodeId payload) (← eventText payload (ascii "reason"))
  else if name = ascii "tty_data" then
    return .ttyData (← eventNodeId payload) (← eventText payload (ascii "chunk"))
  else if name = ascii "target_gone" then
    return .targetGone (← eventNodeId payload)
  else none

/-- A chunk, as a reply. -/
def StreamReply.ofChunk : Except StreamError StreamChunk → StreamReply
  | .ok (.data bytes) => .data bytes
  | .ok .overflow => .overflow
  | .ok .closed => .closed
  | .error .invalidResponse => .invalidResponse

/-- The payload of the frame that ends a stream. -/
def isNull : JsonValue → Bool
  | .null => true
  | _ => false

/-- `ProjectionEventStream.consumeEnvelope`. -/
def consumeEvent (envelope : StreamEnvelope) : StreamReply :=
  if envelope.conversationError then .requestFailed
  else if envelope.kind ≠ .projectionEvent then .invalidResponse
  else if envelope.fin && isNull envelope.payload then .endOfStream
  else
    match eventOf envelope.payload with
    | some event => .event event
    | none => .invalidResponse

theorem outcome_ofChunk (chunk : Except StreamError StreamChunk) :
    (StreamReply.ofChunk chunk).outcome ≠ .pending := by
  rcases chunk with e | chunk
  · cases e
    nofun
  · cases chunk <;> nofun

theorem outcome_consumeEvent (envelope : StreamEnvelope) :
    (consumeEvent envelope).outcome ≠ .pending := by
  unfold consumeEvent
  split
  · nofun
  · split
    · nofun
    · split
      · nofun
      · split <;> nofun

/-- What a stream looks at in an envelope. -/
def OwnedEnvelope.frame (envelope : OwnedEnvelope) : StreamEnvelope :=
  ⟨envelope.kind, envelope.payload, envelope.fin, envelope.conversationError.isSome⟩

/-! ## Handles -/

/-- What the three handles differ in. -/
structure StreamShape where
  /-- The kind of the frames. -/
  frameKind : ConversationKind
  /-- How `waitChunk` or `waitEvent` says that the stream is closed. -/
  waitClosed : StreamReply
  /-- What `consumeEnvelope` returns. -/
  consume : StreamEnvelope → StreamReply
  /-- `consumeEnvelope` unregisters the conversation when it failed. -/
  unregistersOnError : Bool
  outcome_waitClosed : waitClosed.outcome = .closed
  outcome_consume : ∀ envelope, (consume envelope).outcome ≠ .pending

/-- `TtyOutputStream`. -/
def ttyOutputStream : StreamShape where
  frameKind := .ttyData
  waitClosed := .closed
  consume envelope := .ofChunk (consumeTty envelope)
  unregistersOnError := false
  outcome_waitClosed := rfl
  outcome_consume _ := outcome_ofChunk _

/-- `PaneCaptureStream`. -/
def paneCaptureStream : StreamShape where
  frameKind := .captureData
  waitClosed := .closed
  consume envelope := .ofChunk (consumeCapture envelope)
  unregistersOnError := true
  outcome_waitClosed := rfl
  outcome_consume _ := outcome_ofChunk _

/-- `ProjectionEventStream`. -/
def projectionEventStream : StreamShape where
  frameKind := .projectionEvent
  waitClosed := .endOfStream
  consume := consumeEvent
  unregistersOnError := true
  outcome_waitClosed := rfl
  outcome_consume := outcome_consumeEvent

/-- `TtyOutputStreamStatus`, `PaneCaptureStreamStatus` and `ProjectionEventStreamStatus`. -/
inductive StreamStatus where
  | active
  | closed
  | released
  deriving DecidableEq

/-- What the mutex of a handle guards. -/
structure StreamGuard where
  status : StreamStatus
  released : Bool
  deriving DecidableEq

namespace StreamGuard

variable (guard : StreamGuard)

/-- `currentStatus`. -/
def currentStatus : StreamStatus := if guard.released then .released else guard.status

/-- `markClosed`. -/
def markClosed : Bool × StreamGuard :=
  if guard.released || decide (guard.status = .closed) then (false, guard)
  else (true, { guard with status := .closed })

/-- The last section of `deinit`. -/
def release : StreamGuard := { guard with released := true }

end StreamGuard

/-- The rest of a handle. -/
structure StreamHandle where
  shape : StreamShape
  conversationId : Bytes

/-- What the caller shares with everybody else, and the guarded part of the handle. -/
structure StreamShared where
  router : ConversationRouter
  guard : StreamGuard

/-! ## Calls -/

/-- `waitChunk` or `waitEvent`, `pollChunk` or `pollEvent`, `close` and `deinit`. -/
inductive StreamCall where
  | wait
  | poll
  | close
  | deinit
  deriving DecidableEq

/-- Where a call stands between two sections. -/
inductive StreamStage where
  | begins
  /-- At `waitForEnvelope` or `takeEnvelope`. -/
  | asks
  /-- In `consumeEnvelope`. -/
  | consumes (envelope : OwnedEnvelope)
  /-- In `consumeEnvelope`, at `unregisterConversation`, with what it returns. -/
  | forgets (reply : StreamReply)
  /-- In `close`, at `unregisterConversation`. -/
  | unregisters
  /-- In `deinit`, after `close`. -/
  | releases

/-- What a section leads to. -/
inductive StreamNext where
  | goesOn (stage : StreamStage)
  | returns (reply : StreamReply)

/-- `close` is done. -/
def afterClose : StreamCall → StreamNext
  | .deinit => .goesOn .releases
  | _ => .returns .done

namespace StreamHandle

variable (stream : StreamHandle)

/-- How a call says that the stream is closed. -/
def closedReply : StreamCall → StreamReply
  | .wait => stream.shape.waitClosed
  | _ => .closed

theorem outcome_closedReply (call : StreamCall) : (stream.closedReply call).outcome = .closed := by
  cases call with
  | wait => exact stream.shape.outcome_waitClosed
  | _ => rfl

/-- The frame ends the stream. -/
def isFinal (envelope : StreamEnvelope) : Bool :=
  decide (envelope.kind = stream.shape.frameKind) && envelope.fin && isNull envelope.payload

/-- `consumeEnvelope`, up to `unregisterConversation`. -/
def consumeEnvelope (guard : StreamGuard) (envelope : OwnedEnvelope) : StreamNext × StreamGuard :=
  let reply := stream.shape.consume envelope.frame
  if envelope.conversationError.isSome then
    (if stream.shape.unregistersOnError then .goesOn (.forgets reply) else .returns reply,
      guard.markClosed.2)
  else if stream.isFinal envelope.frame then (.goesOn (.forgets reply), guard.markClosed.2)
  else (.returns reply, guard)

/-- It returns what `consume` does, at once or after it has unregistered the conversation. -/
theorem consumeEnvelope_cases (guard : StreamGuard) (envelope : OwnedEnvelope) : ∃ guard',
    stream.consumeEnvelope guard envelope
      = (.returns (stream.shape.consume envelope.frame), guard') ∨
    stream.consumeEnvelope guard envelope
      = (.goesOn (.forgets (stream.shape.consume envelope.frame)), guard') := by
  unfold consumeEnvelope
  dsimp only
  split
  · refine ⟨guard.markClosed.2, ?_⟩
    split
    · exact .inr rfl
    · exact .inl rfl
  · split
    · exact ⟨guard.markClosed.2, .inr rfl⟩
    · exact ⟨guard, .inl rfl⟩

/-- The first section of a call. -/
def beginCall (s : StreamShared) (call : StreamCall) : StreamNext × StreamShared :=
  if call = .wait ∨ call = .poll then
    match s.guard.currentStatus with
    | .active => (.goesOn .asks, s)
    | .closed => (.returns (stream.closedReply call), s)
    | .released => (.returns .invalidStream, s)
  else
    let (marked, guard) := s.guard.markClosed
    if marked then (.goesOn .unregisters, { s with guard := guard }) else (afterClose call, s)

/-- `waitForEnvelope` and `takeEnvelope`, and what a call makes of their errors. -/
def askRouter (s : StreamShared) (call : StreamCall) : Option (StreamNext × StreamShared) :=
  match s.router.takeEnvelopeLocked stream.conversationId none with
  | .ok (envelope, router) => some (.goesOn (.consumes envelope), { s with router := router })
  | .error .conversationResponseNotFound =>
    if call = .poll then some (.returns .pending, s)
    else if s.router.closed then some (.returns (stream.closedReply call), s)
    else none
  | .error .unknownConversation => some (.returns (stream.closedReply call), s)
  | .error .endOfStream =>
    if call = .poll then some (.returns (.routerError .endOfStream), s)
    else some (.returns (stream.closedReply call), s)

/-- The next section of a call; `none` where it waits. What a `TtyOutputStream` tells the daemon in
`close`, before it unregisters, uses another conversation. -/
def runSection (s : StreamShared) (call : StreamCall) :
    StreamStage → Option (StreamNext × StreamShared)
  | .begins => some (stream.beginCall s call)
  | .asks => stream.askRouter s call
  | .consumes envelope =>
    let (next, guard) := stream.consumeEnvelope s.guard envelope
    some (next, { s with guard := guard })
  | .forgets reply =>
    some (.returns reply,
      { s with router := s.router.unregisterConversation stream.conversationId })
  | .unregisters =>
    some (afterClose call,
      { s with router := s.router.unregisterConversation stream.conversationId })
  | .releases => some (.returns .done, { s with guard := s.guard.release })

end StreamHandle

/-! ## Runs -/

/-- The caller, what it shares, and the envelopes that it has taken so far. -/
structure StreamState extends StreamShared where
  call : Option (StreamCall × StreamStage)
  taken : List OwnedEnvelope

/-- A step. -/
inductive StreamMove where
  /-- The caller calls. -/
  | call (call : StreamCall)
  /-- The caller runs its next section. -/
  | go
  /-- Somebody else runs a section of the router. -/
  | outside (o : Section)

/-- The envelope that a call has just taken. -/
def StreamStage.envelope : StreamStage → Option OwnedEnvelope
  | .consumes envelope => some envelope
  | _ => none

/-- Nobody but the handle registers, unregisters or asks for its conversation. -/
def foreign (conversationId : Bytes) : Section → Bool
  | .registerConversation other | .unregisterConversation other | .takeEnvelope other _
  | .waitForEnvelope other _ => other ≠ conversationId
  | _ => true

namespace StreamHandle

variable (stream : StreamHandle)

/-- The handle as it is opened: its conversation is registered, nothing is pushed. -/
def start : StreamState where
  router := ConversationRouter.init.registerConversation stream.conversationId
  guard := ⟨.active, false⟩
  call := none
  taken := []

/-- One step. -/
def step : StreamMove → StreamState → Option StreamState
  | .call call, s =>
    match s.call with
    | none => some { s with call := some (call, .begins) }
    | some _ => none
  | .go, s => do
    let (call, stage) ← s.call
    let (next, shared) ← stream.runSection s.toStreamShared call stage
    match next with
    | .goesOn stage => return { s with
        toStreamShared := shared
        call := some (call, stage)
        taken := s.taken ++ stage.envelope.toList }
    | .returns _ => return { s with toStreamShared := shared, call := none }
  | .outside o, s =>
    if foreign stream.conversationId o then
      (PendingRpcRequest.outside s.router o).map fun (router, _) => { s with router := router }
    else none

end StreamHandle

/-! ## What others do to a conversation -/

namespace ConversationRouter

variable {router router' : ConversationRouter} {conversationId : Bytes}

/-- A take leaves every conversation registered, and the router as open as it was. -/
theorem registered_take {other : Bytes} {requestId : Option UInt64} {envelope : OwnedEnvelope}
    (h : router.takeEnvelopeLocked other requestId = .ok (envelope, router')) :
    (router'.queue conversationId).isSome = (router.queue conversationId).isSome ∧
      router'.closed = router.closed := by
  rcases router.takeEnvelopeLocked_cases other requestId with ⟨-, htake⟩ | ⟨-, -, -, htake⟩ |
    ⟨envelopes, taken, router₁, hqueue, -, htake, hclosed, -, hothers⟩
  · rw [htake] at h
    cases h
  · rw [htake] at h
    cases h
  · rw [htake] at h
    cases h
    refine ⟨?_, hclosed⟩
    rw [hothers]
    split
    · rename_i heq
      rw [heq, hqueue]
      rfl
    · rfl

/-- A section that does not concern a conversation leaves it as registered as it was. -/
theorem registered_outside (hdistinct : router.Distinct) {o : Section} {pushed : Option OwnedEnvelope}
    (hforeign : foreign conversationId o = true)
    (h : PendingRpcRequest.outside router o = some (router', pushed)) :
    (router'.queue conversationId).isSome = (router.queue conversationId).isSome := by
  rcases outside_cases h with ⟨other, rfl, rfl⟩ | ⟨other, rfl, rfl⟩ | ⟨envelope, -, hpush⟩ |
    ⟨other, requestId, envelope, htake⟩ | rfl | ⟨-, rfl⟩
  · rw [queue_registerConversation, if_neg (Ne.symm (of_decide_eq_true hforeign))]
  · rw [queue_unregisterConversation hdistinct, if_neg (Ne.symm (of_decide_eq_true hforeign))]
  · rw [queue_pushEnvelope hpush]
    split
    · exact Option.isSome_map
    · rfl
  · exact (registered_take htake).1
  · rfl
  · rfl

@[simp]
theorem closed_unregisterConversation (router : ConversationRouter) (conversationId : Bytes) :
    (router.unregisterConversation conversationId).closed = router.closed := by
  unfold unregisterConversation
  split <;> rfl

/-- Only `close` closes the router. -/
theorem closed_outside {o : Section} {pushed : Option OwnedEnvelope} (ho : o ≠ .close)
    (h : PendingRpcRequest.outside router o = some (router', pushed)) :
    router'.closed = router.closed := by
  rcases outside_cases h with ⟨other, -, rfl⟩ | ⟨other, -, rfl⟩ | ⟨envelope, -, hpush⟩ |
    ⟨other, requestId, envelope, htake⟩ | rfl | ⟨hclose, -⟩
  · unfold registerConversation
    split <;> rfl
  · exact closed_unregisterConversation router other
  · obtain ⟨index, -, rfl⟩ := Option.map_eq_some_iff.mp hpush
    rfl
  · exact (@registered_take router router' other other requestId _ htake).2
  · rfl
  · exact absurd hclose ho

end ConversationRouter

end Muxly.Client
