/-
# Muxly.Server.Handlers -- the threads of the daemon, and of its clients, as scripts

The functions of `server.zig` that a connection thread, a lane worker and the reader of a tty stream
run, call by call, with their `defer` and `errdefer` actions. A worker takes up one queued request
as soon as it likes: a lane that runs its requests one after another is one of the orders this
admits. A loop whose length the tmux server decides makes a number of turns that the run fixes; a
party that has made them takes no further step. A panic ends the process, so a party that panics
takes no further step either.

A client thread is a list of calls of the client library: submit a line, or wait for the answer to
one.
-/
import Muxly.Server.State
import Muxly.Sync.Script

namespace Muxly.Server

open Muxly.Core Muxly.Daemon Muxly.Sync Script

/-! ## Calls -/

/-- What a handler asks of the store and of the tmux backend. -/
inductive Consulted where
  | resolveTtyStreamTarget
  | initAttach
  | resolvePaneCaptureRequest
  | capturePane
  | resolveProjectionStreamTarget
  | classifyExecutionLane
  | acquireRequestGuard
  | handleRequest
  | drainEvents
  deriving DecidableEq

/-- A call of one of the threads. -/
inductive Op where
  -- the session of a connection
  | init (s : Nat)
  | retain (s : Nat)
  | release (s : Nat)
  | tryReservePendingSlot (s : Nat)
  | finishPendingRequest (s : Nat)
  | isClosed (s : Nat)
  | markClosed (s : Nat)
  | writeFrame (origin : LineId) (role : Role) (frame : Frame)
  -- the lines of a connection
  | readMessageLine (s : Nat)
  | endOfStream (s : Nat)
  -- the lanes
  | enqueue (l : LineId)
  | dequeue (l : LineId)
  -- the store and the backend
  | consult (what : Consulted)
  | halt
  -- tty streams
  | ttyInit (h : LineId) (conversationId : Bytes)
  | ttyRegister (h : LineId)
  | ttyUnregister (h : LineId)
  | ttyDeinit (h : LineId)
  | ttyRequestClose (h : LineId)
  | ttyRegistryRequestClose (s : Nat) (conversationId : Bytes)
  | waitNextChunk (h : LineId)
  | spawnReader (h : LineId)
  | joinReader (h : LineId)
  | readerStart (h : LineId)
  | readerClosing (h : LineId)
  | enqueueChunk (h : LineId) (length : Nat)
  | finishReader (h : LineId)
  -- projection streams
  | projectionInit (h : LineId) (conversationId : Bytes) (target : Option RequestTarget)
  | projectionRegister (h : LineId)
  | projectionDeinit (h : LineId)
  | projectionUnregister (s : Nat) (conversationId : Bytes)
  | closeSession (s : Nat)
  | broadcast
  -- the client
  | sendLine (l : LineId)
  | awaitAnswer (l : LineId)

/-- The acknowledgement of a projection stream. -/
def Op.isProjectionAck : Op → Bool
  | .writeFrame _ .projectionAck _ => true
  | _ => false

/-- The final response to a line has been written. -/
def State.Answered (st : State) (l : LineId) : Prop :=
  ∃ out ∈ st.output, out.origin = l ∧ out.role.IsAnswer

instance (st : State) (l : LineId) : Decidable (st.Answered l) :=
  inferInstanceAs (Decidable (∃ out ∈ st.output, out.origin = l ∧ out.role.IsAnswer))

/-- One call: what it returns, and the state it leaves. -/
def exec (choice : Choice) (st : State) : Op → Option (Bool × State)
  | .init s => some (true, { st with
      session := Function.update st.session s
        { ConnectionSession.absent with created := true, refCount := 1 } })
  | .retain s => some (true, st.onSession s (·.retain))
  | .release s => some (true, st.onSession s (·.release))
  | .tryReservePendingSlot s =>
    let session := st.session s
    if session.closed || maxPendingRequestsPerConnection ≤ session.pendingRequests then
      some (false, st.onSession s id)
    else
      some (true, st.onSession s fun session =>
        { session with pendingRequests := session.pendingRequests + 1 })
  | .finishPendingRequest s => some (true, st.onSession s (·.finishPendingRequest))
  | .isClosed s => some ((st.session s).closed, st.onSession s id)
  | .markClosed s => some (true, st.onSession s (·.markClosed))
  | .writeFrame origin role frame => some (st.writeFrame origin role frame choice.succeeds)
  | .readMessageLine s =>
    if choice.succeeds then
      if st.read s < st.sent s then
        some (true, { st with read := Function.update st.read s (st.read s + 1) })
      else none
    else some (false, st)
  | .endOfStream _ => some (choice.succeeds, st)
  | .enqueue l =>
    if choice.succeeds then some (true, { st with queued := st.queued ++ [l] })
    else some (false, st)
  | .dequeue l =>
    if l ∈ st.queued then some (true, { st with queued := st.queued.erase l }) else none
  | .consult _ => some (choice.succeeds, st)
  | .halt => none
  | .ttyInit h conversationId =>
    some (true, st.onTty h fun _ =>
      { TtyStreamHandle.absent with inited := true, conversationId })
  | .ttyRegister h => some (true, { st with ttyStreams := st.ttyStreams ++ [h] })
  | .ttyUnregister h => some (true, st.ttyUnregister (st.tty h).conversationId)
  | .ttyDeinit h => some (true, st.onTty h (·.deinit))
  | .ttyRequestClose h => some (true, st.onTty h (·.requestClose))
  | .ttyRegistryRequestClose _ conversationId => some (st.ttyRegistryRequestClose conversationId)
  | .waitNextChunk h =>
    match (st.tty h).queue with
    | _ :: rest => some (true, st.onTty h fun handle => { handle with queue := rest })
    | [] => if (st.tty h).closing || (st.tty h).readerDone then some (false, st) else none
  | .spawnReader h =>
    if choice.succeeds then
      some (true, st.onTty h fun handle => { handle with readerStarted := true })
    else some (false, st)
  | .joinReader h => if (st.tty h).readerDone then some (true, st) else none
  | .readerStart h => if (st.tty h).readerStarted then some (true, st) else none
  | .readerClosing h => some ((st.tty h).closing, st)
  | .enqueueChunk h length => some (true, st.onTty h (·.enqueueOwnedChunk length))
  | .finishReader h => some (true, st.onTty h fun handle => { handle with readerDone := true })
  | .projectionInit h conversationId target =>
    some (true, (st.onSession h.session (·.retain)).onProjection h fun _ =>
      { inited := true, conversationId, target, deinits := 0 })
  | .projectionRegister h =>
    some (true, { st with projectionStreams := st.projectionStreams ++ [h] })
  | .projectionDeinit h => some (true, st.projectionDeinit h)
  | .projectionUnregister _ conversationId => some (st.projectionUnregister conversationId)
  | .closeSession s => some (true, st.closeSession s)
  | .broadcast => some (true, st.broadcast choice)
  | .sendLine l =>
    if st.sent l.session = l.line then
      some (true, { st with sent := Function.update st.sent l.session (l.line + 1) })
    else none
  | .awaitAnswer l =>
    if st.Answered l then some (true, st)
    else if (st.session l.session).Writable then none
    else some (false, st)

/-! ## What a run is given -/

/-- A call of the client library, by the place of its line among the lines of the connection. -/
inductive ClientCall where
  /-- `submitEnvelopeOwned`. -/
  | submit (line : Nat)
  /-- `waitForEnvelope`, for the answer to a line. -/
  | wait (line : Nat)
  deriving DecidableEq

/-- What the clients and the backend do in a run. -/
structure Inputs where
  singleRequestPerConnection : Bool
  /-- The lines of every connection. -/
  lines : Nat → List Line
  /-- The threads of every client. -/
  client : Nat → Nat → List ClientCall
  /-- What `handleRequest` answers to a line. -/
  body : LineId → Body
  /-- How many events the handling of a line sends to the projection streams. -/
  events : LineId → Nat
  /-- How many chunks the stream of a line writes. -/
  chunks : LineId → Nat
  /-- The lengths of the chunks that a pane produces for the tty stream of a line. -/
  paneOutput : LineId → List Nat
  /-- How many events the tmux pump sends. -/
  pumpEvents : Nat

namespace Inputs

variable (inputs : Inputs)

/-- Clients that submit their lines in order, and panes that fall silent. -/
def ofLines (lines : Nat → List Line) : Inputs where
  singleRequestPerConnection := false
  lines
  client s thread := if thread = 0 then (List.range (lines s).length).map .submit else []
  body _ := .ok .pong
  events _ := 0
  chunks _ := 1
  paneOutput _ := []
  pumpEvents := 0

/-- What the broker of a connection makes of its lines. -/
def accepted (s : Nat) : List (Option HandleLineResult) :=
  Broker.init.acceptLines (inputs.lines s)

/-- The request that a line is dispatched as. -/
def request (l : LineId) : Option DispatchRequest :=
  match (inputs.accepted l.session)[l.line]? with
  | some (some (.dispatch request)) => some request
  | _ => none

/-- The request that a line queues for its lane: a special request is served where it is read. -/
def laneRequest (l : LineId) : Option DispatchRequest :=
  (inputs.request l).filter fun request => specialRequestKind request.requestJson = .none

end Inputs

/-! ## Handlers of a connection thread -/

/-- `try session.writeFrame` of a failure frame. -/
def refuse (l : LineId) (request : DispatchRequest) (message : String) : Script Op Unit :=
  attempt (.writeFrame l .answer (request.buildFailureFrame message))

/-- The `@intCast` of the request id in an acknowledgement. -/
def castRequestId (response : EnvelopeResponse) : Script Op Unit :=
  if response.requestId.any fun value => i64Limit ≤ value.toNat then perform .halt
  else return ()

/-- Reserve a pending slot of the session for `body`, or refuse the request. -/
def withPendingSlot (l : LineId) (request : DispatchRequest) (body : Script Op Unit) :
    Script Op Unit := do
  if ← ask (.tryReservePendingSlot l.session) then
    defers (.finishPendingRequest l.session) body
  else refuse l request "connection has too many pending requests"

/-- The events that the handling of a line sends. -/
def notify (count : Nat) : Script Op Unit := forEach (List.range count) fun _ => perform .broadcast

/-- The loop of `handleTtyStreamOpen`. -/
def writeChunks (l : LineId) (response : EnvelopeResponse) : Nat → Script Op Unit
  | 0 => perform .halt
  | turns + 1 => do
    if ← ask (.waitNextChunk l) then
      if ← ask (.writeFrame l .data (response.data .ttyData .ttyData false)) then
        writeChunks l response turns
      else perform (.ttyRequestClose l)
    else return ()

/-- `handleTtyStreamOpen`, from the start of the reader on. -/
def streamTtyOutput (l : LineId) (response : EnvelopeResponse) (chunks : Nat) :
    Script Op Unit :=
  defers (.joinReader l) do
    writeChunks l response chunks
    perform (.writeFrame l .streamEnd (response.data .ttyData .null true))

/-- `handleTtyStreamOpen`, from the acknowledgement on. -/
def attachTtyStream (l : LineId) (response : EnvelopeResponse) (chunks : Nat) :
    Script Op Unit := do
  castRequestId response
  attempt (.writeFrame l .answer (response.ack "live-only"))
  attempt (.spawnReader l)
  streamTtyOutput l response chunks

/-- `handleTtyStreamOpen`, from the creation of the handle on. -/
def serveTtyStream (l : LineId) (response : EnvelopeResponse) (chunks : Nat) : Script Op Unit := do
  perform (.ttyInit l response.conversationId)
  errdefers (.ttyDeinit l) do
    perform (.ttyRegister l)
    defers (.ttyUnregister l) <| defers (.ttyDeinit l) <| attachTtyStream l response chunks

/-- `handleTtyStreamOpen`. -/
def handleTtyStreamOpen (l : LineId) (request : DispatchRequest) (chunks : Nat) :
    Script Op Unit :=
  match request.responseMode with
  | .jsonRpc => refuse l request "tty.stream.open requires a conversation transport"
  | .envelope response =>
    withPendingSlot l request do
      if ← ask (.consult .resolveTtyStreamTarget) then
        if ← ask (.consult .initAttach) then serveTtyStream l response chunks
        else refuse l request "unable to attach tty stream backend: "
      else refuse l request "unable to open tty stream: "

/-- `handleTtyStreamClose` and `handleProjectionStreamClose`, which ask different registries. -/
def handleStreamClose (l : LineId) (request : DispatchRequest) (close : Nat → Bytes → Op) :
    Script Op Unit :=
  match streamConversationId request.requestJson with
  | none => refuse l request "streamConversationId is required"
  | some conversationId => do
    let closed ← ask (close l.session conversationId)
    attempt (.writeFrame l .answer (request.buildSuccessFrameOwned (.closed closed)))

/-- `handleTtyStreamClose`. -/
def handleTtyStreamClose (l : LineId) (request : DispatchRequest) : Script Op Unit :=
  handleStreamClose l request .ttyRegistryRequestClose

/-- `handleProjectionStreamClose`. -/
def handleProjectionStreamClose (l : LineId) (request : DispatchRequest) : Script Op Unit :=
  handleStreamClose l request .projectionUnregister

/-- The loop of `handlePaneCaptureStreamOpen`, and the frame that ends its stream. -/
def writeCapture (l : LineId) (response : EnvelopeResponse) : Nat → Script Op Unit
  | 0 => perform (.writeFrame l .streamEnd (response.data .captureData .null true))
  | turns + 1 => do
    if ← ask (.writeFrame l .data (response.data .captureData .captureData false)) then
      writeCapture l response turns
    else perform (.markClosed l.session)

/-- `handlePaneCaptureStreamOpen`: a capture refreshes the node of its pane. -/
def handlePaneCaptureStreamOpen (l : LineId) (request : DispatchRequest) (events chunks : Nat) :
    Script Op Unit :=
  match request.responseMode with
  | .jsonRpc => refuse l request "pane capture streaming requires a conversation transport"
  | .envelope response =>
    withPendingSlot l request do
      if ← ask (.consult .resolvePaneCaptureRequest) then
        notify events
        if ← ask (.consult .capturePane) then
          castRequestId response
          attempt (.writeFrame l .answer (response.ack "chunked-finite"))
          writeCapture l response chunks
        else refuse l request "unable to capture pane stream: "
      else refuse l request "unable to open pane capture stream: "

/-- `handleProjectionStreamOpen`. -/
def handleProjectionStreamOpen (l : LineId) (request : DispatchRequest) : Script Op Unit :=
  match request.responseMode with
  | .jsonRpc => refuse l request "projection.stream.open requires a conversation transport"
  | .envelope response => do
    if ← ask (.consult .resolveProjectionStreamTarget) then
      perform (.projectionInit l response.conversationId response.target)
      errdefers (.projectionDeinit l) do
        perform (.projectionRegister l)
        castRequestId response
        attempt (.writeFrame l .projectionAck (response.ack "push"))
    else refuse l request "unable to open projection stream: "

/-! ## Threads -/

/-- `session.writeFrame(...) catch { session.markClosed(); return; }`: whether the thread goes on. -/
def writeOrClose (l : LineId) (role : Role) (frame : Frame) : Script Op Bool := do
  if ← ask (.writeFrame l role frame) then return true
  else
    perform (.markClosed l.session)
    return false

/-- The frames that the broker answers itself. -/
def writeImmediate (l : LineId) : List Frame → Script Op Bool
  | [] => return true
  | frame :: rest => do
    if ← writeOrClose l .immediate frame then writeImmediate l rest else return false

/-- The dispatch of an ordinary request to its lane. -/
def dispatchToLane (l : LineId) (request : DispatchRequest) : Script Op Bool := do
  if ← ask (.tryReservePendingSlot l.session) then
    -- A failure leaves the function with the slot still reserved.
    attempt (.consult .classifyExecutionLane)
    perform (.retain l.session)
    if ← ask (.enqueue l) then return true
    else
      perform (.finishPendingRequest l.session)
      perform (.release l.session)
      fail
  else
    writeOrClose l .answer (request.buildFailureFrame "connection has too many pending requests")

/-- One dispatched request: whether the thread goes on. -/
def serveRequest (inputs : Inputs) (l : LineId) (request : DispatchRequest) : Script Op Bool :=
  match specialRequestKind request.requestJson with
  | .ttyStreamOpen => do
    handleTtyStreamOpen l request (inputs.chunks l)
    return true
  | .ttyStreamClose => do
    handleTtyStreamClose l request
    return true
  | .paneCaptureStreamOpen => do
    handlePaneCaptureStreamOpen l request (inputs.events l) (inputs.chunks l)
    return true
  | .paneScrollStreamOpen => do
    handlePaneCaptureStreamOpen l request 0 (inputs.chunks l)
    return true
  | .projectionStreamOpen => do
    handleProjectionStreamOpen l request
    return true
  | .projectionStreamClose => do
    handleProjectionStreamClose l request
    return true
  | .none => dispatchToLane l request

/-- One line: whether the thread goes on. -/
def serveLine (inputs : Inputs) (l : LineId) : HandleLineResult → Script Op Bool
  | .immediate frames => do
    let more ← writeImmediate l frames
    return more && !inputs.singleRequestPerConnection
  | .dispatch request => do
    let more ← serveRequest inputs l request
    return more && !inputs.singleRequestPerConnection

/-- The loop of `serveConnectionImpl`, from line `i` on. -/
def readLoop (inputs : Inputs) (s : Nat) : Nat → List (Option HandleLineResult) → Script Op Unit
  | _, [] => do
    attempt (.endOfStream s)
    perform (.markClosed s)
  | i, none :: rest => do
    attempt (.readMessageLine s)
    readLoop inputs s (i + 1) rest
  | i, some handled :: rest => do
    attempt (.readMessageLine s)
    if ← serveLine inputs ⟨s, i⟩ handled then readLoop inputs s (i + 1) rest else return ()

/-- `serveConnectionImpl`. -/
def serveConnectionImpl (inputs : Inputs) (s : Nat) : Script Op Unit := do
  perform (.init s)
  defers (.release s) <| defers (.closeSession s) <| readLoop inputs s 0 (inputs.accepted s)

/-- `executeQueuedRequest`, once its lane takes the request up. -/
def executeQueuedRequest (inputs : Inputs) (l : LineId) (request : DispatchRequest) :
    Script Op Unit := do
  perform (.dequeue l)
  defers (.finishPendingRequest l.session) <| defers (.release l.session) do
    if ← ask (.isClosed l.session) then return ()
    else if ← ask (.consult .acquireRequestGuard) then
      notify (inputs.events l)
      if ← ask (.consult .handleRequest) then
        let _ ← writeOrClose l .answer
          (request.buildSuccessFrameOwned (request.routerResponse (inputs.body l)))
      else
        let _ ← writeOrClose l .answer (request.buildFailureFrame "daemon request failed: ")
    else
      let _ ← writeOrClose l .answer (request.buildFailureFrame "daemon request guard failed: ")

/-- `ttyStreamReaderLoop`: whether it ends without an error. -/
def ttyStreamReaderLoop (l : LineId) : List Nat → Script Op Bool
  | [] => do
    if ← ask (.readerClosing l) then return true else ask (.consult .drainEvents)
  | length :: rest => do
    if ← ask (.readerClosing l) then return true
    else if ← ask (.consult .drainEvents) then
      perform (.enqueueChunk l length)
      ttyStreamReaderLoop l rest
    else return false

/-- `ttyStreamReaderMain`. -/
def ttyStreamReaderMain (l : LineId) (paneOutput : List Nat) : Script Op Unit := do
  perform (.readerStart l)
  defers (.finishReader l) do
    if ← ttyStreamReaderLoop l paneOutput then return () else perform (.ttyRequestClose l)

/-- A thread of the client of connection `s`. -/
def clientThread (s : Nat) (calls : List ClientCall) : Script Op Unit :=
  forEach calls fun
    | .submit line => perform (.sendLine ⟨s, line⟩)
    | .wait line => perform (.awaitAnswer ⟨s, line⟩)

/-- Who runs a script. -/
inductive Party where
  | connection (s : Nat)
  | worker (l : LineId)
  | reader (l : LineId)
  | client (s thread : Nat)
  | maintenance
  deriving DecidableEq

/-- The script of every party. -/
def scripts (inputs : Inputs) : Party → Script Op Unit
  | .connection s => serveConnectionImpl inputs s
  | .worker l =>
    match inputs.laneRequest l with
    | some request => executeQueuedRequest inputs l request
    | none => return ()
  | .reader l => ttyStreamReaderMain l (inputs.paneOutput l)
  | .client s thread => clientThread s (inputs.client s thread)
  | .maintenance => notify inputs.pumpEvents

end Muxly.Server
