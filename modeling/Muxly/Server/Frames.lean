/-
# Muxly.Server.Frames -- what a connection reads, and what it writes back

The broker of `conversation_broker.zig`: it sorts the lines that a connection reads into requests to
dispatch and lines that it answers itself, and builds the frames that answer a request. A line is
given by what its JSON parses to. A frame is given by its fields; the text of a payload is kept where
a result or an error is decided, and error names that the source appends to a message are left out.
-/
import Muxly.Daemon.Handler

namespace Muxly.Server

open Muxly.Core Muxly.Daemon

/-! ## Frames -/

/-- The JSON text of a request id; `null` and a missing id are `none`. -/
abbrev RpcId := Bytes

/-- `ConversationKind`. -/
inductive ConversationKind where
  | rpc
  | ttyControl
  | ttyData
  | captureData
  | projectionEvent
  deriving DecidableEq

/-- The result member of a response. -/
inductive RpcResult where
  /-- What the router answers. -/
  | routed (payload : Payload)
  /-- The acknowledgement of a stream. -/
  | attached (mode : String)

/-- A JSON-RPC response object. -/
structure RpcResponse where
  id : Option RpcId
  body : Except RpcError RpcResult

/-- The JSON text that a frame carries. -/
inductive FramePayload where
  | null
  | response (response : RpcResponse)
  /-- The object `{"ok":true,"closed":…}`, which is no response object. -/
  | closed (closed : Bool)
  /-- A chunk, or the mark of an overflow. -/
  | ttyData
  | captureData
  | projectionEvent

/-- One line that the daemon writes. -/
inductive Frame where
  | jsonRpc (payload : FramePayload)
  | envelope (conversationId : Bytes) (requestId : Option UInt64) (target : Option RequestTarget)
      (kind : ConversationKind) (payload : FramePayload) (fin : Bool) (error : Option RpcError)

/-! ## Requests -/

/-- The text of a request: its `id` member, and what `parseRequest` makes of the rest. -/
structure RequestText where
  id : Option RpcId
  parsed : Option RequestEnvelope

/-- The id that an answer to the text carries: `null` when it does not parse as a request. -/
def RequestText.rpcId (text : RequestText) : Option RpcId :=
  match text.parsed with
  | some _ => text.id
  | none => none

/-! ## Special requests -/

/-- `SpecialRequestKind`. -/
inductive SpecialRequestKind where
  | none
  | ttyStreamOpen
  | ttyStreamClose
  | paneCaptureStreamOpen
  | paneScrollStreamOpen
  | projectionStreamOpen
  | projectionStreamClose
  deriving DecidableEq

/-- `specialRequestKind`. -/
def specialRequestKind (requestJson : RequestText) : SpecialRequestKind :=
  match requestJson.parsed with
  | none => .none
  | some request =>
    if request.method = .other (ascii "tty.stream.open") then .ttyStreamOpen
    else if request.method = .other (ascii "tty.stream.close") then .ttyStreamClose
    else if request.method = .other (ascii "pane.capture.stream.open") then .paneCaptureStreamOpen
    else if request.method = .other (ascii "pane.scroll.stream.open") then .paneScrollStreamOpen
    else if request.method = .other (ascii "projection.stream.open") then .projectionStreamOpen
    else if request.method = .other (ascii "projection.stream.close") then .projectionStreamClose
    else .none

/-- The `streamConversationId` parameter of a stream close. -/
def streamConversationId (requestJson : RequestText) : Option Bytes :=
  requestJson.parsed.bind fun request => getString request.params (ascii "streamConversationId")

/-! ## Dispatched requests -/

/-- `DispatchRequest.EnvelopeResponse`. -/
structure EnvelopeResponse where
  conversationId : Bytes
  requestId : Option UInt64
  target : Option RequestTarget
  kind : ConversationKind

/-- `DispatchRequest.ResponseMode`. -/
inductive ResponseMode where
  | jsonRpc
  | envelope (response : EnvelopeResponse)

/-- `DispatchRequest`. -/
structure DispatchRequest where
  requestJson : RequestText
  responseMode : ResponseMode

namespace DispatchRequest

variable (request : DispatchRequest)

/-- `buildSuccessFrameOwned`. -/
def buildSuccessFrameOwned (responseJson : FramePayload) : Frame :=
  match request.responseMode with
  | .jsonRpc => .jsonRpc responseJson
  | .envelope response =>
    .envelope response.conversationId response.requestId response.target response.kind
      responseJson true none

/-- `buildFailureFrame`, with `buildJsonRpcErrorForRequest`. -/
def buildFailureFrame (message : String) : Frame :=
  let error : RpcError := ⟨.internalError, ascii message⟩
  match request.responseMode with
  | .jsonRpc => .jsonRpc (.response ⟨request.requestJson.rpcId, .error error⟩)
  | .envelope response =>
    .envelope response.conversationId response.requestId response.target response.kind .null true
      (some error)

/-- What `handleRequest` returns for a request: its response carries the id of the request. -/
def routerResponse (body : Body) : FramePayload :=
  .response ⟨request.requestJson.rpcId, body.map .routed⟩

/-- A frame is a response to the request: in compatibility mode a JSON-RPC response with its id, in
conversation mode an envelope with its conversation id and request id. -/
def Correlated : Frame → Prop
  | .jsonRpc (.response response) =>
    match request.responseMode with
    | .jsonRpc => response.id = request.requestJson.id
    | .envelope _ => False
  | .jsonRpc _ => False
  | .envelope conversationId requestId _ _ _ _ _ =>
    match request.responseMode with
    | .jsonRpc => False
    | .envelope response =>
      conversationId = response.conversationId ∧ requestId = response.requestId

/-- A stream close that names a stream. -/
def ClosesStream : Prop :=
  (specialRequestKind request.requestJson = .ttyStreamClose ∨
    specialRequestKind request.requestJson = .projectionStreamClose) ∧
  (streamConversationId request.requestJson).isSome = true

instance : Decidable request.ClosesStream := inferInstanceAs (Decidable (_ ∧ _))

/-- The frames that the daemon builds in answer to a request. -/
def Answers : Frame → Prop
  | .jsonRpc (.response response) =>
    match request.responseMode with
    | .jsonRpc => response.id = request.requestJson.rpcId ∧ ¬request.ClosesStream
    | .envelope _ => False
  | .jsonRpc (.closed _) =>
    match request.responseMode with
    | .jsonRpc => request.ClosesStream
    | .envelope _ => False
  | .jsonRpc _ => False
  | .envelope conversationId requestId _ _ _ _ _ =>
    match request.responseMode with
    | .jsonRpc => False
    | .envelope response =>
      conversationId = response.conversationId ∧ requestId = response.requestId

instance (frame : Frame) : Decidable (request.Answers frame) :=
  match request, frame with
  | ⟨_, .jsonRpc⟩, .jsonRpc (.response _) => inferInstanceAs (Decidable (_ ∧ ¬_))
  | ⟨_, .jsonRpc⟩, .jsonRpc (.closed _) => inferInstanceAs (Decidable (ClosesStream _))
  | ⟨_, .jsonRpc⟩, .jsonRpc .null | ⟨_, .jsonRpc⟩, .jsonRpc .ttyData
  | ⟨_, .jsonRpc⟩, .jsonRpc .captureData | ⟨_, .jsonRpc⟩, .jsonRpc .projectionEvent
  | ⟨_, .jsonRpc⟩, .envelope .. => isFalse id
  | ⟨_, .envelope _⟩, .envelope .. => inferInstanceAs (Decidable (_ ∧ _))
  | ⟨_, .envelope _⟩, .jsonRpc (.response _) | ⟨_, .envelope _⟩, .jsonRpc (.closed _)
  | ⟨_, .envelope _⟩, .jsonRpc .null | ⟨_, .envelope _⟩, .jsonRpc .ttyData
  | ⟨_, .envelope _⟩, .jsonRpc .captureData | ⟨_, .envelope _⟩, .jsonRpc .projectionEvent =>
    isFalse id

/-- What makes the answers of the daemon correlated: in compatibility mode the request closes no
stream that it names, and its text parses as a request or has no id. -/
def Correlates : Prop :=
  match request.responseMode with
  | .jsonRpc => ¬request.ClosesStream ∧ request.requestJson.rpcId = request.requestJson.id
  | .envelope _ => True

/-- An answer is correlated exactly when the request allows it. -/
theorem correlated_iff {frame : Frame} (h : request.Answers frame) :
    request.Correlated frame ↔ request.Correlates := by
  rcases request with ⟨text, _ | response⟩
  · rcases frame with payload | _
    · rcases payload with _ | response | _ | _ | _ | _
      all_goals first
        | exact absurd h id
        | skip
      · obtain ⟨hid, hcloses⟩ := h
        show response.id = text.id ↔ _ ∧ text.rpcId = text.id
        rw [hid]
        exact ⟨fun heq => ⟨hcloses, heq⟩, And.right⟩
      · exact ⟨False.elim, fun hc => hc.1 h⟩
    · exact absurd h id
  · rcases frame with payload | _
    · rcases payload with _ | response | _ | _ | _ | _
      all_goals exact absurd h id
    · exact ⟨fun _ => trivial, fun _ => h⟩

end DispatchRequest

/-- The acknowledgement of a stream, which only conversation mode has. -/
def EnvelopeResponse.ack (response : EnvelopeResponse) (mode : String) : Frame :=
  .envelope response.conversationId response.requestId response.target .rpc
    (.response ⟨response.requestId.map fun value => ascii (toString value.toNat),
      .ok (.attached mode)⟩) false none

/-- A frame of stream data. -/
def EnvelopeResponse.data (response : EnvelopeResponse) (kind : ConversationKind)
    (payload : FramePayload) (fin : Bool) : Frame :=
  .envelope response.conversationId none response.target kind payload fin none

/-! ## Lines -/

/-- `ConversationEnvelope`: `request` is what its payload parses to as a request. -/
structure ConversationEnvelope where
  conversationId : Bytes
  requestId : Option UInt64
  target : Option RequestTarget
  kind : ConversationKind
  payload : JsonValue
  request : RequestText

/-- A line, by what its JSON parses to. -/
inductive Line where
  | empty
  | invalidJson
  /-- No member `conversationId`. -/
  | compatibility (request : RequestText)
  /-- A member `conversationId`, but no well-formed envelope. -/
  | malformedEnvelope (conversationId : Option Bytes) (kind : Option ConversationKind)
  | envelope (envelope : ConversationEnvelope)

/-- A line of the client library: a request with parameters under a conversation of its own. -/
def rpcLine (conversationId : String) (requestId : UInt64) (method : String)
    (params : Option JsonValue) : Line :=
  .envelope
    { conversationId := ascii conversationId
      requestId := some requestId
      target := none
      kind := .rpc
      payload := .null
      request := ⟨some (ascii (toString requestId.toNat)),
        some ⟨true, none, .other (ascii method), params⟩⟩ }

/-- `Broker`. -/
structure Broker where
  nextCompatConversationId : Nat
  nextGeneratedRequestId : Nat

/-- `Broker.init`. -/
def Broker.init : Broker := ⟨1, 1⟩

/-- `HandleLineResult`. -/
inductive HandleLineResult where
  | immediate (frames : List Frame)
  | dispatch (request : DispatchRequest)

namespace Broker

variable (broker : Broker)

/-- `buildLegacyTtyRequest`: the request that a tty frame stands for, unless its target is no
document path. -/
def buildLegacyTtyRequest (envelope : ConversationEnvelope) (method : Method) :
    Option RequestText × Broker :=
  let documentPath := (envelope.target.bind (·.documentPath)).getD rootDocumentPath
  let (requestId, broker) := match envelope.requestId with
    | some value => (value.toNat, broker)
    | none => (broker.nextGeneratedRequestId,
        { broker with nextGeneratedRequestId := broker.nextGeneratedRequestId + 1 })
  if isCanonicalDocumentPath documentPath then
    (some
      { id := some (ascii (toString requestId))
        parsed := some
          { jsonrpcIsTwo := true
            target := some
              { documentPath := some documentPath
                nodeId := envelope.target.bind (·.nodeId)
                selector := envelope.target.bind (·.selector) }
            method
            params := some envelope.payload } }, broker)
  else (none, broker)

/-- `requestJsonForEnvelope`. -/
def requestJsonForEnvelope (envelope : ConversationEnvelope) : Option RequestText × Broker :=
  match envelope.kind with
  | .rpc => (some envelope.request, broker)
  | .ttyData => broker.buildLegacyTtyRequest envelope .paneSendKeys
  | .ttyControl =>
    match envelope.payload.get (ascii "enabled") with
    | some (.bool _) => broker.buildLegacyTtyRequest envelope .paneFollowTail
    | _ => (none, broker)
  | .captureData => (none, broker)
  | .projectionEvent => (none, broker)

/-- `acceptEnvelopeLine`, for a line that is a well-formed envelope. -/
def acceptEnvelopeLine (envelope : ConversationEnvelope) : HandleLineResult × Broker :=
  match broker.requestJsonForEnvelope envelope with
  | (none, broker) =>
    (.immediate [.envelope envelope.conversationId envelope.requestId envelope.target envelope.kind
      .null true (some ⟨.invalidParams, ascii "unsupported conversation payload"⟩)], broker)
  | (some requestJson, broker) =>
    (.dispatch
      { requestJson
        responseMode := .envelope
          { conversationId := envelope.conversationId
            requestId := envelope.requestId
            target := envelope.target
            kind := envelope.kind } }, broker)

/-- `acceptLine`. -/
def acceptLine : Line → HandleLineResult × Broker
  | .empty | .invalidJson =>
    (.immediate [.jsonRpc (.response
      ⟨none, .error ⟨.parseError, ascii "invalid JSON payload"⟩⟩)], broker)
  | .compatibility requestJson =>
    (.dispatch { requestJson, responseMode := .jsonRpc },
      { broker with nextCompatConversationId := broker.nextCompatConversationId + 1 })
  | .malformedEnvelope conversationId kind =>
    (.immediate [.envelope (conversationId.getD (ascii "invalid-conversation")) none none
      (kind.getD .rpc) .null true
      (some ⟨.invalidRequest, ascii "invalid conversation envelope"⟩)], broker)
  | .envelope envelope => broker.acceptEnvelopeLine envelope

/-- What becomes of the lines that one connection reads, in order; an empty line is skipped. -/
def acceptLines : Broker → List Line → List (Option HandleLineResult)
  | _, [] => []
  | broker, .empty :: rest => none :: acceptLines broker rest
  | broker, line :: rest =>
    some (broker.acceptLine line).1 :: acceptLines (broker.acceptLine line).2 rest

end Broker

end Muxly.Server
