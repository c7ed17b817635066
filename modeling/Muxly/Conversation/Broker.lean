/-
# Muxly.Conversation.Broker -- what a line is answered with

`conversation_broker.zig` over bytes: a line is read as JSON, sorted into a bare request or an
envelope, given to a handler, and answered with the text of one frame.

The broker reads a line twice. The first reading is of a `std.json.Value`, which refuses a line in
which any object names a member twice. The second is of the envelope, which minds only its own
fields. So a line can be a well-formed envelope and still be refused by the first reading.
-/
import Muxly.Client.Framing
import Muxly.Data.JsonWrite

namespace Muxly.Conversation

open Muxly.Core Muxly.Daemon Muxly.Client Muxly.Data
open Muxly.Server (ConversationKind EnvelopeResponse ResponseMode Broker)

/-! ## Frames -/

/-- `WireKind`. -/
inductive WireKind where
  | jsonRpc
  | envelope
  deriving DecidableEq

/-- `OutboundFrame`. -/
structure OutboundFrame where
  wireKind : WireKind
  bytes : Bytes

/-- `ResponseBatch`. -/
abbrev ResponseBatch := List OutboundFrame

/-- `@intFromEnum` of an error code. -/
def errorCode : RpcErrorCode → Int
  | .parseError => -32700
  | .invalidRequest => -32600
  | .methodNotFound => -32601
  | .invalidParams => -32602
  | .internalError => -32603
  | .unsupported => -32001
  | .backendUnavailable => -32002
  | .sourceError => -32004

/-- An error as the envelope carries it. -/
def conversationError (code : RpcErrorCode) (message : Bytes) : ConversationError :=
  ⟨Int64.ofInt (errorCode code), message⟩

section Broker

-- What `std.json` makes of a number with a fraction or an exponent where an integer is due, and how
-- it prints a number that it has read.
variable (floatToInt : Bytes → Option Int) (numberText : Bytes → Bytes)

/-- `writeId`. -/
def writeId (id : Option Json) : Bytes :=
  match id with
  | some value => value.write numberText
  | none => ascii "null"

/-- `buildJsonRpcError`, with `writeError`. -/
def buildJsonRpcError (id : Option Json) (code : RpcErrorCode) (message : Bytes) : Bytes :=
  ascii "\x7b\"jsonrpc\":\"2.0\",\"id\":" ++ writeId numberText id ++
    ascii ",\"error\":\x7b\"code\":" ++ decimalInt (errorCode code) ++ ascii ",\"message\":" ++
    jsonText message ++ ascii "\x7d\x7d"

/-- `buildJsonRpcErrorForRequest`. -/
def buildJsonRpcErrorForRequest (requestJson : Bytes) (code : RpcErrorCode) (message : Bytes) :
    Bytes :=
  match parseRequest floatToInt requestJson with
  | none => buildJsonRpcError numberText none code message
  | some request => buildJsonRpcError numberText request.id code message

/-! ## Requests -/

/-- `DispatchRequest`. -/
structure DispatchRequest where
  requestJson : Bytes
  responseMode : ResponseMode

/-- `buildSuccessFrameOwned`. -/
def DispatchRequest.buildSuccessFrameOwned (request : DispatchRequest) (responseJson : Bytes) :
    OutboundFrame :=
  match request.responseMode with
  | .jsonRpc => ⟨.jsonRpc, responseJson⟩
  | .envelope response =>
    ⟨.envelope, writeConversationEnvelope response.conversationId response.requestId response.target
      response.kind responseJson true none⟩

/-- `buildFailureFrame`. -/
def DispatchRequest.buildFailureFrame (request : DispatchRequest) (message : Bytes) :
    OutboundFrame :=
  match request.responseMode with
  | .jsonRpc =>
    ⟨.jsonRpc, buildJsonRpcErrorForRequest floatToInt numberText request.requestJson .internalError
      message⟩
  | .envelope response =>
    ⟨.envelope, writeConversationEnvelope response.conversationId response.requestId response.target
      response.kind (ascii "null") true (some (conversationError .internalError message))⟩

/-- `HandleLineResult`. -/
inductive HandleLineResult where
  | immediate (batch : ResponseBatch)
  | dispatch (request : DispatchRequest)

/-- `buildLegacyTtyRequest`; `none` is `error.InvalidDocumentPath`. -/
def buildLegacyTtyRequest (broker : Broker) (envelope : EnvelopeMessage) (method : Bytes) :
    Option Bytes × Broker :=
  let paramsJson := envelope.payload.write numberText
  let (requestId, broker) := match envelope.requestId with
    | some value => (value, broker)
    | none => (UInt64.ofNat broker.nextGeneratedRequestId,
        { broker with nextGeneratedRequestId := broker.nextGeneratedRequestId + 1 })
  (writeClientRequestTarget requestId (envelope.target.getD ⟨none, none, none⟩) method paramsJson,
    broker)

/-- `buildLegacyTtyControlRequest`. -/
def buildLegacyTtyControlRequest (broker : Broker) (envelope : EnvelopeMessage) :
    Option Bytes × Broker :=
  match envelope.payload with
  | .object ms =>
    match ms.lookup (ascii "enabled") with
    | some (.bool _) => buildLegacyTtyRequest numberText broker envelope (ascii "pane.followTail")
    | _ => (none, broker)
  | _ => (none, broker)

/-- `requestJsonForEnvelope`. -/
def requestJsonForEnvelope (broker : Broker) (envelope : EnvelopeMessage) :
    Option Bytes × Broker :=
  match envelope.kind with
  | .rpc => (some (envelope.payload.write numberText), broker)
  | .ttyData => buildLegacyTtyRequest numberText broker envelope (ascii "pane.sendKeys")
  | .ttyControl => buildLegacyTtyControlRequest numberText broker envelope
  | .captureData => (none, broker)
  | .projectionEvent => (none, broker)

/-! ## Lines -/

/-- `extractConversationId`, from the members of the line. -/
def extractConversationId (ms : List (Bytes × Json)) : Option Bytes :=
  match ms.lookup (ascii "conversationId") with
  | some (.string conversationId) => some conversationId
  | _ => none

/-- `extractConversationKind`, from the members of the line. -/
def extractConversationKind (ms : List (Bytes × Json)) : Option ConversationKind :=
  match ms.lookup (ascii "kind") with
  | some (.string name) => conversationKinds.find? fun kind => kindTag kind = name
  | _ => none

/-- `acceptEnvelopeLine`. -/
def acceptEnvelopeLine (broker : Broker) (line : Bytes) (ms : List (Bytes × Json)) :
    HandleLineResult × Broker :=
  let conversationId := (extractConversationId ms).getD (ascii "invalid-conversation")
  let conversationKind := (extractConversationKind ms).getD .rpc
  match parseConversationEnvelope floatToInt line with
  | none =>
    (.immediate [⟨.envelope, writeConversationEnvelope conversationId none none conversationKind
      (ascii "null") true
      (some (conversationError .invalidRequest (ascii "invalid conversation envelope")))⟩], broker)
  | some envelope =>
    match requestJsonForEnvelope numberText broker envelope with
    | (none, broker) =>
      (.immediate [⟨.envelope, writeConversationEnvelope envelope.conversationId envelope.requestId
        envelope.target envelope.kind (ascii "null") true
        (some (conversationError .invalidParams (ascii "unsupported conversation payload")))⟩],
        broker)
    | (some requestJson, broker) =>
      (.dispatch
        { requestJson
          responseMode := .envelope
            { conversationId := envelope.conversationId
              requestId := envelope.requestId
              target := envelope.target
              kind := envelope.kind } }, broker)

/-- `acceptLine`, with `acceptCompatibilityLine`. -/
def acceptLine (broker : Broker) (line : Bytes) : HandleLineResult × Broker :=
  match parseValue line with
  | none =>
    (.immediate [⟨.jsonRpc,
      buildJsonRpcError numberText none .parseError (ascii "invalid JSON payload")⟩], broker)
  | some (.object ms) =>
    if (ms.lookup (ascii "conversationId")).isSome then
      acceptEnvelopeLine floatToInt numberText broker line ms
    else
      (.dispatch ⟨line, .jsonRpc⟩,
        { broker with nextCompatConversationId := broker.nextCompatConversationId + 1 })
  | some _ =>
    (.dispatch ⟨line, .jsonRpc⟩,
      { broker with nextCompatConversationId := broker.nextCompatConversationId + 1 })

/-- `handleLine`; the handler returns bytes, or the name of its error. -/
def handleLine (broker : Broker) (line : Bytes) (handler : Bytes → Except Bytes Bytes) :
    ResponseBatch × Broker :=
  match acceptLine floatToInt numberText broker line with
  | (.immediate batch, broker) => (batch, broker)
  | (.dispatch request, broker) =>
    match handler request.requestJson with
    | .error errorName =>
      ([request.buildFailureFrame floatToInt numberText
        (ascii "conversation handler failed: " ++ errorName)], broker)
    | .ok responseJson => ([request.buildSuccessFrameOwned responseJson], broker)

end Broker

/-! ## What becomes of a line -/

/-- The line is a JSON object, in `std.json`'s reading, and has a member `conversationId`. -/
def NamesConversation (line : Bytes) : Prop :=
  ∃ ms, parseValue line = some (.object ms) ∧ (ms.lookup (ascii "conversationId")).isSome = true

instance (line : Bytes) : Decidable (NamesConversation line) :=
  decidable_of_iff ((parseValue line).any fun v => match v with
      | .object ms => (ms.lookup (ascii "conversationId")).isSome
      | _ => false) (by
    constructor
    · intro h
      obtain ⟨v, hv, hmember⟩ := (Option.any_eq_true _ _).mp h
      split at hmember
      · rename_i ms
        exact ⟨ms, hv, hmember⟩
      · cases hmember
    · rintro ⟨ms, hms, hmember⟩
      rw [hms]
      exact hmember)

section Lines

variable {floatToInt : Bytes → Option Int} {numberText : Bytes → Bytes} {broker broker' : Broker}
  {line : Bytes}

/-- Everything that `acceptLine` can make of a line. -/
inductive Accepts (floatToInt : Bytes → Option Int) (numberText : Bytes → Bytes) (broker : Broker)
    (line : Bytes) : HandleLineResult → Prop
  | invalid (message : Bytes) : parseValue line = none →
      Accepts floatToInt numberText broker line
        (.immediate [⟨.jsonRpc, buildJsonRpcError numberText none .parseError message⟩])
  | compatibility : parseValue line ≠ none → ¬NamesConversation line →
      Accepts floatToInt numberText broker line (.dispatch ⟨line, .jsonRpc⟩)
  | malformed (conversationId : Bytes) (kind : ConversationKind) (err : ConversationError) :
      NamesConversation line → parseConversationEnvelope floatToInt line = none →
      Accepts floatToInt numberText broker line
        (.immediate [⟨.envelope, writeConversationEnvelope conversationId none none kind
          (ascii "null") true (some err)⟩])
  | unsupported (envelope : EnvelopeMessage) (err : ConversationError) :
      NamesConversation line → parseConversationEnvelope floatToInt line = some envelope →
      (requestJsonForEnvelope numberText broker envelope).1 = none →
      Accepts floatToInt numberText broker line
        (.immediate [⟨.envelope, writeConversationEnvelope envelope.conversationId
          envelope.requestId envelope.target envelope.kind (ascii "null") true (some err)⟩])
  | envelope (envelope : EnvelopeMessage) (requestJson : Bytes) :
      NamesConversation line → parseConversationEnvelope floatToInt line = some envelope →
      (requestJsonForEnvelope numberText broker envelope).1 = some requestJson →
      Accepts floatToInt numberText broker line
        (.dispatch ⟨requestJson, .envelope ⟨envelope.conversationId, envelope.requestId,
          envelope.target, envelope.kind⟩⟩)

theorem namesConversation_iff {ms : List (Bytes × Json)} (h : parseValue line = some (.object ms)) :
    NamesConversation line ↔ (ms.lookup (ascii "conversationId")).isSome = true := by
  constructor
  · rintro ⟨ms', hms', hmember⟩
    cases h.symm.trans hms'
    exact hmember
  · exact fun hmember => ⟨ms, h, hmember⟩

theorem accepts_acceptEnvelopeLine {ms : List (Bytes × Json)} (h : NamesConversation line) :
    Accepts floatToInt numberText broker line
      (acceptEnvelopeLine floatToInt numberText broker line ms).1 := by
  rw [acceptEnvelopeLine]
  cases hparse : parseConversationEnvelope floatToInt line with
  | none => exact .malformed _ _ _ h hparse
  | some envelope =>
      cases hrequest : requestJsonForEnvelope numberText broker envelope with
      | mk request broker' =>
          cases request with
          | none =>
              simp only [hrequest]
              exact .unsupported envelope _ h hparse (by rw [hrequest])
          | some requestJson =>
              simp only [hrequest]
              exact .envelope envelope requestJson h hparse (by rw [hrequest])

theorem accepts_acceptLine :
    Accepts floatToInt numberText broker line (acceptLine floatToInt numberText broker line).1 := by
  unfold acceptLine
  split
  · rename_i hnone
    exact .invalid _ hnone
  · rename_i ms hms
    split
    · rename_i hmember
      exact accepts_acceptEnvelopeLine ⟨ms, hms, hmember⟩
    · rename_i hmember
      refine .compatibility (by rw [hms]; exact Option.some_ne_none _) ?_
      rw [namesConversation_iff hms]
      exact hmember
  · rename_i v hother hv
    refine .compatibility (by rw [hv]; exact Option.some_ne_none _) ?_
    rintro ⟨ms, hms, -⟩
    cases hv.symm.trans hms
    exact hother ms rfl

/-- A line that names no conversation is a request by itself. -/
theorem acceptLine_of_plain (hvalue : parseValue line ≠ none) (hplain : ¬NamesConversation line) :
    (acceptLine floatToInt numberText broker line).1 = .dispatch ⟨line, .jsonRpc⟩ := by
  have haccepts := @accepts_acceptLine floatToInt numberText broker line
  revert haccepts
  generalize (acceptLine floatToInt numberText broker line).1 = result
  intro haccepts
  cases haccepts with
  | invalid message hnone => exact absurd hnone hvalue
  | compatibility => rfl
  | malformed conversationId kind err hnames => exact absurd hnames hplain
  | unsupported envelope err hnames => exact absurd hnames hplain
  | envelope envelope requestJson hnames => exact absurd hnames hplain

/-! ## What a line is answered with -/

/-- A frame that answers the envelope: its text carries the conversation, request id, target and
kind, and where the payload is JSON it is read back with these, the document path of the target
written out. -/
def Carries (floatToInt : Bytes → Option Int) (envelope : EnvelopeMessage) (payloadJson : Bytes)
    (err : Option ConversationError) (bytes : Bytes) : Prop :=
  bytes = writeConversationEnvelope envelope.conversationId envelope.requestId envelope.target
    envelope.kind payloadJson true err ∧
  ∀ payload, parseValue payloadJson = some payload →
    parseConversationEnvelope floatToInt bytes =
      some { envelope with
        target := envelope.target.map namedTarget
        payload
        fin := true
        conversationError := err }

/-- The payload and the error of an answer: the result of the handler, or an error and no result. -/
def Outcome (handler : Bytes → Except Bytes Bytes) (payloadJson : Bytes)
    (err : Option ConversationError) : Prop :=
  (payloadJson = ascii "null" ∧ err.isSome = true) ∨
    ∃ requestJson, handler requestJson = .ok payloadJson ∧ err = none

/-- A frame of plain JSON-RPC: the result of the handler for the line, or an error response. -/
def PlainJsonRpc (numberText : Bytes → Bytes) (handler : Bytes → Except Bytes Bytes) (line : Bytes)
    (bytes : Bytes) : Prop :=
  handler line = .ok bytes ∨ ∃ id code message, bytes = buildJsonRpcError numberText id code message

theorem carries_write (envelope : EnvelopeMessage) (payloadJson : Bytes)
    (err : Option ConversationError) :
    Carries floatToInt envelope payloadJson err (writeConversationEnvelope envelope.conversationId
      envelope.requestId envelope.target envelope.kind payloadJson true err) :=
  ⟨rfl, fun _ hpayload =>
    parseConversationEnvelope_writeConversationEnvelope floatToInt hpayload⟩

theorem plain_buildJsonRpcErrorForRequest (handler : Bytes → Except Bytes Bytes) (requestJson : Bytes)
    (code : RpcErrorCode) (message : Bytes) :
    PlainJsonRpc numberText handler line
      (buildJsonRpcErrorForRequest floatToInt numberText requestJson code message) := by
  unfold buildJsonRpcErrorForRequest
  split
  · exact .inr ⟨none, code, message, rfl⟩
  · rename_i request _
    exact .inr ⟨request.id, code, message, rfl⟩

/-- A line that `std.json` reads, and that parses as an envelope, names a conversation. -/
theorem namesConversation_of_envelope {envelope : EnvelopeMessage} (hvalue : parseValue line ≠ none)
    (h : parseConversationEnvelope floatToInt line = some envelope) : NamesConversation line := by
  obtain ⟨v, hv⟩ := Option.ne_none_iff_exists'.mp hvalue
  have hparse := Json.parse_of_reads (parseValue_eq_some hv).1
  rw [parseConversationEnvelope, hparse] at h
  simp only [Option.bind_eq_bind, Option.bind_some, Option.bind_eq_some_iff] at h
  obtain ⟨ms, hms, conversationId, hid, -⟩ := h
  obtain ⟨rfl, -⟩ := structMembers_eq_some.mp hms
  obtain ⟨member, hmember, -⟩ := Option.bind_eq_some_iff.mp hid
  exact ⟨ms, hv, by rw [hmember]; rfl⟩

/-- Every line is answered with one frame. It is an envelope exactly when the line names a
conversation; and a line that is an envelope is answered in its own name, whatever the handler does
and whether or not its payload is supported. -/
theorem broker_answers (floatToInt : Bytes → Option Int) (numberText : Bytes → Bytes)
    (broker : Broker) (line : Bytes) (handler : Bytes → Except Bytes Bytes) :
    ∃ frame, (handleLine floatToInt numberText broker line handler).1 = [frame] ∧
      (frame.wireKind = .envelope ↔ NamesConversation line) ∧
      (¬NamesConversation line → PlainJsonRpc numberText handler line frame.bytes) ∧
      ∀ envelope, parseValue line ≠ none →
        parseConversationEnvelope floatToInt line = some envelope →
        ∃ payloadJson err, Outcome handler payloadJson err ∧
          Carries floatToInt envelope payloadJson err frame.bytes := by
  have haccepts := @accepts_acceptLine floatToInt numberText broker line
  unfold handleLine
  cases haccept : acceptLine floatToInt numberText broker line with
  | mk result broker' =>
      rw [haccept] at haccepts
      cases haccepts with
      | invalid message hnone =>
          refine ⟨_, rfl, ?_, fun _ => .inr ⟨none, _, message, rfl⟩, ?_⟩
          · refine ⟨fun h => (nomatch h), ?_⟩
            rintro ⟨ms, hms, -⟩
            cases hnone.symm.trans hms
          · exact fun _ hvalue => absurd hnone hvalue
      | compatibility hvalue hplain =>
          have hstray : ∀ envelope, parseConversationEnvelope floatToInt line ≠ some envelope :=
            fun _ henvelope => hplain (namesConversation_of_envelope hvalue henvelope)
          cases hhandler : handler line with
          | error errorName =>
              simp only [hhandler]
              exact ⟨_, rfl, ⟨fun h => (nomatch h), fun h => absurd h hplain⟩,
                fun _ => plain_buildJsonRpcErrorForRequest handler line _ _,
                fun envelope _ h => absurd h (hstray envelope)⟩
          | ok responseJson =>
              simp only [hhandler]
              exact ⟨_, rfl, ⟨fun h => (nomatch h), fun h => absurd h hplain⟩,
                fun _ => .inl hhandler, fun envelope _ h => absurd h (hstray envelope)⟩
      | malformed conversationId kind err hnames hnone =>
          refine ⟨_, rfl, ⟨fun _ => hnames, fun _ => rfl⟩, fun h => absurd hnames h, ?_⟩
          intro envelope _ henvelope
          cases hnone.symm.trans henvelope
      | unsupported envelope err hnames henvelope hrequest =>
          refine ⟨_, rfl, ⟨fun _ => hnames, fun _ => rfl⟩, fun h => absurd hnames h, ?_⟩
          intro envelope' _ henvelope'
          cases henvelope.symm.trans henvelope'
          exact ⟨ascii "null", some err, .inl ⟨rfl, rfl⟩, carries_write envelope _ _⟩
      | envelope envelope requestJson hnames henvelope hrequest =>
          cases hhandler : handler requestJson with
          | error errorName =>
              simp only [hhandler]
              refine ⟨_, rfl, ⟨fun _ => hnames, fun _ => rfl⟩, fun h => absurd hnames h, ?_⟩
              intro envelope' _ henvelope'
              cases henvelope.symm.trans henvelope'
              exact ⟨ascii "null", some _, .inl ⟨rfl, rfl⟩, carries_write envelope _ _⟩
          | ok responseJson =>
              simp only [hhandler]
              refine ⟨_, rfl, ⟨fun _ => hnames, fun _ => rfl⟩, fun h => absurd hnames h, ?_⟩
              intro envelope' _ henvelope'
              cases henvelope.symm.trans henvelope'
              exact ⟨responseJson, none, .inr ⟨requestJson, hhandler, rfl⟩,
                carries_write envelope _ _⟩

end Lines

/-- A handler that always fails. -/
def failingHandler (_ : Bytes) : Except Bytes Bytes := .error (ascii "Unavailable")

theorem broker_answers_bare_conversation :
    ∃ envelope payloadJson err, Outcome failingHandler payloadJson err ∧
      envelope.conversationId = ascii "c" ∧
      ∃ frame, (handleLine (fun _ => none) id .init
          (ascii "\x7b\"conversationId\":\"c\",\"kind\":\"rpc\",\"payload\":null\x7d")
          failingHandler).1 = [frame] ∧
        Carries (fun _ => none) envelope payloadJson err frame.bytes := by
  have hids : (parseConversationEnvelope (fun _ => none)
      (ascii "\x7b\"conversationId\":\"c\",\"kind\":\"rpc\",\"payload\":null\x7d")).map
        (fun envelope => envelope.conversationId) = some (ascii "c") := by decide +kernel
  obtain ⟨envelope, henvelope, hid⟩ := Option.map_eq_some_iff.mp hids
  obtain ⟨frame, hframe, -, -, hanswers⟩ := broker_answers (fun _ => none) id .init
    (ascii "\x7b\"conversationId\":\"c\",\"kind\":\"rpc\",\"payload\":null\x7d") failingHandler
  obtain ⟨payloadJson, err, houtcome, hcarries⟩ :=
    hanswers envelope (Option.isSome_iff_ne_none.mp (by decide +kernel)) henvelope
  exact ⟨envelope, payloadJson, err, houtcome, hid, frame, hframe, hcarries⟩

/-- An envelope whose target has no document path. -/
def pathlessLine : Bytes :=
  ascii ("\x7b\"conversationId\":\"c\",\"target\":\x7b\"nodeId\":5\x7d,\"kind\":\"rpc\"," ++
    "\"payload\":null\x7d")

/-- An envelope with a member that the envelope does not have, whose value names a member twice. -/
def repeatingLine : Bytes :=
  ascii ("\x7b\"conversationId\":\"c\",\"kind\":\"rpc\",\"payload\":null," ++
    "\"x\":\x7b\"a\":1,\"a\":2\x7d\x7d")

/-- A target without a document path is answered with the root document's; and a line that parses
as an envelope is answered with plain JSON-RPC where some object in it names a member twice. -/
theorem broker_changes_target_and_refuses_repeats :
    ((parseConversationEnvelope (fun _ => none) pathlessLine).map (fun envelope =>
          envelope.target) = some (some ⟨none, some 5, none⟩) ∧
        (handleLine (fun _ => none) id .init pathlessLine failingHandler).1.map (fun frame =>
            (parseConversationEnvelope (fun _ => none) frame.bytes).map fun answer =>
              answer.target) =
          [some (some ⟨some (ascii "/"), some 5, none⟩)]) ∧
      (parseConversationEnvelope (fun _ => none) repeatingLine).isSome = true ∧
        (handleLine (fun _ => none) id .init repeatingLine failingHandler).1.map
          (fun frame => frame.wireKind) = [.jsonRpc] := by
  decide +kernel

end Muxly.Conversation
