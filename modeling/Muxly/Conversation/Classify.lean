/-
# Muxly.Conversation.Classify -- the lane of a request, from its text

`classifyExecutionLane` of `router.zig`, over the bytes of a request. The text is parsed into the
envelope that the rest of the daemon works on: the method by its name, the parameters as the value
that `std.json` makes of them.
-/
import Muxly.Client.Framing

namespace Muxly.Conversation

open Muxly.Core Muxly.Daemon Muxly.Client Muxly.Data

/-! ## Methods by name -/

/-- The text that the daemon compares a method with. -/
def methodName : Method → Bytes
  | .ping => ascii "ping"
  | .initializeSession => ascii "initialize"
  | .capabilitiesGet => ascii "capabilities.get"
  | .documentList => ascii "document.list"
  | .documentCreate => ascii "document.create"
  | .debugSleep => ascii "debug.sleep"
  | .debugDocumentValidate => ascii "debug.document.validate"
  | .debugTextAppend => ascii "debug.text.append"
  | .debugTtyAttach => ascii "debug.tty.attach"
  | .debugTtyPush => ascii "debug.tty.push"
  | .debugNodeAppend => ascii "debug.node.append"
  | .debugNodeRemove => ascii "debug.node.remove"
  | .documentGet => ascii "document.get"
  | .graphGet => ascii "graph.get"
  | .viewGet => ascii "view.get"
  | .projectionGet => ascii "projection.get"
  | .documentStatus => ascii "document.status"
  | .nodeGet => ascii "node.get"
  | .sessionList => ascii "session.list"
  | .windowList => ascii "window.list"
  | .paneList => ascii "pane.list"
  | .documentSerialize => ascii "document.serialize"
  | .documentFreeze => ascii "document.freeze"
  | .nodeAppend => ascii "node.append"
  | .nodeUpdate => ascii "node.update"
  | .nodeFreeze => ascii "node.freeze"
  | .nodeRemove => ascii "node.remove"
  | .sessionCreate => ascii "session.create"
  | .windowCreate => ascii "window.create"
  | .paneSplit => ascii "pane.split"
  | .paneCapture => ascii "pane.capture"
  | .paneScroll => ascii "pane.scroll"
  | .paneResize => ascii "pane.resize"
  | .paneFocus => ascii "pane.focus"
  | .paneSendKeys => ascii "pane.sendKeys"
  | .paneClose => ascii "pane.close"
  | .paneFollowTail => ascii "pane.followTail"
  | .viewSetRoot => ascii "view.setRoot"
  | .viewClearRoot => ascii "view.clearRoot"
  | .viewElide => ascii "view.elide"
  | .viewExpand => ascii "view.expand"
  | .leafSourceAttach => ascii "leaf.source.attach"
  | .leafSourceGet => ascii "leaf.source.get"
  | .fileCapture => ascii "file.capture"
  | .fileFollowTail => ascii "file.followTail"
  | .viewReset => ascii "view.reset"
  | .bindingsInspect => ascii "bindings.inspect"
  | .bindingsValidate => ascii "bindings.validate"
  | .bindingsPropose => ascii "bindings.propose"
  | .mouseSet => ascii "mouse.set"
  | .modelineSet => ascii "modeline.set"
  | .menuSet => ascii "menu.set"
  | .menuProject => ascii "menu.project"
  | .nvimAttach => ascii "nvim.attach"
  | .nvimDetach => ascii "nvim.detach"
  | .other name => name

/-- The methods that have a name of their own. -/
def methods : List Method :=
  [.ping, .initializeSession, .capabilitiesGet, .documentList, .documentCreate, .debugSleep,
    .debugDocumentValidate, .debugTextAppend, .debugTtyAttach, .debugTtyPush, .debugNodeAppend,
    .debugNodeRemove, .documentGet, .graphGet, .viewGet, .projectionGet, .documentStatus, .nodeGet,
    .sessionList, .windowList, .paneList, .documentSerialize, .documentFreeze, .nodeAppend,
    .nodeUpdate, .nodeFreeze, .nodeRemove, .sessionCreate, .windowCreate, .paneSplit, .paneCapture,
    .paneScroll, .paneResize, .paneFocus, .paneSendKeys, .paneClose, .paneFollowTail, .viewSetRoot,
    .viewClearRoot, .viewElide, .viewExpand, .leafSourceAttach, .leafSourceGet, .fileCapture,
    .fileFollowTail, .viewReset, .bindingsInspect, .bindingsValidate, .bindingsPropose, .mouseSet,
    .modelineSet, .menuSet, .menuProject, .nvimAttach, .nvimDetach]

/-- The method of a name. -/
def methodOf (name : Bytes) : Method :=
  (methods.find? fun method => methodName method = name).getD (.other name)

theorem methodName_methodOf (name : Bytes) : methodName (methodOf name) = name := by
  unfold methodOf
  cases hfind : methods.find? fun method => methodName method = name with
  | none => rfl
  | some method => simpa using List.find?_some hfind

theorem methodOf_methodName : ∀ method ∈ methods, methodOf (methodName method) = method := by
  decide +kernel

theorem methodOf_eq_iff {name : Bytes} {method : Method} (h : method ∈ methods) :
    methodOf name = method ↔ name = methodName method := by
  constructor
  · rintro rfl
    exact (methodName_methodOf name).symm
  · rintro rfl
    exact methodOf_methodName method h

theorem methodOf_mem_iff {name : Bytes} {table : List Method} (h : ∀ method ∈ table, method ∈ methods) :
    methodOf name ∈ table ↔ name ∈ table.map methodName := by
  constructor
  · intro hmem
    rw [← methodName_methodOf name]
    exact List.mem_map_of_mem hmem
  · intro hmem
    obtain ⟨method, hmethod, rfl⟩ := List.mem_map.mp hmem
    rwa [methodOf_methodName method (h method hmethod)]

/-! ## Values -/

/-- `Value.parseFromNumberSlice`. -/
def numberValue (slice : Bytes) : JsonValue :=
  if isNumberFormattedLikeAnInteger slice then
    match parseSigned slice with
    | some value => .integer (Int64.ofInt value)
    | none => .numberString
  else .float

mutual

/-- A JSON value as `std.json.Value` has it. -/
def jsonValue : Json → JsonValue
  | .null => .null
  | .bool value => .bool value
  | .number text => numberValue text
  | .string text => .string text
  | .array items => .array (jsonItems items)
  | .object ms => .object (jsonMembers ms)

/-- `jsonValue` of every item. -/
def jsonItems : List Json → List JsonValue
  | [] => []
  | v :: items => jsonValue v :: jsonItems items

/-- `jsonValue` of every member. -/
def jsonMembers : List (Bytes × Json) → List (Bytes × JsonValue)
  | [] => []
  | (name, v) :: ms => (name, jsonValue v) :: jsonMembers ms

end

theorem lookup_jsonMembers (ms : List (Bytes × Json)) (name : Bytes) :
    (jsonMembers ms).lookup name = (ms.lookup name).map jsonValue := by
  induction ms with
  | nil => rfl
  | cons m ms ih =>
      rw [jsonMembers, List.lookup_cons, List.lookup_cons]
      split
      · rfl
      · exact ih

/-- The request as the daemon works on it. -/
def requestEnvelope (request : RequestMessage) : RequestEnvelope where
  jsonrpcIsTwo := request.jsonrpc = ascii "2.0"
  target := request.target
  method := methodOf request.method
  params := request.params.map jsonValue

/-! ## Lanes -/

/-- `ExecutionLane`. -/
inductive ExecutionLane where
  | root
  | documentCoordinator (documentPath : Bytes)
  | documentDomain (documentPath : Bytes) (rootNodeId : Nat)

/-- The document that a lane belongs to. -/
def ExecutionLane.documentPath : ExecutionLane → Option Bytes
  | .root => none
  | .documentCoordinator documentPath => some documentPath
  | .documentDomain documentPath _ => some documentPath

/-- The methods of the comparison chain in `requestRunsOnDocumentLane`. -/
def documentLaneMethods : List Method :=
  [.documentGet, .graphGet, .viewGet, .projectionGet, .documentStatus, .documentSerialize,
    .documentFreeze, .debugSleep, .debugDocumentValidate, .debugTextAppend, .debugNodeAppend,
    .debugNodeRemove, .debugTtyAttach, .debugTtyPush, .nodeGet, .nodeAppend, .nodeUpdate,
    .nodeFreeze, .nodeRemove, .viewSetRoot, .viewClearRoot, .viewElide, .viewExpand, .viewReset,
    .leafSourceGet, .fileCapture, .fileFollowTail]

/-- `requestRunsOnDocumentLane`. -/
def requestRunsOnDocumentLane (method : Method) (params : Option JsonValue) : Bool :=
  if method ∈ documentLaneMethods then true
  else if method = .leafSourceAttach then
    match getString params (ascii "kind") with
    | none => false
    | some kind => kind = ascii "static-file" || kind = ascii "monitored-file"
  else false

/-- `classifyExecutionLane`. The domain is looked up in the store by
`resolveExecutionDomainRootForRequest`. -/
def classifyExecutionLane {ε : Type} (floatToInt : Bytes → Option Int)
    (resolveExecutionDomainRootForRequest : Bytes → RequestEnvelope → Except ε (Option Nat))
    (requestBytes : Bytes) : Except ε ExecutionLane :=
  match (parseRequest floatToInt requestBytes).map requestEnvelope with
  | none => .ok .root
  | some request =>
    match requestDocumentPath request with
    | .error _ => .ok .root
    | .ok documentPath =>
      if documentPath = rootDocumentPath then .ok .root
      else if requestRunsOnDocumentLane request.method request.params = false then .ok .root
      else if requestSupportsDynamicDomainLane request then do
        match ← resolveExecutionDomainRootForRequest documentPath request with
        | some rootNodeId => .ok (.documentDomain documentPath rootNodeId)
        | none => .ok (.documentCoordinator documentPath)
      else .ok (.documentCoordinator documentPath)

/-- The document path that a request names, canonical or not. -/
def namedDocumentPath (request : RequestEnvelope) : Bytes :=
  (request.target.bind (·.documentPath)).getD rootDocumentPath

/-- The request belongs on a lane of the document it names. -/
def BelongsToDocument (request : RequestEnvelope) : Prop :=
  isCanonicalDocumentPath (namedDocumentPath request) = true ∧
    namedDocumentPath request ≠ rootDocumentPath ∧
    requestRunsOnDocumentLane request.method request.params = true

instance (request : RequestEnvelope) : Decidable (BelongsToDocument request) :=
  inferInstanceAs (Decidable (_ ∧ _ ∧ _))

theorem requestDocumentPath_eq (request : RequestEnvelope) :
    requestDocumentPath request =
      if isCanonicalDocumentPath (namedDocumentPath request) then .ok (namedDocumentPath request)
      else .error (.error .invalidDocumentPath) := rfl

/-- The document of the lane, whatever domain the store finds. -/
theorem documentPath_classifyExecutionLane {ε : Type} {floatToInt : Bytes → Option Int}
    {resolve : Bytes → RequestEnvelope → Except ε (Option Nat)} {requestBytes : Bytes}
    {request : RequestMessage} {lane : ExecutionLane}
    (hparse : parseRequest floatToInt requestBytes = some request)
    (h : classifyExecutionLane floatToInt resolve requestBytes = .ok lane) :
    lane.documentPath =
      if BelongsToDocument (requestEnvelope request) then
        some (namedDocumentPath (requestEnvelope request))
      else none := by
  unfold classifyExecutionLane at h
  rw [hparse] at h
  simp only [Option.map_some, requestDocumentPath_eq] at h
  by_cases hcanonical : isCanonicalDocumentPath (namedDocumentPath (requestEnvelope request)) = true
  · simp only [if_pos hcanonical] at h
    by_cases hroot : namedDocumentPath (requestEnvelope request) = rootDocumentPath
    · rw [if_pos hroot] at h
      cases h
      rw [if_neg fun hb => hb.2.1 hroot]
      rfl
    · rw [if_neg hroot] at h
      by_cases hruns : requestRunsOnDocumentLane (requestEnvelope request).method
          (requestEnvelope request).params = true
      · rw [if_pos ⟨hcanonical, hroot, hruns⟩]
        rw [if_neg (by simp [hruns])] at h
        split at h
        · cases hresolve : resolve (namedDocumentPath (requestEnvelope request))
            (requestEnvelope request) with
          | error e =>
              rw [hresolve] at h
              cases h
          | ok domain =>
              rw [hresolve] at h
              cases domain with
              | none =>
                  cases h
                  rfl
              | some rootNodeId =>
                  cases h
                  rfl
        · cases h
          rfl
      · rw [Bool.not_eq_true] at hruns
        rw [if_pos hruns] at h
        cases h
        rw [if_neg fun hb => Bool.false_ne_true (hruns.symm.trans hb.2.2)]
        rfl
  · simp only [if_neg hcanonical] at h
    cases h
    rw [if_neg fun hb => hcanonical hb.1]
    rfl

end Muxly.Conversation
