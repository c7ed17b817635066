/-
# Muxly.Bridge.LaneKey -- the bridge's reading of a request's lane

`classify_upstream_lane_key` looks at the bytes of a request before they are forwarded, and sorts
them into the lanes that `classifyExecutionLane` will sort them into behind the bridge. It reads the
JSON itself, and keeps lists of methods of its own.

A request that the daemon accepts is compared with what the bridge makes of its line. The two read
the same value in two ways: a string where the bridge looks for one may be given to the daemon as an
array of bytes; and a bare request with a `payload` of its own is taken for an envelope.
-/
import Muxly.Conversation.Broker
import Muxly.Conversation.Classify

namespace Muxly.Bridge

open Muxly.Core Muxly.Client Muxly.Data
open Muxly.Conversation (acceptLine requestEnvelope ExecutionLane classifyExecutionLane
  namedDocumentPath BelongsToDocument)
open Muxly.Daemon (Method RequestEnvelope RequestTarget isCanonicalDocumentPath rootDocumentPath
  getString utf8ValidateSlice JsonValue)
open Muxly.Server (Broker ResponseMode)

/-! ## Values -/

/-- `Value::get`. Of members with one name `serde_json` keeps the last. -/
def get (value : Json) (name : Bytes) : Option Json :=
  match value with
  | .object ms => ms.reverse.lookup name
  | _ => none

/-- `Value::as_str`. -/
def asStr : Json → Option Bytes
  | .string text => some text
  | _ => none

/-- `Value::as_u64`. -/
def asU64 : Json → Option Nat
  | .number text => if text.all isDigit then (parseUnsigned text).filter (· < u64Limit) else none
  | _ => none

/-! ## The classification -/

/-- `UpstreamLaneKey`. -/
inductive UpstreamLaneKey where
  | root
  | document (documentPath : Bytes)
  | documentTarget (documentPath targetKey : Bytes)
  deriving DecidableEq

/-- The document that a key belongs to. -/
def UpstreamLaneKey.documentPath : UpstreamLaneKey → Option Bytes
  | .root => none
  | .document documentPath => some documentPath
  | .documentTarget documentPath _ => some documentPath

/-- The methods of the match in `request_runs_on_document_lane`. -/
def documentLaneNames : List Bytes :=
  [ascii "document.get", ascii "graph.get", ascii "view.get", ascii "projection.get",
    ascii "document.status", ascii "document.serialize", ascii "document.freeze",
    ascii "debug.sleep", ascii "node.get", ascii "debug.node.append", ascii "debug.node.remove",
    ascii "node.append", ascii "node.update", ascii "node.freeze", ascii "node.remove",
    ascii "view.setRoot", ascii "view.clearRoot", ascii "view.elide", ascii "view.expand",
    ascii "view.reset", ascii "leaf.source.get", ascii "file.capture", ascii "file.followTail"]

/-- `request_runs_on_document_lane`. -/
def requestRunsOnDocumentLane (method : Bytes) (params : Option Json) : Bool :=
  method ∈ documentLaneNames ||
    (method = ascii "leaf.source.attach" &&
      (((params.bind (get · (ascii "kind"))).bind asStr).map fun kind =>
        kind = ascii "static-file" || kind = ascii "monitored-file").getD false)

/-- `request_supports_dynamic_domain_lane`. -/
def requestSupportsDynamicDomainLane (method : Bytes) (requestValue : Json) : Bool :=
  if method ∈ [ascii "debug.sleep", ascii "debug.text.append", ascii "debug.tty.push",
      ascii "node.append", ascii "node.remove", ascii "debug.node.append",
      ascii "debug.node.remove"] then true
  else if method ≠ ascii "node.update" then false
  else
    let params := get requestValue (ascii "params")
    if ((params.bind (get · (ascii "content"))).bind asStr).isNone then false
    else ((params.bind (get · (ascii "title"))).bind asStr).isNone

/-- The key of a node; the root node has none. -/
def nodeKey (nodeId : Nat) : Option Bytes :=
  if nodeId = 1 then none else some (ascii "node:" ++ decimal nodeId)

/-- `request_target_key`. -/
def requestTargetKey (requestValue : Json) : Option Bytes :=
  let target := get requestValue (ascii "target")
  let params := get requestValue (ascii "params")
  match (target.bind (get · (ascii "nodeId"))).bind asU64 with
  | some nodeId => nodeKey nodeId
  | none =>
    match (target.bind (get · (ascii "selector"))).bind asStr with
    | some selector => some (ascii "selector:" ++ selector)
    | none =>
      match (params.bind (get · (ascii "nodeId"))).bind asU64 with
      | some nodeId => nodeKey nodeId
      | none =>
        match (params.bind (get · (ascii "parentId"))).bind asU64 with
        | some parentId => nodeKey parentId
        | none => none

/-- The value that the bridge takes for the request: the payload, if it has a method. -/
def requestValueOf (value : Json) : Json :=
  ((get value (ascii "payload")).filter fun payload =>
    (get payload (ascii "method")).isSome).getD value

/-- The document path that the bridge reads in a request. -/
def documentPathOf (requestValue : Json) : Bytes :=
  (((get requestValue (ascii "target")).bind (get · (ascii "documentPath"))).bind asStr).getD
    (ascii "/")

/-- The method that the bridge reads in a request. -/
def methodTextOf (requestValue : Json) : Bytes :=
  ((get requestValue (ascii "method")).bind asStr).getD []

/-- `classify_upstream_lane_key`. The line is read by `serde_json::from_slice`. -/
def classifyUpstreamLaneKey (fromSlice : Bytes → Option Json) (bytes : Bytes) : UpstreamLaneKey :=
  match fromSlice bytes with
  | none => .root
  | some value =>
    let requestValue := requestValueOf value
    let documentPath := documentPathOf requestValue
    if documentPath = ascii "/" then .root
    else
      let method := methodTextOf requestValue
      if requestRunsOnDocumentLane method (get requestValue (ascii "params")) = false then .root
      else if requestSupportsDynamicDomainLane method requestValue then
        match requestTargetKey requestValue with
        | some targetKey => .documentTarget documentPath targetKey
        | none => .document documentPath
      else .document documentPath

/-- The document on whose lane the bridge puts a request, if it does. -/
def documentAskedFor (requestValue : Json) : Option Bytes :=
  if documentPathOf requestValue ≠ ascii "/" ∧
      requestRunsOnDocumentLane (methodTextOf requestValue)
        (get requestValue (ascii "params")) = true then
    some (documentPathOf requestValue)
  else none

theorem documentPath_classifyUpstreamLaneKey (fromSlice : Bytes → Option Json) (bytes : Bytes) :
    (classifyUpstreamLaneKey fromSlice bytes).documentPath =
      (fromSlice bytes).bind fun value => documentAskedFor (requestValueOf value) := by
  unfold classifyUpstreamLaneKey
  cases fromSlice bytes with
  | none => rfl
  | some value =>
      simp only [Option.bind_some]
      by_cases hroot : documentPathOf (requestValueOf value) = ascii "/"
      · rw [if_pos hroot, documentAskedFor, if_neg fun h => h.1 hroot]
        rfl
      · rw [if_neg hroot]
        by_cases hruns : requestRunsOnDocumentLane (methodTextOf (requestValueOf value))
            (get (requestValueOf value) (ascii "params")) = true
        · have hasked : documentAskedFor (requestValueOf value) =
              some (documentPathOf (requestValueOf value)) := if_pos ⟨hroot, hruns⟩
          rw [if_neg (by simp [hruns]), hasked]
          split
          · split <;> rfl
          · rfl
        · rw [if_pos (by simpa using hruns), documentAskedFor, if_neg fun h => hruns h.2]
          rfl

/-! ## One value, read twice -/

section Read

variable {numberText : Bytes → Bytes} {value v : Json} {name : Bytes}

theorem get_renumber (value : Json) (name : Bytes) :
    get (value.renumber numberText) name = (get value name).map (Json.renumber numberText) := by
  cases value with
  | object ms =>
      show (Json.renumberMembers numberText ms).reverse.lookup name = _
      rw [Json.renumberMembers_reverse, Json.lookup_renumberMembers]
      rfl
  | _ => rfl

theorem asStr_renumber (value : Json) : asStr (value.renumber numberText) = asStr value := by
  cases value <;> rfl

theorem bind_asStr_renumber (value : Option Json) :
    (value.map (Json.renumber numberText)).bind asStr = value.bind asStr := by
  cases value with
  | none => rfl
  | some v => exact asStr_renumber v

theorem bind_get_renumber (value : Option Json) (name : Bytes) :
    (value.map (Json.renumber numberText)).bind (get · name) =
      (value.bind (get · name)).map (Json.renumber numberText) := by
  cases value with
  | none => rfl
  | some v => exact get_renumber v name

theorem requestRunsOnDocumentLane_renumber (method : Bytes) (params : Option Json) :
    requestRunsOnDocumentLane method (params.map (Json.renumber numberText)) =
      requestRunsOnDocumentLane method params := by
  unfold requestRunsOnDocumentLane
  rw [bind_get_renumber, bind_asStr_renumber]

/-- How numbers are written does not matter to the bridge. -/
theorem documentAskedFor_renumber (value : Json) :
    documentAskedFor (value.renumber numberText) = documentAskedFor value := by
  have hpath : documentPathOf (value.renumber numberText) = documentPathOf value := by
    unfold documentPathOf
    rw [get_renumber, bind_get_renumber, bind_asStr_renumber]
  have hmethod : methodTextOf (value.renumber numberText) = methodTextOf value := by
    unfold methodTextOf
    rw [get_renumber, bind_asStr_renumber]
  unfold documentAskedFor
  rw [hpath, hmethod, get_renumber, requestRunsOnDocumentLane_renumber]

/-- A member that is not given twice is found from either end. -/
theorem get_of_structMembers {fields : List Bytes} {ms : List (Bytes × Json)}
    (h : structMembers fields value = some ms) (hname : name ∈ fields) :
    get value name = ms.lookup name := by
  obtain ⟨rfl, hcount⟩ := structMembers_eq_some.mp h
  exact Json.lookup_reverse (hcount name hname)

end Read

/-! ## What the daemon parses -/

section Decode

variable {floatToInt : Bytes → Option Int} {value v : Json} {request : RequestMessage}

/-- The members that matter to the lane of a request, as the daemon decodes them. -/
structure Decodes (floatToInt : Bytes → Option Int) (value : Json) (request : RequestMessage) :
    Prop where
  method : (get value (ascii "method")).bind (decodeBytes floatToInt) = some request.method
  target : ((get value (ascii "target")).map (decodeOptional (decodeTarget floatToInt))).getD
    (some none) = some request.target
  params : ((get value (ascii "params")).map (decodeOptional decodeValue)).getD (some none) =
    some request.params

theorem defaultField_eq {α : Type} (ms : List (Bytes × Json)) (field : String)
    (decode : Json → Option α) (default : α) :
    defaultField ms field decode default =
      ((ms.lookup (ascii field)).map decode).getD (some default) := by
  unfold defaultField
  cases ms.lookup (ascii field) <;> rfl

theorem decodes_of_parseRequest {bytes : Bytes} (h : parseRequest floatToInt bytes = some request) :
    ∃ value, Json.parse utf8ValidateSlice bytes = some value ∧ Decodes floatToInt value request := by
  simp only [parseRequest, Option.bind_eq_bind, Option.bind_eq_some_iff, defaultField_eq,
    requiredField] at h
  obtain ⟨value, hvalue, ms, hms, jsonrpc, -, id, -, target, htarget, method, hmethod, params,
    hparams, heq⟩ := h
  cases heq
  refine ⟨value, hvalue, ?_, ?_, ?_⟩
  · rw [get_of_structMembers hms (by simp)]
    exact Option.bind_eq_some_iff.mpr hmethod
  · rw [get_of_structMembers hms (by simp)]
    exact htarget
  · rw [get_of_structMembers hms (by simp)]
    exact hparams

/-- A value that is not an array of bytes is decoded as the bridge reads it. -/
theorem asStr_of_decodeBytes {text : Bytes} (h : decodeBytes floatToInt v = some text)
    (harray : ∀ items, v ≠ .array items) : asStr v = some text := by
  cases v with
  | string s => exact h
  | array items => exact absurd rfl (harray items)
  | _ => cases h

/-- The document path of a target, where it is not an array of bytes. -/
theorem asStr_of_decodeTarget {target : RequestTarget}
    (h : decodeTarget floatToInt v = some target)
    (harray : ∀ items, get v (ascii "documentPath") ≠ some (.array items)) :
    (get v (ascii "documentPath")).bind asStr = target.documentPath := by
  simp only [decodeTarget, Option.bind_eq_bind, Option.bind_eq_some_iff, defaultField_eq] at h
  obtain ⟨ms, hms, documentPath, hpath, nodeId, -, selector, -, heq⟩ := h
  cases heq
  rw [← get_of_structMembers hms (by simp)] at hpath
  cases hmember : get v (ascii "documentPath") with
  | none =>
      rw [hmember] at hpath
      cases hpath
      rfl
  | some w =>
      rw [hmember] at hpath harray
      cases w with
      | null =>
          cases hpath
          rfl
      | string s =>
          cases hpath
          rfl
      | array items => exact absurd rfl (harray items)
      | _ => cases hpath

/-- The method and the document path of a request are no arrays of bytes. -/
def SpelledAsStrings (value : Json) : Prop :=
  (∀ items, get value (ascii "method") ≠ some (.array items)) ∧
    ∀ items, (get value (ascii "target")).bind (get · (ascii "documentPath")) ≠ some (.array items)

theorem Decodes.methodTextOf (h : Decodes floatToInt value request)
    (hspelled : SpelledAsStrings value) : methodTextOf value = request.method := by
  obtain ⟨v, hv, hdecode⟩ := Option.bind_eq_some_iff.mp h.method
  have harray : ∀ items, v ≠ .array items := by
    rintro items rfl
    exact hspelled.1 items hv
  rw [Bridge.methodTextOf, hv, Option.bind_some, asStr_of_decodeBytes hdecode harray]
  rfl

theorem Decodes.documentPathOf (h : Decodes floatToInt value request)
    (hspelled : SpelledAsStrings value) :
    documentPathOf value = namedDocumentPath (requestEnvelope request) := by
  have htarget := h.target
  have harray := hspelled.2
  unfold Bridge.documentPathOf namedDocumentPath
  show _ = (request.target.bind (·.documentPath)).getD (ascii "/")
  cases hmember : get value (ascii "target") with
  | none =>
      rw [hmember] at htarget
      rw [← Option.some.inj htarget]
      rfl
  | some v =>
      rw [hmember] at htarget harray
      cases v with
      | null =>
          rw [← Option.some.inj htarget]
          rfl
      | object ms =>
          obtain ⟨target, hdecode, heq⟩ := Option.map_eq_some_iff.mp htarget
          rw [Option.bind_some, asStr_of_decodeTarget hdecode harray, ← heq]
          rfl
      | _ => cases htarget

theorem numberValue_cases (text : Bytes) : Conversation.numberValue text = .float ∨
    Conversation.numberValue text = .numberString ∨
    ∃ value, Conversation.numberValue text = .integer value := by
  unfold Conversation.numberValue
  split
  · split
    · exact .inr (.inr ⟨_, rfl⟩)
    · exact .inr (.inl rfl)
  · exact .inl rfl

theorem getString_jsonValue (v : Json) :
    (match some (Conversation.jsonValue v) with
      | some (.string text) => some text
      | _ => none) = asStr v := by
  cases v with
  | number text =>
      show (match some (Conversation.numberValue text) with
        | some (.string text) => some text
        | _ => none) = none
      obtain heq | heq | ⟨value, heq⟩ := numberValue_cases text
      all_goals rw [heq]
  | _ => rfl

/-- Parameters are decoded where no object in them names a member twice. -/
theorem eq_of_decodeValue {params : Option Json}
    (h : decodeOptional decodeValue v = some params) :
    params = optionalValue v ∧ v.distinct = true := by
  by_cases hnull : v = .null
  · subst hnull
    exact ⟨(Option.some.inj h).symm, rfl⟩
  · have hmap : (decodeValue v).map some = some params := by
      rw [← h]
      cases v with
      | null => exact absurd rfl hnull
      | _ => rfl
    obtain ⟨w, hdecode, rfl⟩ := Option.map_eq_some_iff.mp hmap
    obtain ⟨hdistinct, hw⟩ := Option.ite_none_right_eq_some.mp hdecode
    cases hw
    refine ⟨?_, hdistinct⟩
    cases v with
    | null => exact absurd rfl hnull
    | _ => rfl

/-- The string member of the parameters, as the daemon reads it. -/
theorem Decodes.getString_params (h : Decodes floatToInt value request) (name : Bytes) :
    getString (request.params.map Conversation.jsonValue) name =
      ((get value (ascii "params")).bind (get · name)).bind asStr := by
  have hparams := h.params
  cases hmember : get value (ascii "params") with
  | none =>
      rw [hmember] at hparams
      rw [← Option.some.inj hparams]
      rfl
  | some v =>
      rw [hmember] at hparams
      obtain ⟨heq, hdistinct⟩ := eq_of_decodeValue hparams
      rw [heq, Option.bind_some]
      cases v with
      | object ms =>
          have hcount : (ms.map Prod.fst).count name ≤ 1 := by
            simp only [Json.distinct, Bool.and_eq_true, decide_eq_true_eq] at hdistinct
            exact List.nodup_iff_count_le_one.mp hdistinct.1 name
          show getString (some (.object (Conversation.jsonMembers ms))) name =
            (ms.reverse.lookup name).bind asStr
          rw [Json.lookup_reverse hcount, getString, Option.bind_some, JsonValue.get,
            Conversation.lookup_jsonMembers]
          cases ms.lookup name with
          | none => rfl
          | some w => exact getString_jsonValue w
      | number text =>
          show (match (Conversation.numberValue text).get name with
            | some (.string text) => some text
            | _ => none) = none
          obtain heq | heq | ⟨value, heq⟩ := numberValue_cases text
          all_goals
            rw [heq]
            rfl
      | _ => rfl

end Decode

/-! ## The two lists -/

/-- The methods that run on a document lane of the daemon, and that the bridge does not know. -/
def unbridgedMethods : List Method :=
  [.debugDocumentValidate, .debugTextAppend, .debugTtyAttach, .debugTtyPush]

theorem mem_documentLaneNames_iff (name : Bytes) :
    name ∈ documentLaneNames ↔
      Conversation.methodOf name ∈ Conversation.documentLaneMethods ∧
        Conversation.methodOf name ∉ unbridgedMethods := by
  have hperm : documentLaneNames.Perm
      ((Conversation.documentLaneMethods.filter fun method =>
        method ∉ unbridgedMethods).map Conversation.methodName) := by decide +kernel
  have htable : ∀ method ∈ Conversation.documentLaneMethods.filter fun method =>
      method ∉ unbridgedMethods, method ∈ Conversation.methods := by decide +kernel
  rw [hperm.mem_iff, ← Conversation.methodOf_mem_iff htable, List.mem_filter, decide_eq_true_eq]

/-- The lists agree but for four methods of the daemon's. -/
theorem requestRunsOnDocumentLane_iff {name : Bytes} {params : Option Json}
    {params' : Option JsonValue}
    (hkind : getString params' (ascii "kind") =
      (params.bind (get · (ascii "kind"))).bind asStr) :
    requestRunsOnDocumentLane name params = true ↔
      Conversation.requestRunsOnDocumentLane (Conversation.methodOf name) params' = true ∧
        Conversation.methodOf name ∉ unbridgedMethods := by
  have hattach : name = ascii "leaf.source.attach" ↔
      Conversation.methodOf name = .leafSourceAttach :=
    (@Conversation.methodOf_eq_iff name .leafSourceAttach (by decide)).symm
  unfold requestRunsOnDocumentLane Conversation.requestRunsOnDocumentLane
  rw [hkind, Bool.or_eq_true, decide_eq_true_eq, mem_documentLaneNames_iff, Bool.and_eq_true,
    decide_eq_true_eq, hattach]
  by_cases hmem : Conversation.methodOf name ∈ Conversation.documentLaneMethods
  · have hne : Conversation.methodOf name ≠ .leafSourceAttach := by
      intro heq
      rw [heq] at hmem
      revert hmem
      decide
    simp [hmem, hne]
  · by_cases heq : Conversation.methodOf name = .leafSourceAttach
    · rw [heq] at hmem ⊢
      have hknown : (.leafSourceAttach : Method) ∉ unbridgedMethods := by decide
      cases (params.bind (get · (ascii "kind"))).bind asStr with
      | none => simp [hmem]
      | some kind => simp [hmem, hknown]
    · simp [hmem, heq]

/-! ## When the two meet -/

/-- The value that the bridge looks at is the request that the daemon runs: the line itself, where
it has no payload with a method, and the payload of an envelope that carries a request. -/
def SameRequest (value : Json) : ResponseMode → Prop
  | .jsonRpc => (get value (ascii "payload")).bind (get · (ascii "method")) = none
  | .envelope response => response.kind = .rpc

/-- The lists and the checks of paths agree on a request. A path that is not canonical keeps a
request off the lanes of documents in the daemon only. -/
def ListsMeet (request : RequestEnvelope) : Prop :=
  if isCanonicalDocumentPath (namedDocumentPath request) then
    namedDocumentPath request = rootDocumentPath ∨ request.method ∉ unbridgedMethods
  else
    Conversation.requestRunsOnDocumentLane request.method request.params = false ∨
      request.method ∈ unbridgedMethods

/-- When the bridge puts a line where the daemon puts its request. What the bridge cannot read goes
to the root lane. -/
def LaneKeysMeet (fromSlice : Bytes → Option Json) (line : Bytes) (mode : ResponseMode)
    (request : RequestEnvelope) : Prop :=
  match fromSlice line with
  | none => ¬BelongsToDocument request
  | some value =>
    (SameRequest value mode → SpelledAsStrings (requestValueOf value) → ListsMeet request) ∧
    (SameRequest value mode → ¬SpelledAsStrings (requestValueOf value) →
      ¬BelongsToDocument request) ∧
    (¬SameRequest value mode → ∀ documentPath,
      documentAskedFor (requestValueOf value) = some documentPath ↔
        BelongsToDocument request ∧ namedDocumentPath request = documentPath)

theorem spelledAsStrings_renumber {numberText : Bytes → Bytes} {value : Json} :
    SpelledAsStrings (value.renumber numberText) ↔ SpelledAsStrings value := by
  have harray : ∀ member : Option Json,
      (∀ items, member.map (Json.renumber numberText) ≠ some (.array items)) ↔
        ∀ items, member ≠ some (.array items) := by
    intro member
    rcases member with _ | v
    · simp
    · cases v <;> simp [Json.renumber]
  unfold SpelledAsStrings
  rw [get_renumber, get_renumber, bind_get_renumber, harray, harray]

/-- What is not spelled as a string the bridge takes for the root document or for no method. -/
theorem documentAskedFor_of_not_spelled {value : Json} (h : ¬SpelledAsStrings value) :
    documentAskedFor value = none := by
  refine if_neg fun hasked => h ⟨fun items hmethod => ?_, fun items hpath => ?_⟩
  · have hnone : methodTextOf value = [] := by
      rw [methodTextOf, hmethod]
      rfl
    have hruns := hasked.2
    rw [hnone] at hruns
    have hidle : requestRunsOnDocumentLane [] (get value (ascii "params")) = false := by
      simp only [requestRunsOnDocumentLane, Bool.or_eq_false_iff, Bool.and_eq_false_iff]
      exact ⟨by decide, .inl (by decide)⟩
    exact Bool.false_ne_true (hidle.symm.trans hruns)
  · apply hasked.1
    rw [documentPathOf, hpath]
    rfl

/-- Where strings are strings, the bridge asks for the document that the request names, if its own
list has the method. -/
theorem Decodes.documentAskedFor_eq {floatToInt : Bytes → Option Int} {value : Json}
    {request : RequestMessage} (h : Decodes floatToInt value request)
    (hspelled : SpelledAsStrings value) :
    documentAskedFor value =
      if namedDocumentPath (requestEnvelope request) ≠ rootDocumentPath ∧
          Conversation.requestRunsOnDocumentLane (requestEnvelope request).method
            (requestEnvelope request).params = true ∧
          (requestEnvelope request).method ∉ unbridgedMethods then
        some (namedDocumentPath (requestEnvelope request))
      else none := by
  have hruns := @requestRunsOnDocumentLane_iff request.method (get value (ascii "params"))
    (requestEnvelope request).params (h.getString_params (ascii "kind"))
  unfold documentAskedFor
  rw [h.documentPathOf hspelled, h.methodTextOf hspelled]
  exact if_congr (and_congr Iff.rfl hruns) rfl rfl

theorem listsMeet_iff {request : RequestEnvelope} :
    ((if namedDocumentPath request ≠ rootDocumentPath ∧
          Conversation.requestRunsOnDocumentLane request.method request.params = true ∧
          request.method ∉ unbridgedMethods then
        some (namedDocumentPath request)
      else none) =
      if BelongsToDocument request then some (namedDocumentPath request) else none) ↔
      ListsMeet request := by
  have hroot : namedDocumentPath request = rootDocumentPath →
      isCanonicalDocumentPath (namedDocumentPath request) = true := by
    intro heq
    rw [heq]
    decide
  have hfour : request.method ∈ unbridgedMethods →
      Conversation.requestRunsOnDocumentLane request.method request.params = true := by
    intro hmem
    have hall : ∀ method ∈ unbridgedMethods, method ∈ Conversation.documentLaneMethods := by
      decide
    rw [Conversation.requestRunsOnDocumentLane, if_pos (hall _ hmem)]
  unfold ListsMeet BelongsToDocument
  by_cases hcanonical : isCanonicalDocumentPath (namedDocumentPath request) = true
  · by_cases hpath : namedDocumentPath request = rootDocumentPath
    · simp [hpath, show isCanonicalDocumentPath rootDocumentPath = true by decide]
    · by_cases hmem : request.method ∈ unbridgedMethods
      · simp [hcanonical, hpath, hmem, hfour hmem]
      · simp [hcanonical, hpath, hmem]
  · have hpath : namedDocumentPath request ≠ rootDocumentPath := fun heq => hcanonical (hroot heq)
    by_cases hmem : request.method ∈ unbridgedMethods
    · simp [hcanonical, hmem]
    · simp [hcanonical, hpath, hmem]

/-! ## Lines that the broker accepts -/

section Lines

variable {floatToInt : Bytes → Option Int} {numberText : Bytes → Bytes}
  {fromSlice : Bytes → Option Json} {broker : Broker} {line : Bytes}
  {dispatch : Conversation.DispatchRequest} {request : RequestMessage} {value : Json}

/-- The payload of an envelope is a member of its line. -/
theorem get_payload {envelope : EnvelopeMessage}
    (hparse : Json.parse utf8ValidateSlice line = some value)
    (h : parseConversationEnvelope floatToInt line = some envelope) :
    get value (ascii "payload") = some envelope.payload ∧
      envelope.payload.Sound utf8ValidateSlice := by
  rw [parseConversationEnvelope, hparse] at h
  simp only [Option.bind_eq_bind, Option.bind_some, Option.bind_eq_some_iff, requiredField] at h
  obtain ⟨ms, hms, conversationId, -, requestId, -, target, -, kind, -, payload, hpayload, fin, -,
    conversationError, -, heq⟩ := h
  cases heq
  obtain ⟨member, hmember, hdecode⟩ := hpayload
  obtain ⟨-, hsame⟩ := Option.ite_none_right_eq_some.mp hdecode
  cases hsame
  refine ⟨(get_of_structMembers hms (by simp)).trans hmember, ?_⟩
  obtain ⟨rfl, -⟩ := structMembers_eq_some.mp hms
  exact Json.sound_of_lookup (Json.sound_of_parse hparse) hmember

/-- The daemon decodes what the bridge looks at, with numbers as they are written again. -/
theorem decodes_requestValueOf (hnumber : ∀ text, Json.IsNumber text → Json.IsNumber (numberText text))
    (hvalue : Json.parse utf8ValidateSlice line = some value)
    (haccept : (acceptLine floatToInt numberText broker line).1 = .dispatch dispatch)
    (hparse : parseRequest floatToInt dispatch.requestJson = some request)
    (hsame : SameRequest value dispatch.responseMode) :
    Decodes floatToInt (requestValueOf value) request ∨
      Decodes floatToInt ((requestValueOf value).renumber numberText) request := by
  have haccepts := @Conversation.accepts_acceptLine floatToInt numberText broker line
  rw [haccept] at haccepts
  obtain ⟨read, hread, hdecodes⟩ := decodes_of_parseRequest hparse
  cases haccepts with
  | compatibility hline hplain =>
      left
      cases hvalue.symm.trans hread
      have hself : requestValueOf value = value := by
        unfold requestValueOf
        cases hpayload : get value (ascii "payload") with
        | none => rfl
        | some payload =>
            have hnone : get payload (ascii "method") = none := by
              have hbind : (get value (ascii "payload")).bind (get · (ascii "method")) = none :=
                hsame
              rwa [hpayload] at hbind
            rw [Option.filter_some, if_neg (by rw [hnone]; simp)]
            rfl
      rwa [hself]
  | envelope envelope requestJson hnames henvelope hrequest =>
      right
      obtain ⟨hpayload, hsound⟩ := get_payload hvalue henvelope
      have hkind : envelope.kind = .rpc := hsame
      have htext : envelope.payload.write numberText = requestJson := by
        rw [Conversation.requestJsonForEnvelope, hkind] at hrequest
        exact Option.some.inj hrequest
      have hback := Json.parse_of_reads (Json.reads_write hnumber hsound)
      rw [htext] at hback
      cases hback.symm.trans hread
      have hmethod : (get envelope.payload (ascii "method")).isSome = true := by
        obtain ⟨member, hmember, -⟩ := Option.bind_eq_some_iff.mp hdecodes.method
        rw [get_renumber] at hmember
        obtain ⟨member', hmember', -⟩ := Option.map_eq_some_iff.mp hmember
        rw [hmember']
        rfl
      have hself : requestValueOf value = envelope.payload := by
        rw [requestValueOf, hpayload, Option.filter_some, if_pos hmethod]
        rfl
      rwa [hself]

/-- What the bridge asks for in a request that it reads as the daemon does. -/
theorem documentAskedFor_requestValueOf
    (hdecodes : Decodes floatToInt (requestValueOf value) request ∨
      Decodes floatToInt ((requestValueOf value).renumber numberText) request)
    (hspelled : SpelledAsStrings (requestValueOf value)) :
    documentAskedFor (requestValueOf value) =
      if namedDocumentPath (requestEnvelope request) ≠ rootDocumentPath ∧
          Conversation.requestRunsOnDocumentLane (requestEnvelope request).method
            (requestEnvelope request).params = true ∧
          (requestEnvelope request).method ∉ unbridgedMethods then
        some (namedDocumentPath (requestEnvelope request))
      else none := by
  rcases hdecodes with hdecodes | hdecodes
  · exact hdecodes.documentAskedFor_eq hspelled
  · rw [← documentAskedFor_renumber]
    exact hdecodes.documentAskedFor_eq (spelledAsStrings_renumber.mpr hspelled)

end Lines

/-- A request whose method both lists have. -/
def getRequest : Bytes :=
  ascii ("\x7b\"jsonrpc\":\"2.0\",\"id\":1,\"target\":\x7b\"documentPath\":\"/x\"\x7d," ++
    "\"method\":\"node.get\",\"params\":\x7b\"nodeId\":1\x7d\x7d")

theorem exists_of_toBool {ε α : Type} {result : Except ε α} (h : result.toBool = true) :
    ∃ a, result = .ok a := by
  cases result with
  | error e => cases h
  | ok a => exact ⟨a, rfl⟩

/-- A request that the daemon runs on a lane of the document, and that the bridge does not know. -/
def textAppendRequest : Bytes :=
  ascii ("\x7b\"jsonrpc\":\"2.0\",\"id\":1,\"target\":\x7b\"documentPath\":\"/x\"\x7d," ++
    "\"method\":\"debug.text.append\",\"params\":\x7b\x7d\x7d")

end Muxly.Bridge
