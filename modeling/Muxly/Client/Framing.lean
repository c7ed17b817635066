/-
# Muxly.Client.Framing -- requests and envelopes as lines of JSON text

The writers and parsers of `protocol.zig`, down to the bytes. A writer splices the text of the
parameters, or of the payload, into a line as it is. Every other byte that it writes is its own:
strings are escaped, so nothing but the spliced text can bring a newline, which JSON text may hold
between any two tokens and which ends the line for the reader.
-/
import Muxly.Client.MessageReader
import Muxly.Client.Router
import Muxly.Client.Selector
import Muxly.Data.JsonText

namespace Muxly.Client

open Muxly.Core Muxly.Daemon Muxly.Server Muxly.Data

/-! ## Writers -/

/-- `std.json.fmt` of a byte slice. -/
def jsonText (text : Bytes) : Bytes :=
  if utf8ValidateSlice text then Json.stringText text
  else
    Json.openBracket :: (List.intercalate [Json.comma] (text.map fun c => decimal c.toNat)) ++
      [Json.closeBracket]

/-- `writeRequestTarget`. -/
def writeRequestTarget (target : RequestTarget) : Bytes :=
  ascii "\x7b\"documentPath\":" ++ jsonText (target.documentPath.getD rootDocumentPath) ++
    (match target.nodeId with
      | some nodeId => ascii ",\"nodeId\":" ++ decimal nodeId.toNat
      | none => []) ++
    (match target.selector with
      | some selector => ascii ",\"selector\":" ++ jsonText selector
      | none => []) ++
    ascii "\x7d"

/-- `writeClientRequestTarget`; `none` is `error.InvalidDocumentPath`. -/
def writeClientRequestTarget (requestId : UInt64) (target : RequestTarget) (method : Bytes)
    (paramsJson : Bytes) : Option Bytes :=
  let documentPath := target.documentPath.getD rootDocumentPath
  if !isCanonicalDocumentPath documentPath then none
  else
    some (ascii "\x7b\"jsonrpc\":\"2.0\",\"id\":" ++ decimal requestId.toNat ++
      ascii ",\"target\":" ++
      writeRequestTarget { target with documentPath := some documentPath } ++
      ascii ",\"method\":" ++ jsonText method ++ ascii ",\"params\":" ++ paramsJson ++
      ascii "\x7d")

/-- `@tagName` of a conversation kind. -/
def kindTag : ConversationKind → Bytes
  | .rpc => ascii "rpc"
  | .ttyControl => ascii "tty_control"
  | .ttyData => ascii "tty_data"
  | .captureData => ascii "capture_data"
  | .projectionEvent => ascii "projection_event"

/-- A boolean printed with an empty format. -/
def boolText (value : Bool) : Bytes := if value then ascii "true" else ascii "false"

/-- `writeConversationEnvelope`. -/
def writeConversationEnvelope (conversationId : Bytes) (requestId : Option UInt64)
    (target : Option RequestTarget) (kind : ConversationKind) (payloadJson : Bytes) (fin : Bool)
    (err : Option ConversationError) : Bytes :=
  ascii "\x7b\"conversationId\":" ++ jsonText conversationId ++ ascii ",\"requestId\":" ++
    (match requestId with
      | some value => decimal value.toNat
      | none => ascii "null") ++
    (match target with
      | some resolvedTarget => ascii ",\"target\":" ++ writeRequestTarget resolvedTarget
      | none => []) ++
    ascii ",\"kind\":\"" ++ kindTag kind ++ ascii "\",\"payload\":" ++ payloadJson ++
    ascii ",\"fin\":" ++ boolText fin ++
    (match err with
      | some value =>
        ascii ",\"conversationError\":\x7b\"code\":" ++ decimalInt value.code.toInt ++
          ascii ",\"message\":" ++ jsonText value.message ++ ascii "\x7d"
      | none => []) ++
    ascii "\x7d"

/-! ## Parsers -/

section Parsers

-- What `std.json` makes of a number with a fraction or an exponent where an integer is due.
variable (floatToInt : Bytes → Option Int)

/-- `isNumberFormattedLikeAnInteger`. -/
def isNumberFormattedLikeAnInteger (slice : Bytes) : Bool :=
  slice ≠ ascii "-0" && !slice.any fun c => (ascii ".eE").contains c

/-- `std.fmt.parseInt(i64, _, 10)`. -/
def parseSigned (text : Bytes) : Option Int :=
  match text with
  | [] => none
  | c :: rest =>
    if c = dash then
      ((parseUnsignedBody false rest).filter (· ≤ i64Limit)).map fun value : Nat => -(value : Int)
    else ((parseUnsigned (c :: rest)).filter (· < i64Limit)).map Int.ofNat

/-- The text of a number or of a string. -/
def numberSlice : Json → Option Bytes
  | .number text | .string text => some text
  | _ => none

/-- An unsigned integer below `limit`. -/
def decodeUnsigned (limit : Nat) (v : Json) : Option Nat :=
  (numberSlice v).bind fun slice =>
    if isNumberFormattedLikeAnInteger slice then (parseUnsigned slice).filter (· < limit)
    else (floatToInt slice).bind fun value =>
      if 0 ≤ value ∧ value < limit then some value.toNat else none

/-- An `i64`. -/
def decodeSigned (v : Json) : Option Int :=
  (numberSlice v).bind fun slice =>
    if isNumberFormattedLikeAnInteger slice then parseSigned slice
    else (floatToInt slice).filter fun value => -i64Limit ≤ value ∧ value < i64Limit

/-- A byte slice: a string, or a list of bytes. -/
def decodeBytes : Json → Option Bytes
  | .string text => some text
  | .array items => items.mapM fun v => (decodeUnsigned floatToInt 256 v).map UInt8.ofNat
  | _ => none

/-- A `bool`. -/
def decodeBool : Json → Option Bool
  | .bool value => some value
  | _ => none

/-- A `std.json.Value`. -/
def decodeValue (v : Json) : Option Json := if v.distinct then some v else none

/-- A value that may be `null`. -/
def decodeOptional {α : Type} (decode : Json → Option α) : Json → Option (Option α)
  | .null => some none
  | v => (decode v).map some

/-- The fields of `ConversationKind`, in order. -/
def conversationKinds : List ConversationKind :=
  [.rpc, .ttyControl, .ttyData, .captureData, .projectionEvent]

/-- A `ConversationKind`: its name, or its number. -/
def decodeKind (v : Json) : Option ConversationKind :=
  (numberSlice v).bind fun slice =>
    match conversationKinds.find? fun kind => kindTag kind = slice with
    | some kind => some kind
    | none =>
      if isNumberFormattedLikeAnInteger slice then
        (parseUnsigned slice).bind fun value => conversationKinds[value]?
      else none

/-- The members of an object, if none of the fields is given twice. -/
def structMembers (fields : List Bytes) : Json → Option (List (Bytes × Json))
  | .object ms =>
    if fields.all fun field => (ms.map Prod.fst).count field ≤ 1 then some ms else none
  | _ => none

theorem structMembers_eq_some {fields : List Bytes} {v : Json} {ms : List (Bytes × Json)} :
    structMembers fields v = some ms ↔
      v = .object ms ∧ ∀ field ∈ fields, (ms.map Prod.fst).count field ≤ 1 := by
  cases v with
  | object members =>
      by_cases hall : fields.all fun field => (members.map Prod.fst).count field ≤ 1
      · simp only [structMembers, if_pos hall, Option.some.injEq, Json.object.injEq]
        simp only [List.all_eq_true, decide_eq_true_eq] at hall
        exact ⟨fun heq => ⟨heq, heq ▸ hall⟩, And.left⟩
      · simp only [structMembers, if_neg hall, Json.object.injEq, reduceCtorEq, false_iff]
        rintro ⟨rfl, hcount⟩
        exact hall (by simpa using hcount)
  | _ => simp [structMembers]

/-- A field without a default. -/
def requiredField {α : Type} (ms : List (Bytes × Json)) (field : String)
    (decode : Json → Option α) : Option α :=
  (ms.lookup (ascii field)).bind decode

/-- A field with a default. -/
def defaultField {α : Type} (ms : List (Bytes × Json)) (field : String)
    (decode : Json → Option α) (default : α) : Option α :=
  match ms.lookup (ascii field) with
  | some v => decode v
  | none => some default

/-- A `u64`. -/
def decodeU64 (v : Json) : Option UInt64 :=
  (decodeUnsigned floatToInt u64Limit v).map UInt64.ofNat

/-- `RequestTarget`. -/
def decodeTarget (v : Json) : Option RequestTarget := do
  let ms ← structMembers [ascii "documentPath", ascii "nodeId", ascii "selector"] v
  let documentPath ←
    defaultField ms "documentPath" (decodeOptional (decodeBytes floatToInt)) none
  let nodeId ← defaultField ms "nodeId" (decodeOptional (decodeU64 floatToInt)) none
  let selector ← defaultField ms "selector" (decodeOptional (decodeBytes floatToInt)) none
  some { documentPath, nodeId, selector }

/-- `RequestEnvelope`, as it is parsed. -/
structure RequestMessage where
  jsonrpc : Bytes
  id : Option Json
  target : Option RequestTarget
  method : Bytes
  params : Option Json

/-- `parseRequest`. -/
def parseRequest (bytes : Bytes) : Option RequestMessage := do
  let v ← Json.parse utf8ValidateSlice bytes
  let ms ← structMembers
    [ascii "jsonrpc", ascii "id", ascii "target", ascii "method", ascii "params"] v
  let jsonrpc ← requiredField ms "jsonrpc" (decodeBytes floatToInt)
  let id ← defaultField ms "id" (decodeOptional decodeValue) none
  let target ← defaultField ms "target" (decodeOptional (decodeTarget floatToInt)) none
  let method ← requiredField ms "method" (decodeBytes floatToInt)
  let params ← defaultField ms "params" (decodeOptional decodeValue) none
  some { jsonrpc, id, target, method, params }

/-- `ConversationError`. -/
def decodeError (v : Json) : Option ConversationError := do
  let ms ← structMembers [ascii "code", ascii "message"] v
  let code ← requiredField ms "code" (decodeSigned floatToInt)
  let message ← requiredField ms "message" (decodeBytes floatToInt)
  some { code := Int64.ofInt code, message }

/-- `ConversationEnvelope`, as it is parsed. -/
structure EnvelopeMessage where
  conversationId : Bytes
  requestId : Option UInt64
  target : Option RequestTarget
  kind : ConversationKind
  payload : Json
  fin : Bool
  conversationError : Option ConversationError

/-- `parseConversationEnvelope`. -/
def parseConversationEnvelope (bytes : Bytes) : Option EnvelopeMessage := do
  let v ← Json.parse utf8ValidateSlice bytes
  let ms ← structMembers
    [ascii "conversationId", ascii "requestId", ascii "target", ascii "kind", ascii "payload",
      ascii "fin", ascii "conversationError"] v
  let conversationId ← requiredField ms "conversationId" (decodeBytes floatToInt)
  let requestId ← defaultField ms "requestId" (decodeOptional (decodeU64 floatToInt)) none
  let target ← defaultField ms "target" (decodeOptional (decodeTarget floatToInt)) none
  let kind ← requiredField ms "kind" decodeKind
  let payload ← requiredField ms "payload" decodeValue
  let fin ← defaultField ms "fin" decodeBool true
  let conversationError ←
    defaultField ms "conversationError" (decodeOptional (decodeError floatToInt)) none
  some { conversationId, requestId, target, kind, payload, fin, conversationError }

end Parsers

/-- The text of a value that `std.json` accepts, and the value. -/
def parseValue (text : Bytes) : Option Json :=
  (Json.parse utf8ValidateSlice text).bind decodeValue

/-! ## Newlines -/

section Newlines

theorem not_mem_intersperse {sep : Bytes} {parts : List Bytes} (hsep : newline ∉ sep)
    (hparts : ∀ part ∈ parts, newline ∉ part) : ∀ part ∈ parts.intersperse sep, newline ∉ part := by
  induction parts with
  | nil => simp
  | cons first rest ih =>
      obtain ⟨hfirst, hrest⟩ := List.forall_mem_cons.mp hparts
      cases rest with
      | nil => simpa using hfirst
      | cons second rest =>
          rw [List.intersperse_cons_cons]
          exact List.forall_mem_cons.mpr ⟨hfirst, List.forall_mem_cons.mpr ⟨hsep, ih hrest⟩⟩

theorem newline_not_mem_decimal (n : Nat) : newline ∉ decimal n := fun hmem =>
  absurd (mem_decimal hmem).1 (by decide)

theorem newline_not_mem_escapeByte (c : UInt8) : newline ∉ Json.escapeByte c := by
  have hall : ∀ n : Fin 256, newline ∉ Json.escapeByte (UInt8.ofNat n) := by decide +kernel
  have hc := hall ⟨c.toNat, c.toNat_lt⟩
  rwa [UInt8.ofNat_toNat] at hc

/-- A string is written without a newline. -/
theorem newline_not_mem_jsonText (text : Bytes) : newline ∉ jsonText text := by
  unfold jsonText
  split
  · simp only [Json.stringText, List.cons_append, List.mem_cons, List.mem_append, List.mem_flatMap,
      List.not_mem_nil, or_false, not_or, not_exists, not_and]
    exact ⟨by decide, fun c _ => newline_not_mem_escapeByte c, by decide⟩
  · simp only [List.cons_append, List.mem_cons, List.mem_append, List.not_mem_nil, or_false, not_or]
    refine ⟨by decide, fun hmem => ?_, by decide⟩
    obtain ⟨part, hpart, hmem⟩ := List.mem_flatten.mp hmem
    refine not_mem_intersperse (by decide) (fun part hpart => ?_) part hpart hmem
    obtain ⟨c, -, rfl⟩ := List.mem_map.mp hpart
    exact newline_not_mem_decimal _

theorem newline_not_mem_writeRequestTarget (target : RequestTarget) :
    newline ∉ writeRequestTarget target := by
  unfold writeRequestTarget
  simp only [List.mem_append, not_or]
  refine ⟨⟨⟨⟨by decide, newline_not_mem_jsonText _⟩, ?_⟩, ?_⟩, by decide⟩
  · split
    · exact List.mem_append.not.mpr (not_or.mpr ⟨by decide, newline_not_mem_decimal _⟩)
    · exact List.not_mem_nil
  · split
    · exact List.mem_append.not.mpr (not_or.mpr ⟨by decide, newline_not_mem_jsonText _⟩)
    · exact List.not_mem_nil

/-- Only the text of the parameters brings a newline. -/
theorem newline_mem_writeClientRequestTarget {requestId : UInt64} {target : RequestTarget}
    {method paramsJson text : Bytes}
    (h : writeClientRequestTarget requestId target method paramsJson = some text) :
    newline ∈ text ↔ newline ∈ paramsJson := by
  unfold writeClientRequestTarget at h
  simp only at h
  split at h
  · cases h
  · cases h
    have hconstant : newline ∉ ascii "\x7b\"jsonrpc\":\"2.0\",\"id\":" ∧
        newline ∉ ascii ",\"target\":" ∧ newline ∉ ascii ",\"method\":" ∧
        newline ∉ ascii ",\"params\":" ∧ newline ∉ ascii "\x7d" := by decide
    simp only [List.mem_append, hconstant, newline_not_mem_decimal,
      newline_not_mem_writeRequestTarget, newline_not_mem_jsonText, false_or, or_false]

theorem newline_not_mem_decimalInt (i : Int) : newline ∉ decimalInt i := by
  unfold decimalInt
  split
  · exact List.mem_cons.not.mpr (not_or.mpr ⟨by decide, newline_not_mem_decimal _⟩)
  · exact newline_not_mem_decimal _

/-- Only the text of the payload brings a newline. -/
theorem newline_mem_writeConversationEnvelope {conversationId : Bytes} {requestId : Option UInt64}
    {target : Option RequestTarget} {kind : ConversationKind} {payloadJson : Bytes} {fin : Bool}
    {err : Option ConversationError} :
    newline ∈ writeConversationEnvelope conversationId requestId target kind payloadJson fin err ↔
      newline ∈ payloadJson := by
  have hrequestId : newline ∉ (match requestId with
      | some value => decimal value.toNat
      | none => ascii "null") := by
    split
    · exact newline_not_mem_decimal _
    · decide
  have htarget : newline ∉ (match target with
      | some resolvedTarget => ascii ",\"target\":" ++ writeRequestTarget resolvedTarget
      | none => []) := by
    split
    · exact List.mem_append.not.mpr
        (not_or.mpr ⟨by decide, newline_not_mem_writeRequestTarget _⟩)
    · exact List.not_mem_nil
  have hkind : newline ∉ kindTag kind := by cases kind <;> decide
  have hfin : newline ∉ boolText fin := by cases fin <;> decide
  have herr : newline ∉ (match err with
      | some value =>
        ascii ",\"conversationError\":\x7b\"code\":" ++ decimalInt value.code.toInt ++
          ascii ",\"message\":" ++ jsonText value.message ++ ascii "\x7d"
      | none => []) := by
    split
    · simp only [List.mem_append, not_or]
      exact ⟨⟨⟨⟨by decide, newline_not_mem_decimalInt _⟩, by decide⟩, newline_not_mem_jsonText _⟩,
        by decide⟩
    · exact List.not_mem_nil
  have hconstant : newline ∉ ascii "\x7b\"conversationId\":" ∧
      newline ∉ ascii ",\"requestId\":" ∧ newline ∉ ascii ",\"kind\":\"" ∧
      newline ∉ ascii "\",\"payload\":" ∧ newline ∉ ascii ",\"fin\":" ∧
      newline ∉ ascii "\x7d" := by decide
  unfold writeConversationEnvelope
  simp only [List.mem_append, hconstant, newline_not_mem_jsonText, hrequestId, htarget, hkind, hfin,
    herr, false_or, or_false]

end Newlines

/-! ## Texts that are read back -/

/-- What JSON text is read with. -/
abbrev ReadsAs : Bytes → Json → Prop := Json.Reads utf8ValidateSlice

section Texts

theorem isDigit_json (c : UInt8) : Json.isDigit c = isDigit c := by
  simp [Json.isDigit, isDigit, UInt8.le_iff_toNat_le]

/-- Only zero starts with a zero. -/
theorem decimal_of_head_zero (n : Nat) (h : (decimal n).head? = some 48) : decimal n = [48] := by
  induction n using Nat.strong_induction_on with
  | _ n ih =>
      by_cases hn : n < 10
      · rw [decimal, Nat.toDigits_of_lt_base hn] at h ⊢
        simpa using h
      · have hsplit : decimal n = decimal (n / 10) ++ [UInt8.ofNat (n % 10).digitChar.toNat] := by
          rw [decimal, Nat.toDigits_of_base_le (by omega) (by omega), List.map_append]
          rfl
        obtain ⟨c, rest, hcons, -⟩ := decimal_cons (n / 10)
        rw [hsplit, hcons] at h
        have hzero := ih (n / 10) (by omega) (by rw [hcons]; exact h)
        have hdiv : n / 10 = 0 := decimal_injective (hzero.trans (by decide))
        omega

/-- A number is written without needless zeros. -/
theorem whole_decimal (n : Nat) : Json.Whole (decimal n) := by
  refine ⟨fun c hc => ?_, ?_, fun hhead => ?_⟩
  · rw [isDigit_json]
    exact (mem_decimal hc).1
  · obtain ⟨c, rest, heq, -⟩ := decimal_cons n
    simp [heq]
  · exact decimal_of_head_zero n hhead

theorem reads_decimal (n : Nat) : ReadsAs (decimal n) (.number (decimal n)) := (whole_decimal n).reads

theorem reads_decimalInt (i : Int) : ReadsAs (decimalInt i) (.number (decimalInt i)) := by
  unfold decimalInt
  split
  · exact (whole_decimal _).reads_neg
  · exact reads_decimal _

/-- A byte slice, as a value. -/
def stringJson (text : Bytes) : Json :=
  if utf8ValidateSlice text then .string text
  else .array (text.map fun c => .number (decimal c.toNat))

theorem intercalate_eq (part : Bytes) (parts : List Bytes) :
    List.intercalate [Json.comma] (part :: parts) ++ [Json.closeBracket] =
      part ++ Json.moreItems parts := by
  induction parts generalizing part with
  | nil => simp [List.intercalate, Json.moreItems]
  | cons next parts ih =>
      have htail := ih next
      simp only [List.intercalate] at htail ⊢
      rw [List.intersperse_cons_cons, List.flatten_cons, List.flatten_cons, List.append_assoc,
        List.append_assoc, htail]
      simp [Json.moreItems]

/-- Bytes that are written are read back, whether they are UTF-8 or not. -/
theorem reads_jsonText (text : Bytes) : ReadsAs (jsonText text) (stringJson text) := by
  unfold jsonText stringJson
  split
  · rename_i hvalid
    exact Json.reads_stringText hvalid
  · rename_i hinvalid
    cases text with
    | nil => exact absurd rfl hinvalid
    | cons c rest =>
        rw [List.map_cons, List.map_cons, List.cons_append, intercalate_eq]
        refine Json.reads_arrayText (reads_decimal _) ?_
        rw [List.forall₂_map_left_iff, List.forall₂_map_right_iff, List.forall₂_same]
        exact fun b _ => reads_decimal _

/-- A name of a field, as it stands in an object. -/
theorem memberText_eq (name : String) (value : Bytes) :
    Json.memberText (ascii name) value =
      Json.stringText (ascii name) ++ ([Json.colon] ++ value) := rfl

/-- A member that is there if it has a value. -/
def optionalMember {α : Type} (name : String) (value : Option α) : List (Bytes × α) :=
  value.toList.map fun v => (ascii name, v)

theorem readsMembers_optional {name : String} (hname : utf8ValidateSlice (ascii name) = true)
    {text : Option Bytes} {value : Option Json}
    (h : Option.Rel ReadsAs text value) :
    Json.ReadsMembers utf8ValidateSlice (optionalMember name text) (optionalMember name value) := by
  cases h with
  | none => exact .nil
  | some h => exact .cons ⟨rfl, hname, h⟩ .nil

/-- What `writeRequestTarget` writes, as a value. -/
def targetJson (target : RequestTarget) : Json :=
  .object ((ascii "documentPath", stringJson (target.documentPath.getD rootDocumentPath)) ::
    (optionalMember "nodeId" (target.nodeId.map fun nodeId => .number (decimal nodeId.toNat)) ++
      optionalMember "selector" (target.selector.map stringJson)))

/-- A target that is written names its document. -/
def namedTarget (target : RequestTarget) : RequestTarget :=
  { target with documentPath := some (target.documentPath.getD rootDocumentPath) }

theorem writeRequestTarget_eq (target : RequestTarget) : writeRequestTarget target =
    Json.objectText (ascii "documentPath", jsonText (target.documentPath.getD rootDocumentPath))
      (optionalMember "nodeId" (target.nodeId.map fun nodeId => decimal nodeId.toNat) ++
        optionalMember "selector" (target.selector.map jsonText)) := by
  have hopen : ascii "\x7b\"documentPath\":" =
      Json.openBrace :: (Json.stringText (ascii "documentPath") ++ [Json.colon]) := by decide
  have hnodeId : ascii ",\"nodeId\":" =
      Json.comma :: (Json.stringText (ascii "nodeId") ++ [Json.colon]) := by decide
  have hselector : ascii ",\"selector\":" =
      Json.comma :: (Json.stringText (ascii "selector") ++ [Json.colon]) := by decide
  have hclose : ascii "\x7d" = [Json.closeBrace] := by decide
  obtain ⟨documentPath, _ | nodeId, _ | selector⟩ := target <;>
    simp [writeRequestTarget, hopen, hnodeId, hselector, hclose, Json.objectText, Json.moreMembers,
      memberText_eq, optionalMember]

theorem reads_writeRequestTarget (target : RequestTarget) :
    ReadsAs (writeRequestTarget target) (targetJson target) := by
  rw [writeRequestTarget_eq]
  have hname : utf8ValidateSlice (ascii "documentPath") = true := by decide
  refine Json.reads_objectText (.cons ⟨rfl, hname, reads_jsonText _⟩ ?_)
  refine List.rel_append (readsMembers_optional (by decide) ?_)
    (readsMembers_optional (by decide) ?_)
  · cases target.nodeId with
    | none => exact .none
    | some nodeId => exact .some (reads_decimal _)
  · cases target.selector with
    | none => exact .none
    | some selector => exact .some (reads_jsonText _)

variable (floatToInt : Bytes → Option Int)

theorem isNumberFormattedLikeAnInteger_of_digits {slice : Bytes} (hne : slice ≠ ascii "-0")
    (h : ∀ c ∈ slice, isDigit c = true ∨ c = dash) : isNumberFormattedLikeAnInteger slice = true := by
  have hnone : (slice.any fun c => (ascii ".eE").contains c) = false := by
    rw [List.any_eq_false]
    intro c hc hmem
    have hall : (ascii ".eE").all (fun c => !isDigit c && c ≠ dash) = true := by decide
    have hone := List.all_eq_true.mp hall c (by simpa using hmem)
    obtain ⟨hdigit, hdash⟩ : isDigit c = false ∧ c ≠ dash := by simpa using hone
    rcases h c hc with h | h
    · simp [hdigit] at h
    · exact hdash h
  rw [isNumberFormattedLikeAnInteger, hnone]
  simp [hne]

theorem isNumberFormattedLikeAnInteger_decimal (n : Nat) :
    isNumberFormattedLikeAnInteger (decimal n) = true := by
  refine isNumberFormattedLikeAnInteger_of_digits ?_ fun c hc => .inl (mem_decimal hc).1
  obtain ⟨c, rest, heq, hdigit⟩ := decimal_cons n
  rw [heq]
  intro h
  cases h
  exact absurd hdigit (by decide)

theorem decodeU64_decimal (n : UInt64) :
    decodeU64 floatToInt (.number (decimal n.toNat)) = some n := by
  have hlt : n.toNat < u64Limit := n.toNat_lt
  simp [decodeU64, decodeUnsigned, numberSlice, isNumberFormattedLikeAnInteger_decimal,
    parseUnsigned_decimal hlt, hlt]

theorem parseUnsignedBody_decimal {n : Nat} (h : n < u64Limit) :
    parseUnsignedBody false (decimal n) = some n := by
  have hparse := parseUnsigned_decimal h
  obtain ⟨c, rest, heq, hdigit⟩ := decimal_cons n
  have hplus : c ≠ 43 := by rintro rfl; exact absurd hdigit (by decide)
  have hminus : c ≠ 45 := by rintro rfl; exact absurd hdigit (by decide)
  rw [heq] at hparse ⊢
  rwa [parseUnsigned, if_neg hplus, if_neg hminus] at hparse

/-- A signed decimal is read back. -/
theorem parseSigned_decimalInt (i : Int64) : parseSigned (decimalInt i.toInt) = some i.toInt := by
  have hle := i.le_toInt
  have hlt := i.toInt_lt
  have hlimit : i64Limit = 2 ^ 63 := rfl
  have hlt : i.toInt.natAbs < u64Limit := by
    unfold u64Limit
    omega
  unfold decimalInt
  split
  · rename_i hneg
    rw [parseSigned]
    simp only [if_true, parseUnsignedBody_decimal hlt]
    rw [Option.filter_some, if_pos (by simp only [decide_eq_true_eq]; omega), Option.map_some]
    congr 1
    omega
  · rename_i hpos
    have hparse := parseUnsigned_decimal hlt
    obtain ⟨c, rest, heq, hdigit⟩ := decimal_cons i.toInt.natAbs
    have hminus : c ≠ dash := by rintro rfl; exact absurd hdigit (by decide)
    rw [heq] at hparse ⊢
    rw [parseSigned, if_neg hminus, hparse, Option.filter_some,
      if_pos (by simp only [decide_eq_true_eq]; omega), Option.map_some]
    congr 1
    simp only [Int.ofNat_eq_natCast]
    omega

theorem decodeSigned_decimalInt (i : Int64) :
    decodeSigned floatToInt (.number (decimalInt i.toInt)) = some i.toInt := by
  have hformat : isNumberFormattedLikeAnInteger (decimalInt i.toInt) = true := by
    unfold decimalInt
    split
    · rename_i hneg
      refine isNumberFormattedLikeAnInteger_of_digits (fun h => ?_) fun c hc => ?_
      · have hzero : decimal i.toInt.natAbs = decimal 0 := (List.cons.inj h).2
        have := decimal_injective hzero
        omega
      · rcases List.mem_cons.mp hc with rfl | hc
        · exact .inr rfl
        · exact .inl (mem_decimal hc).1
    · exact isNumberFormattedLikeAnInteger_decimal _
  rw [decodeSigned, numberSlice, Option.bind_some, if_pos hformat, parseSigned_decimalInt]

/-- A byte slice that is written is decoded as that byte slice. -/
theorem decodeBytes_stringJson (text : Bytes) :
    decodeBytes floatToInt (stringJson text) = some text := by
  unfold stringJson
  split
  · rfl
  · have hbyte : ∀ c : UInt8,
        (decodeUnsigned floatToInt 256 (.number (decimal c.toNat))).map UInt8.ofNat = some c := by
      intro c
      have hlt : c.toNat < 256 := c.toNat_lt
      have hparse : parseUnsigned (decimal c.toNat) = some c.toNat :=
        parseUnsigned_decimal (hlt.trans (by decide))
      simp [decodeUnsigned, numberSlice, isNumberFormattedLikeAnInteger_decimal, hparse, hlt]
    have hall : ∀ bytes : Bytes, (bytes.map fun c => Json.number (decimal c.toNat)).mapM
        (fun v => (decodeUnsigned floatToInt 256 v).map UInt8.ofNat) = some bytes := by
      intro bytes
      induction bytes with
      | nil => rfl
      | cons c rest ih =>
          rw [List.map_cons, List.mapM_cons, hbyte, ih]
          rfl
    exact hall text

theorem decodeOptional_stringJson (text : Bytes) :
    decodeOptional (decodeBytes floatToInt) (stringJson text) = some (some text) := by
  have hdecode := decodeBytes_stringJson floatToInt text
  unfold stringJson at hdecode ⊢
  split
  · rfl
  · rename_i hinvalid
    rw [if_neg hinvalid] at hdecode
    exact congrArg (Option.map some) hdecode

theorem decodeTarget_targetJson (target : RequestTarget) :
    decodeTarget floatToInt (targetJson target) = some (namedTarget target) := by
  obtain ⟨documentPath, nodeId, selector⟩ := target
  -- Which members there are decides what is looked up; the rest is one chain of decoders.
  suffices hchain :
      (decodeOptional (decodeBytes floatToInt)
        (stringJson (documentPath.getD rootDocumentPath))).bind (fun documentPath =>
        ((nodeId.map fun nodeId => Json.number (decimal nodeId.toNat)).elim (some none)
          (decodeOptional (decodeU64 floatToInt))).bind fun nodeId =>
        ((selector.map stringJson).elim (some none)
          (decodeOptional (decodeBytes floatToInt))).bind fun selector =>
        some (RequestTarget.mk documentPath nodeId selector)) =
      some ⟨some (documentPath.getD rootDocumentPath), nodeId, selector⟩ by
    cases nodeId <;> cases selector <;> exact hchain
  have hnodeId : (nodeId.map fun nodeId => Json.number (decimal nodeId.toNat)).elim (some none)
      (decodeOptional (decodeU64 floatToInt)) = some nodeId := by
    cases nodeId with
    | none => rfl
    | some nodeId => exact congrArg (Option.map some) (decodeU64_decimal floatToInt nodeId)
  have hselector : (selector.map stringJson).elim (some none)
      (decodeOptional (decodeBytes floatToInt)) = some selector := by
    cases selector with
    | none => rfl
    | some selector => exact decodeOptional_stringJson floatToInt selector
  rw [decodeOptional_stringJson, hnodeId, hselector]
  rfl

end Texts

/-! ## Round trips -/

section RoundTrips

variable (floatToInt : Bytes → Option Int)

/-- A value that `null` stands for no value of. -/
def optionalValue : Json → Option Json
  | .null => none
  | v => some v

theorem parseValue_eq_some {text : Bytes} {v : Json} (h : parseValue text = some v) :
    ReadsAs text v ∧ decodeValue v = some v := by
  obtain ⟨w, hparse, hdecode⟩ := Option.bind_eq_some_iff.mp h
  have heq : w = v := by
    unfold decodeValue at hdecode
    split at hdecode
    · exact Option.some.inj hdecode
    · cases hdecode
  subst heq
  exact ⟨Json.reads_of_parse hparse, hdecode⟩

theorem decodeOptional_decodeValue {v : Json} (h : decodeValue v = some v) :
    decodeOptional decodeValue v = some (optionalValue v) := by
  cases v with
  | null => rfl
  | _ => exact congrArg (Option.map some) h

theorem writeClientRequestTarget_eq {requestId : UInt64} {target : RequestTarget}
    {method paramsJson text : Bytes}
    (h : writeClientRequestTarget requestId target method paramsJson = some text) :
    text = Json.objectText (ascii "jsonrpc", Json.stringText (ascii "2.0"))
      [(ascii "id", decimal requestId.toNat), (ascii "target", writeRequestTarget (namedTarget target)),
        (ascii "method", jsonText method), (ascii "params", paramsJson)] := by
  have hopen : ascii "\x7b\"jsonrpc\":\"2.0\",\"id\":" =
      Json.openBrace :: (Json.stringText (ascii "jsonrpc") ++ [Json.colon] ++
        Json.stringText (ascii "2.0") ++ [Json.comma] ++ Json.stringText (ascii "id") ++
        [Json.colon]) := by decide
  have htarget : ascii ",\"target\":" =
      Json.comma :: (Json.stringText (ascii "target") ++ [Json.colon]) := by decide
  have hmethod : ascii ",\"method\":" =
      Json.comma :: (Json.stringText (ascii "method") ++ [Json.colon]) := by decide
  have hparams : ascii ",\"params\":" =
      Json.comma :: (Json.stringText (ascii "params") ++ [Json.colon]) := by decide
  have hclose : ascii "\x7d" = [Json.closeBrace] := by decide
  unfold writeClientRequestTarget at h
  simp only at h
  split at h
  · cases h
  · cases h
    simp [hopen, htarget, hmethod, hparams, hclose, Json.objectText, Json.moreMembers,
      memberText_eq, namedTarget]

/-- Without the framing: what is written parses as what was meant. -/
theorem parseRequest_writeClientRequestTarget {requestId : UInt64} {target : RequestTarget}
    {method paramsJson text : Bytes} {params : Json} (hparams : parseValue paramsJson = some params)
    (h : writeClientRequestTarget requestId target method paramsJson = some text) :
    parseRequest floatToInt text =
      some { jsonrpc := ascii "2.0"
             id := some (.number (decimal requestId.toNat))
             target := some (namedTarget target)
             method
             params := optionalValue params } := by
  obtain ⟨hreads, hdecode⟩ := parseValue_eq_some hparams
  have hmembers : Json.ReadsMembers utf8ValidateSlice
      [(ascii "jsonrpc", Json.stringText (ascii "2.0")), (ascii "id", decimal requestId.toNat),
        (ascii "target", writeRequestTarget (namedTarget target)),
        (ascii "method", jsonText method), (ascii "params", paramsJson)]
      [(ascii "jsonrpc", .string (ascii "2.0")), (ascii "id", .number (decimal requestId.toNat)),
        (ascii "target", targetJson (namedTarget target)), (ascii "method", stringJson method),
        (ascii "params", params)] := by
    have hnames : ∀ name ∈ [ascii "jsonrpc", ascii "id", ascii "target", ascii "method",
        ascii "params", ascii "2.0"], utf8ValidateSlice name = true := by decide
    exact .cons ⟨rfl, hnames _ (by simp), Json.reads_stringText (hnames _ (by simp))⟩
      (.cons ⟨rfl, hnames _ (by simp), reads_decimal _⟩
      (.cons ⟨rfl, hnames _ (by simp), reads_writeRequestTarget _⟩
      (.cons ⟨rfl, hnames _ (by simp), reads_jsonText _⟩
      (.cons ⟨rfl, hnames _ (by simp), hreads⟩ .nil))))
  rw [parseRequest, writeClientRequestTarget_eq h,
    Json.parse_of_reads (Json.reads_objectText hmembers)]
  -- Everything but the target, the method and the parameters evaluates.
  show ((decodeTarget floatToInt (targetJson (namedTarget target))).map some).bind (fun target =>
    (decodeBytes floatToInt (stringJson method)).bind fun method =>
    (decodeOptional decodeValue params).bind fun params =>
      some (RequestMessage.mk (ascii "2.0") (some (.number (decimal requestId.toNat))) target method
        params)) = _
  rw [decodeTarget_targetJson, decodeBytes_stringJson, decodeOptional_decodeValue hdecode]
  rfl

/-- What `writeConversationEnvelope` writes of an error, as a value. -/
def errorJson (err : ConversationError) : Json :=
  .object [(ascii "code", .number (decimalInt err.code.toInt)), (ascii "message", stringJson err.message)]

/-- The text of an error. -/
def errorText (err : ConversationError) : Bytes :=
  Json.objectText (ascii "code", decimalInt err.code.toInt) [(ascii "message", jsonText err.message)]

theorem reads_errorText (err : ConversationError) :
    ReadsAs (errorText err) (errorJson err) := by
  have hnames : ∀ name ∈ [ascii "code", ascii "message"], utf8ValidateSlice name = true := by decide
  exact Json.reads_objectText (.cons ⟨rfl, hnames _ (by simp), reads_decimalInt _⟩
    (.cons ⟨rfl, hnames _ (by simp), reads_jsonText _⟩ .nil))

theorem decodeError_errorJson (err : ConversationError) :
    decodeError floatToInt (errorJson err) = some err := by
  show (decodeSigned floatToInt (.number (decimalInt err.code.toInt))).bind
    (fun code => (decodeBytes floatToInt (stringJson err.message)).bind fun message =>
      some (ConversationError.mk (Int64.ofInt code) message)) = _
  rw [decodeSigned_decimalInt, decodeBytes_stringJson, Option.bind_some, Option.bind_some,
    Int64.ofInt_toInt]

/-- The text of a request id. -/
def requestIdText (requestId : Option UInt64) : Bytes :=
  match requestId with
  | some value => decimal value.toNat
  | none => ascii "null"

/-- A request id, as a value. -/
def requestIdJson (requestId : Option UInt64) : Json :=
  match requestId with
  | some value => .number (decimal value.toNat)
  | none => .null

theorem reads_requestIdText (requestId : Option UInt64) :
    ReadsAs (requestIdText requestId) (requestIdJson requestId) := by
  cases requestId with
  | none => exact Json.reads_null
  | some value => exact reads_decimal _

theorem decodeOptional_requestIdJson (requestId : Option UInt64) :
    decodeOptional (decodeU64 floatToInt) (requestIdJson requestId) = some requestId := by
  cases requestId with
  | none => rfl
  | some value =>
      show (decodeU64 floatToInt (.number (decimal value.toNat))).map some = _
      rw [decodeU64_decimal]
      rfl

theorem reads_boolText (value : Bool) : ReadsAs (boolText value) (.bool value) := by
  cases value with
  | true => exact Json.reads_true
  | false => exact Json.reads_false

theorem decodeKind_kindTag (kind : ConversationKind) :
    decodeKind (.string (kindTag kind)) = some kind := by
  cases kind <;> decide

theorem writeConversationEnvelope_eq {conversationId : Bytes} {requestId : Option UInt64}
    {target : Option RequestTarget} {kind : ConversationKind} {payloadJson : Bytes} {fin : Bool}
    {err : Option ConversationError} :
    writeConversationEnvelope conversationId requestId target kind payloadJson fin err =
      Json.objectText (ascii "conversationId", jsonText conversationId)
        ((ascii "requestId", requestIdText requestId) ::
          (optionalMember "target" (target.map writeRequestTarget) ++
            ((ascii "kind", Json.stringText (kindTag kind)) :: (ascii "payload", payloadJson) ::
              (ascii "fin", boolText fin) ::
                optionalMember "conversationError" (err.map errorText)))) := by
  have hopen : ascii "\x7b\"conversationId\":" =
      Json.openBrace :: (Json.stringText (ascii "conversationId") ++ [Json.colon]) := by decide
  have hrequestId : ascii ",\"requestId\":" =
      Json.comma :: (Json.stringText (ascii "requestId") ++ [Json.colon]) := by decide
  have htarget : ascii ",\"target\":" =
      Json.comma :: (Json.stringText (ascii "target") ++ [Json.colon]) := by decide
  have hkind : ascii ",\"kind\":\"" =
      Json.comma :: (Json.stringText (ascii "kind") ++ [Json.colon, Json.quote]) := by decide
  have hpayload : ascii "\",\"payload\":" =
      Json.quote :: Json.comma :: (Json.stringText (ascii "payload") ++ [Json.colon]) := by decide
  have htag : Json.stringText (kindTag kind) = Json.quote :: (kindTag kind ++ [Json.quote]) := by
    cases kind <;> decide
  have hfin : ascii ",\"fin\":" =
      Json.comma :: (Json.stringText (ascii "fin") ++ [Json.colon]) := by decide
  have hcode : ascii ",\"conversationError\":\x7b\"code\":" =
      Json.comma :: (Json.stringText (ascii "conversationError") ++ [Json.colon, Json.openBrace] ++
        Json.stringText (ascii "code") ++ [Json.colon]) := by decide
  have hmessage : ascii ",\"message\":" =
      Json.comma :: (Json.stringText (ascii "message") ++ [Json.colon]) := by decide
  have hclose : ascii "\x7d" = [Json.closeBrace] := by decide
  unfold writeConversationEnvelope
  cases target <;> cases err <;>
    simp [hopen, hrequestId, htarget, hkind, hpayload, htag, hfin, hcode, hmessage, hclose,
      Json.objectText, Json.moreMembers, memberText_eq, optionalMember, requestIdText, errorText]

/-- Without the framing: what is written parses as what was meant. -/
theorem parseConversationEnvelope_writeConversationEnvelope {conversationId : Bytes}
    {requestId : Option UInt64} {target : Option RequestTarget} {kind : ConversationKind}
    {payloadJson : Bytes} {payload : Json} {fin : Bool} {err : Option ConversationError}
    (hpayload : parseValue payloadJson = some payload) :
    parseConversationEnvelope floatToInt
        (writeConversationEnvelope conversationId requestId target kind payloadJson fin err) =
      some { conversationId, requestId, target := target.map namedTarget, kind, payload, fin
             conversationError := err } := by
  obtain ⟨hreads, hdecode⟩ := parseValue_eq_some hpayload
  have hnames : ∀ name ∈ [ascii "conversationId", ascii "requestId", ascii "target", ascii "kind",
      ascii "payload", ascii "fin", ascii "conversationError"],
      utf8ValidateSlice name = true := by decide
  have htag : utf8ValidateSlice (kindTag kind) = true := by cases kind <;> decide
  have hmembers : Json.ReadsMembers utf8ValidateSlice
      ((ascii "conversationId", jsonText conversationId) ::
        (ascii "requestId", requestIdText requestId) ::
          (optionalMember "target" (target.map writeRequestTarget) ++
            ((ascii "kind", Json.stringText (kindTag kind)) :: (ascii "payload", payloadJson) ::
              (ascii "fin", boolText fin) ::
                optionalMember "conversationError" (err.map errorText))))
      ((ascii "conversationId", stringJson conversationId) ::
        (ascii "requestId", requestIdJson requestId) ::
          (optionalMember "target" (target.map targetJson) ++
            ((ascii "kind", .string (kindTag kind)) :: (ascii "payload", payload) ::
              (ascii "fin", .bool fin) ::
                optionalMember "conversationError" (err.map errorJson)))) := by
    refine .cons ⟨rfl, hnames _ (by simp), reads_jsonText _⟩
      (.cons ⟨rfl, hnames _ (by simp), reads_requestIdText _⟩ (List.rel_append ?_
      (.cons ⟨rfl, hnames _ (by simp), Json.reads_stringText htag⟩
      (.cons ⟨rfl, hnames _ (by simp), hreads⟩
      (.cons ⟨rfl, hnames _ (by simp), reads_boolText _⟩ ?_)))))
    · refine readsMembers_optional (hnames _ (by simp)) ?_
      cases target with
      | none => exact .none
      | some t => exact .some (reads_writeRequestTarget t)
    · refine readsMembers_optional (hnames _ (by simp)) ?_
      cases err with
      | none => exact .none
      | some e => exact .some (reads_errorText e)
  rw [parseConversationEnvelope, writeConversationEnvelope_eq,
    Json.parse_of_reads (Json.reads_objectText hmembers)]
  -- Which members there are decides what is looked up; the rest is one chain of decoders.
  suffices hchain :
      (decodeBytes floatToInt (stringJson conversationId)).bind (fun conversationId =>
        (decodeOptional (decodeU64 floatToInt) (requestIdJson requestId)).bind fun requestId =>
        ((target.map targetJson).elim (some none)
          (decodeOptional (decodeTarget floatToInt))).bind fun target =>
        (decodeKind (.string (kindTag kind))).bind fun kind =>
        (decodeValue payload).bind fun payload =>
        ((err.map errorJson).elim (some none)
          (decodeOptional (decodeError floatToInt))).bind fun err =>
        some (EnvelopeMessage.mk conversationId requestId target kind payload fin err)) =
      some (EnvelopeMessage.mk conversationId requestId (target.map namedTarget) kind payload fin
        err) by
    cases target <;> cases err <;> exact hchain
  have htargetJson : (target.map targetJson).elim (some none)
      (decodeOptional (decodeTarget floatToInt)) = some (target.map namedTarget) := by
    cases target with
    | none => rfl
    | some t => exact congrArg (Option.map some) (decodeTarget_targetJson floatToInt t)
  have herrorJson : (err.map errorJson).elim (some none)
      (decodeOptional (decodeError floatToInt)) = some err := by
    cases err with
    | none => rfl
    | some e => exact congrArg (Option.map some) (decodeError_errorJson floatToInt e)
  rw [decodeBytes_stringJson, decodeOptional_requestIdJson, htargetJson, decodeKind_kindTag, hdecode, herrorJson]
  rfl

/-- However its bytes arrive, the text and a newline are read as one line, and nothing is left. -/
def Framed (maxMessageBytes : Nat) (text : Bytes) : Prop :=
  ∀ reads, (∀ read ∈ reads, ∃ most, read = .bytes most) → text.length < reads.length →
    ∃ reader', reader'.stream = [] ∧
      MessageReader.readMessageLine maxMessageBytes reads ⟨[], text ++ [newline]⟩ =
        (.line text, reader')

theorem framed_iff {maxMessageBytes : Nat} {text : Bytes} :
    Framed maxMessageBytes text ↔ newline ∉ text ∧ text.length < maxMessageBytes := by
  constructor
  · intro h
    have hreads : ∀ read ∈ List.replicate (text.length + 1) (Read.bytes 0),
        ∃ most, read = .bytes most := fun read hread => ⟨0, List.eq_of_mem_replicate hread⟩
    have hlength : text.length < (List.replicate (text.length + 1) (Read.bytes 0)).length := by simp
    obtain ⟨reader', -, heq⟩ := h _ hreads hlength
    have hreturns := MessageReader.readMessageLine_returns maxMessageBytes
      (List.replicate (text.length + 1) (Read.bytes 0)) ⟨[], text ++ [newline]⟩
    rw [heq] at hreturns
    have hnot : newline ∉ text := hreturns.newline_not_mem fun hclosed => by
      obtain ⟨most, hread⟩ := hreads _ hclosed
      cases hread
    refine ⟨hnot, Nat.lt_of_not_le fun hlarge => ?_⟩
    have htooLarge := (MessageReader.readMessageLine_single hnot hreads hlength).2 hlarge
    rw [heq] at htooLarge
    cases htooLarge
  · rintro ⟨hnot, hfits⟩ reads hreads hlength
    exact (MessageReader.readMessageLine_single hnot hreads hlength).1 hfits

/-- A request, and an envelope, that is written arrives as one line and is parsed as it was meant if
and only if the text that is spliced into it holds no newline and the line fits into a message. -/
theorem framing_round_trip (maxMessageBytes : Nat) :
    (∀ requestId target method paramsJson params text, parseValue paramsJson = some params →
      writeClientRequestTarget requestId target method paramsJson = some text →
      ((Framed maxMessageBytes text ∧ parseRequest floatToInt text =
          some { jsonrpc := ascii "2.0"
                 id := some (.number (decimal requestId.toNat))
                 target := some (namedTarget target)
                 method
                 params := optionalValue params }) ↔
        newline ∉ paramsJson ∧ text.length < maxMessageBytes)) ∧
    ∀ conversationId requestId target kind payloadJson payload fin err,
      parseValue payloadJson = some payload →
      ((Framed maxMessageBytes
          (writeConversationEnvelope conversationId requestId target kind payloadJson fin err) ∧
        parseConversationEnvelope floatToInt
            (writeConversationEnvelope conversationId requestId target kind payloadJson fin err) =
          some { conversationId, requestId, target := target.map namedTarget, kind, payload, fin
                 conversationError := err }) ↔
        newline ∉ payloadJson ∧
          (writeConversationEnvelope conversationId requestId target kind payloadJson fin
            err).length < maxMessageBytes) := by
  constructor
  · intro requestId target method paramsJson params text hparams htext
    rw [framed_iff, newline_mem_writeClientRequestTarget htext]
    exact and_iff_left (parseRequest_writeClientRequestTarget floatToInt hparams htext)
  · intro conversationId requestId target kind payloadJson payload fin err hpayload
    rw [framed_iff, newline_mem_writeConversationEnvelope]
    exact and_iff_left
      (parseConversationEnvelope_writeConversationEnvelope floatToInt hpayload)

end RoundTrips

/-- A request without parameters, to the root document. -/
theorem framing_round_trip_ping : ∃ text,
    writeClientRequestTarget 7 ⟨none, none, none⟩ (ascii "ping") (ascii "\x7b\x7d") = some text ∧
      Framed 65536 text := by
  refine ⟨_, rfl, ?_⟩
  have hround := (framing_round_trip (fun _ => none) 65536).1 7 ⟨none, none, none⟩ (ascii "ping")
    (ascii "\x7b\x7d") (.object []) _ (by rfl) (by rfl)
  exact (hround.mpr (by decide +kernel)).1

/-- Parameters with a newline between their tokens: the daemon reads the first half of the request as
a line. -/
theorem newline_splits_request : ∃ params text,
    parseValue (ascii "\x7b\n\x7d") = some params ∧
      writeClientRequestTarget 7 ⟨none, none, none⟩ (ascii "ping") (ascii "\x7b\n\x7d") =
        some text ∧
      ¬Framed 65536 text := by
  refine ⟨.object [], _, by rfl, by rfl, fun h => ?_⟩
  exact (framed_iff.mp h).1 (by decide)

end Muxly.Client
