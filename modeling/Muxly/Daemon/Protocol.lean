/-
# Muxly.Daemon.Protocol -- requests and the vocabulary of their answers

The request envelope of `protocol.zig` after JSON parsing, the readers of its parameters, and the
checks of document paths. Every method of the daemon is compared against a fixed table of names;
a name outside the table is carried as `Method.other`.
-/
import Muxly.Core.Document

namespace Muxly.Daemon

open Muxly.Core

/-! ## JSON values -/

/-- `std.json.Value`. No code of the daemon reads a float or a number text. -/
inductive JsonValue where
  | null
  | bool (value : Bool)
  | integer (value : Int64)
  | float
  | numberString
  | string (value : Bytes)
  | array (items : List JsonValue)
  | object (fields : List (Bytes × JsonValue))

/-- The field of an object; any other value has none. -/
def JsonValue.get (value : JsonValue) (fieldName : Bytes) : Option JsonValue :=
  match value with
  | .object fields => fields.lookup fieldName
  | _ => none

/-- `getString`. -/
def getString (params : Option JsonValue) (fieldName : Bytes) : Option Bytes :=
  match params.bind (·.get fieldName) with
  | some (.string value) => some value
  | _ => none

/-- `getInteger`. -/
def getInteger (params : Option JsonValue) (fieldName : Bytes) : Option Int :=
  match params.bind (·.get fieldName) with
  | some (.integer value) => some value.toInt
  | _ => none

/-- `getBool`. -/
def getBool (params : Option JsonValue) (fieldName : Bytes) : Option Bool :=
  match params.bind (·.get fieldName) with
  | some (.bool value) => some value
  | _ => none

/-- What an integer parameter can be. -/
theorem getInteger_bounds {params : Option JsonValue} {fieldName : Bytes} {value : Int}
    (h : getInteger params fieldName = some value) : -2 ^ 63 ≤ value ∧ value < 2 ^ 63 := by
  unfold getInteger at h
  split at h
  · rename_i i heq
    cases h
    exact ⟨i.le_toInt, i.toInt_lt⟩
  · cases h

/-- The first number outside `i64`. -/
def i64Limit : Nat := 2 ^ 63

/-- `@intCast` to an unsigned type with `limit` values. -/
def intCast (limit : Nat) (value : Int) : Except Failure Nat :=
  if 0 ≤ value ∧ value < limit then .ok value.toNat else .error (.panic .integerCast)

theorem intCast_of_nonneg {params : Option JsonValue} {fieldName : Bytes} {value : Int}
    (h : getInteger params fieldName = some value) (hpos : 0 ≤ value) :
    intCast u64Limit value = .ok value.toNat := by
  have hlt := (getInteger_bounds h).2
  rw [intCast, if_pos]
  refine ⟨hpos, ?_⟩
  simp only [u64Limit]
  omega

/-! ## Requests -/

/-- The methods that the daemon compares a request against. -/
inductive Method where
  | ping
  | initializeSession
  | capabilitiesGet
  | documentList
  | documentCreate
  | debugSleep
  | debugDocumentValidate
  | debugTextAppend
  | debugTtyAttach
  | debugTtyPush
  | debugNodeAppend
  | debugNodeRemove
  | documentGet
  | graphGet
  | viewGet
  | projectionGet
  | documentStatus
  | nodeGet
  | sessionList
  | windowList
  | paneList
  | documentSerialize
  | documentFreeze
  | nodeAppend
  | nodeUpdate
  | nodeFreeze
  | nodeRemove
  | sessionCreate
  | windowCreate
  | paneSplit
  | paneCapture
  | paneScroll
  | paneResize
  | paneFocus
  | paneSendKeys
  | paneClose
  | paneFollowTail
  | viewSetRoot
  | viewClearRoot
  | viewElide
  | viewExpand
  | leafSourceAttach
  | leafSourceGet
  | fileCapture
  | fileFollowTail
  | viewReset
  | bindingsInspect
  | bindingsValidate
  | bindingsPropose
  | mouseSet
  | modelineSet
  | menuSet
  | menuProject
  | nvimAttach
  | nvimDetach
  /-- Any name outside the table. -/
  | other (name : Bytes)
  deriving DecidableEq

/-- `RequestTarget`. -/
structure RequestTarget where
  documentPath : Option Bytes
  nodeId : Option UInt64
  selector : Option Bytes
  deriving DecidableEq

/-- `RequestEnvelope`: `jsonrpc` is kept as the result of its comparison with `"2.0"`, and the
request id, which is only echoed, is left out. -/
structure RequestEnvelope where
  jsonrpcIsTwo : Bool
  target : Option RequestTarget
  method : Method
  params : Option JsonValue

/-- `default_document_path`, the path of the root document. -/
def rootDocumentPath : Bytes := [slash]

/-- `isCanonicalDocumentPath`. -/
def isCanonicalDocumentPath (documentPath : Bytes) : Bool :=
  match documentPath with
  | [] => false
  | c :: rest =>
    if c ≠ slash then false
    else if documentPath = rootDocumentPath then true
    else if documentPath.getLast? = some slash then false
    else (rest.splitOn slash).all fun segment =>
      segment ≠ [] && segment ≠ ascii "." && segment ≠ ascii ".."

/-- `requestDocumentPath`. -/
def requestDocumentPath (request : RequestEnvelope) : Except Failure Bytes :=
  let documentPath := (request.target.bind (·.documentPath)).getD rootDocumentPath
  if isCanonicalDocumentPath documentPath then .ok documentPath
  else .error (.error .invalidDocumentPath)

/-- `validateRootDocumentOnlyTarget`. -/
def validateRootDocumentOnlyTarget (documentPath : Bytes) : Except Failure Unit :=
  if !isCanonicalDocumentPath documentPath then .error (.error .invalidDocumentPath)
  else if documentPath ≠ rootDocumentPath then .error (.error .rootDocumentOnlyTarget)
  else .ok ()

/-! ## Request classes -/

/-- `requestIsAppendLike`. -/
def requestIsAppendLike (method : Method) : Bool := method = .nodeAppend || method = .debugNodeAppend

/-- `requestIsRemoveLike`. -/
def requestIsRemoveLike (method : Method) : Bool := method = .nodeRemove || method = .debugNodeRemove

/-- `requestIsStructuralDomainWrite`. -/
def requestIsStructuralDomainWrite (request : RequestEnvelope) : Bool :=
  requestIsAppendLike request.method || requestIsRemoveLike request.method

/-- `requestIsContentOnlyNodeUpdate`. -/
def requestIsContentOnlyNodeUpdate (request : RequestEnvelope) : Bool :=
  request.method = .nodeUpdate && (getString request.params (ascii "content")).isSome &&
    (getString request.params (ascii "title")).isNone

/-- `requestSupportsDynamicDomainLane`. -/
def requestSupportsDynamicDomainLane (request : RequestEnvelope) : Bool :=
  if request.method = .debugSleep ∨ request.method = .debugTextAppend ∨
      request.method = .debugTtyPush then true
  else requestIsContentOnlyNodeUpdate request || requestIsStructuralDomainWrite request

/-- `requestUsesQuiescentReadGuard`. -/
def requestUsesQuiescentReadGuard (method : Method) : Bool :=
  method = .documentGet || method = .graphGet || method = .viewGet || method = .projectionGet ||
    method = .documentStatus || method = .documentSerialize || method = .debugDocumentValidate ||
    method = .nodeGet || method = .leafSourceGet || method = .fileCapture

end Muxly.Daemon
