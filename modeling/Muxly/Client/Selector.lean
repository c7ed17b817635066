/-
# Muxly.Client.Selector -- how a client resolves a selector

The functions of `trd.zig` that walk a selector over the JSON of a document, as it was parsed.
-/
import Mathlib.Init
import Muxly.Control.Action
import Muxly.Daemon.DocumentJson

namespace Muxly.Client

open Muxly.Control Muxly.Core Muxly.Daemon

/-! ## The functions of the client -/

/-- A number printed with `{d}`. -/
def decimalInt (i : Int) : Bytes := if i < 0 then dash :: decimal i.natAbs else decimal i.natAbs

/-- `findNodeObject`. -/
def findNodeObject (nodes : List JsonValue) (nodeId : Nat) : Except Failure (Option JsonValue) :=
  nodes.findM? fun node => do
    match node.get (ascii "id") with
    | some (.integer idValue) => return (← intCast u64Limit idValue.toInt) == nodeId
    | _ => return false

/-- `nodeMatchesSegment`. -/
def nodeMatchesSegment (node : JsonValue) (segment : Bytes) : Bool :=
  (match node.get (ascii "name") with
    | some (.string nameValue) => nameValue == segment
    | _ => false) ||
    match node.get (ascii "id") with
    | some (.integer idValue) =>
      decimalInt idValue.toInt == segment || nodePrefix ++ decimalInt idValue.toInt == segment
    | _ => false

/-- One child in the loop of `resolveChildBySegment`: its id, if it matches. -/
def matchedChild (nodes : List JsonValue) (segment : Bytes) (child : JsonValue) :
    Except Failure (Option Nat) :=
  match child with
  | .integer childIdValue => do
    let childId ← intCast u64Limit childIdValue.toInt
    let some childNode ← findNodeObject nodes childId | return none
    return if nodeMatchesSegment childNode segment then some childId else none
  | _ => .ok none

/-- The loop of `resolveChildBySegment`. -/
def matchedChildren (nodes : List JsonValue) (segment : Bytes) :
    List JsonValue → Except Failure (List Nat)
  | [] => .ok []
  | child :: rest => do
    let matched ← matchedChild nodes segment child
    let more ← matchedChildren nodes segment rest
    return matched.toList ++ more

/-- `resolveChildBySegment`. -/
def resolveChildBySegment (nodes : List JsonValue) (parentId : Nat) (segment : Bytes) :
    Except Failure Nat := do
  let some parent ← findNodeObject nodes parentId | throw (.error .invalidResourceSelector)
  let some (.array children) := parent.get (ascii "children")
    | throw (.error .invalidResourceSelector)
  match ← matchedChildren nodes segment children with
  | [] => throw (.error .unknownResourceSelectorSegment)
  | [matchedId] => return matchedId
  | _ => throw (.error .ambiguousResourceSelector)

/-- `parseDirectNodeReference` of `trd.zig`, the same text as in `document.zig`. -/
def parseDirectNodeReference (segment : Bytes) : Option Nat :=
  Document.parseDirectNodeReference segment

/-- One segment in the loop of `resolveSelectorToNodeId`. -/
def resolveSegment (nodes : List JsonValue) (currentId : Nat) (segment : Bytes) :
    Except Failure Nat := do
  if segment = [] ∨ segment = ascii "." then return currentId
  if segment = ascii ".." then
    let some currentNode ← findNodeObject nodes currentId
      | throw (.error .invalidResourceSelector)
    let some parentValue := currentNode.get (ascii "parentId")
      | throw (.error .resourceSelectorEscapesRoot)
    let .integer parentId := parentValue | throw (.error .invalidResourceSelector)
    return ← intCast u64Limit parentId.toInt
  match parseDirectNodeReference segment with
  | some directId => return directId
  | none => resolveChildBySegment nodes currentId segment

/-- The `result` of a response. The client takes the response for an object. -/
def resultOf (response : JsonValue) : Except Failure JsonValue := do
  let .object _ := response | throw (.panic .reachedUnreachable)
  match response.get (ascii "result") with
  | some (.object fields) => return .object fields
  | _ => throw (.error .invalidResourceSelector)

/-- The `rootNodeId` of a result. -/
def rootNodeIdOf (result : JsonValue) : Except Failure Nat :=
  match result.get (ascii "rootNodeId") with
  | some (.integer rootNodeId) => intCast u64Limit rootNodeId.toInt
  | _ => .error (.error .invalidResourceSelector)

/-- `fetchRootNodeId`, with the response of `document.status`. -/
def fetchRootNodeId (statusResponse : JsonValue) : Except Failure Nat := do
  rootNodeIdOf (← resultOf statusResponse)

/-- `resolveSelectorToNodeId`, with the responses of `document.status` and `document.get`. -/
def resolveSelectorToNodeId (statusResponse getResponse : JsonValue) (selector : Option Bytes) :
    Except Failure Nat := do
  let some text := selector | fetchRootNodeId statusResponse
  if text = [] ∨ text = [slash] then return ← fetchRootNodeId statusResponse
  let result ← resultOf getResponse
  let some (.array nodes) := result.get (ascii "nodes")
    | throw (.error .invalidResourceSelector)
  let rootNodeId ← rootNodeIdOf result
  (text.splitOn slash).foldlM (resolveSegment nodes) rootNodeId

end Muxly.Client
