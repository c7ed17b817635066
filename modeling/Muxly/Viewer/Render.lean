/-
# Muxly.Viewer.Render -- the frame that the viewer makes of a projection

The daemon prints a projection as JSON text, `std.json` reads the text as a value, and
`viewer/render.zig` makes a frame of the value. All three steps are here, down to the bytes.
-/
import Muxly.Client.Framing

namespace Muxly.Viewer

open Muxly.Core Muxly.Daemon Muxly.Client Muxly.Data

/-! ## What the daemon prints -/

/-- A list, as it is printed. -/
def listText (texts : List Bytes) : Bytes :=
  Json.openBracket :: List.intercalate [Json.comma] texts ++ [Json.closeBracket]

/-- A number, or `null`. -/
def optionalText (value : Option Nat) : Bytes :=
  match value with
  | some value => decimal value
  | none => ascii "null"

/-- The region that `writeProjectedNode` prints. -/
def regionText (r : Region) : Bytes :=
  Json.objectText (ascii "nodeId", decimal r.nodeId)
    [(ascii "kind", Json.stringText r.kind.tagName),
      (ascii "title", jsonText r.title),
      (ascii "x", decimal r.rect.x),
      (ascii "y", decimal r.rect.y),
      (ascii "width", decimal r.rect.width),
      (ascii "height", decimal r.rect.height),
      (ascii "focused", boolText r.focused),
      (ascii "followTail", boolText r.followTail),
      (ascii "scrollable", boolText r.scrollable),
      (ascii "scrollTop", decimal r.scrollTop),
      (ascii "scrollMax", decimal r.scrollMax),
      (ascii "elided", boolText r.elided),
      (ascii "lines", listText (r.lines.map jsonText))]

/-- What `writeProjectionJsonForRoot` prints. -/
def projectionText (p : Projection) : Bytes :=
  Json.objectText (ascii "title", jsonText p.title)
    [(ascii "rows", decimal p.rows),
      (ascii "cols", decimal p.cols),
      (ascii "rootNodeId", decimal p.rootNodeId),
      (ascii "viewRootNodeId", optionalText p.viewRootNodeId),
      (ascii "focusedNodeId", optionalText p.focusedNodeId),
      (ascii "regions", listText (p.regions.map regionText))]

/-! ## Values -/

/-- `Value.parseFromNumberSlice`. No reader tells a float from a number that is too large for one. -/
def dynamicNumber (slice : Bytes) : JsonValue :=
  if isNumberFormattedLikeAnInteger slice then
    match parseSigned slice with
    | some value => .integer (Int64.ofInt value)
    | none => .numberString
  else .float

mutual

/-- A `std.json.Value` that was read. -/
def dynamicValue : Json → JsonValue
  | .null => .null
  | .bool value => .bool value
  | .number text => dynamicNumber text
  | .string text => .string text
  | .array items => .array (dynamicItems items)
  | .object ms => .object (dynamicMembers ms)

/-- The items of an array. -/
def dynamicItems : List Json → List JsonValue
  | [] => []
  | v :: rest => dynamicValue v :: dynamicItems rest

/-- The members of an object. -/
def dynamicMembers : List (Bytes × Json) → List (Bytes × JsonValue)
  | [] => []
  | (name, v) :: rest => (name, dynamicValue v) :: dynamicMembers rest

end

/-! ## Frames -/

/-- `ProjectionRegion`. -/
structure ProjectionRegion where
  nodeId : Nat
  kind : Bytes
  title : Bytes
  x : Nat
  y : Nat
  width : Nat
  height : Nat
  focused : Bool
  followTail : Bool
  scrollable : Bool
  scrollTop : Nat
  scrollMax : Nat
  elided : Bool
  lines : List Bytes
  deriving DecidableEq

/-- `ProjectionFrame`. -/
structure ProjectionFrame where
  rows : Nat
  cols : Nat
  viewRootNodeId : Option Nat
  regions : List ProjectionRegion
  deriving DecidableEq

/-! ## The parser

`none` is `error.InvalidProjection`. -/

/-- `dupStringField`. -/
def dupStringField (value : JsonValue) (fieldName : Bytes) : Option Bytes :=
  match value.get fieldName with
  | some (.string text) => some text
  | _ => none

/-- `optionalU64`. -/
def optionalU64 (value : JsonValue) (fieldName : Bytes) : Option (Option Nat) :=
  match value.get fieldName with
  | none => some none
  | some .null => some none
  | some (.integer integer) => if 0 ≤ integer.toInt then some (some integer.toInt.toNat) else none
  | some _ => none

/-- `requireU64`, and `requireUsize`, which has the same body. -/
def requireU64 (value : JsonValue) (fieldName : Bytes) : Option Nat :=
  match value.get fieldName with
  | some (.integer integer) => if 0 ≤ integer.toInt then some integer.toInt.toNat else none
  | _ => none

/-- `requireUsize`. -/
abbrev requireUsize : JsonValue → Bytes → Option Nat := requireU64

/-- `requireU16`. -/
def requireU16 (value : JsonValue) (fieldName : Bytes) : Option Nat :=
  (requireUsize value fieldName).filter (· < u16Limit)

/-- `requireBool`. -/
def requireBool (value : JsonValue) (fieldName : Bytes) : Option Bool :=
  match value.get fieldName with
  | some (.bool value) => some value
  | _ => none

/-- One line of `dupLines`. -/
def dupLine : JsonValue → Option Bytes
  | .string text => some text
  | _ => none

/-- `dupLines`. -/
def dupLines (value : JsonValue) : Option (List Bytes) :=
  match value.get (ascii "lines") with
  | some (.array items) => items.mapM dupLine
  | _ => none

/-- `parseRegion`. -/
def parseRegion (value : JsonValue) : Option ProjectionRegion := do
  let .object _ := value | none
  let nodeId ← requireU64 value (ascii "nodeId")
  let kind ← dupStringField value (ascii "kind")
  let title ← dupStringField value (ascii "title")
  let lines ← dupLines value
  let x ← requireU16 value (ascii "x")
  let y ← requireU16 value (ascii "y")
  let width ← requireU16 value (ascii "width")
  let height ← requireU16 value (ascii "height")
  let focused ← requireBool value (ascii "focused")
  let followTail ← requireBool value (ascii "followTail")
  let scrollable ← requireBool value (ascii "scrollable")
  let scrollTop ← requireUsize value (ascii "scrollTop")
  let scrollMax ← requireUsize value (ascii "scrollMax")
  let elided ← requireBool value (ascii "elided")
  return { nodeId, kind, title, x, y, width, height, focused, followTail, scrollable, scrollTop,
           scrollMax, elided, lines }

/-- `parseProjectionValue`. -/
def parseProjectionValue (value : JsonValue) : Option ProjectionFrame := do
  let .object _ := value | none
  let rows ← requireUsize value (ascii "rows")
  let cols ← requireUsize value (ascii "cols")
  let viewRootNodeId ← optionalU64 value (ascii "viewRootNodeId")
  let some (.array items) := value.get (ascii "regions") | none
  let regions ← items.mapM parseRegion
  return { rows, cols, viewRootNodeId, regions }

/-- The frame of the text of a projection. -/
def readProjection (text : Bytes) : Option ProjectionFrame :=
  (parseValue text).bind fun v => parseProjectionValue (dynamicValue v)

/-! ## The text is read as a value -/

/-- A number, or `null`, as a value. -/
def optionalJson (value : Option Nat) : Json :=
  match value with
  | some value => .number (decimal value)
  | none => .null

/-- What `regionText` is read as. -/
def regionJson (r : Region) : Json := .object
  [(ascii "nodeId", .number (decimal r.nodeId)),
    (ascii "kind", .string r.kind.tagName),
    (ascii "title", stringJson r.title),
    (ascii "x", .number (decimal r.rect.x)),
    (ascii "y", .number (decimal r.rect.y)),
    (ascii "width", .number (decimal r.rect.width)),
    (ascii "height", .number (decimal r.rect.height)),
    (ascii "focused", .bool r.focused),
    (ascii "followTail", .bool r.followTail),
    (ascii "scrollable", .bool r.scrollable),
    (ascii "scrollTop", .number (decimal r.scrollTop)),
    (ascii "scrollMax", .number (decimal r.scrollMax)),
    (ascii "elided", .bool r.elided),
    (ascii "lines", .array (r.lines.map stringJson))]

/-- What `projectionText` is read as. -/
def projectionJson (p : Projection) : Json := .object
  [(ascii "title", stringJson p.title),
    (ascii "rows", .number (decimal p.rows)),
    (ascii "cols", .number (decimal p.cols)),
    (ascii "rootNodeId", .number (decimal p.rootNodeId)),
    (ascii "viewRootNodeId", optionalJson p.viewRootNodeId),
    (ascii "focusedNodeId", optionalJson p.focusedNodeId),
    (ascii "regions", .array (p.regions.map regionJson))]

theorem reads_listText {texts : List Bytes} {vs : List Json}
    (h : List.Forall₂ ReadsAs texts vs) : ReadsAs (listText texts) (.array vs) := by
  cases h with
  | nil => exact Json.reads_of_parse rfl
  | cons hfirst hrest =>
      rw [listText, List.cons_append, intercalate_eq]
      exact Json.reads_arrayText hfirst hrest

theorem reads_optionalText (value : Option Nat) :
    ReadsAs (optionalText value) (optionalJson value) := by
  cases value with
  | none => exact Json.reads_null
  | some n => exact reads_decimal n

theorem reads_boolText (b : Bool) : ReadsAs (boolText b) (.bool b) := by
  cases b with
  | true => exact Json.reads_true
  | false => exact Json.reads_false

/-- One member of an object that is printed. -/
theorem readsMember {name : String} (hname : utf8ValidateSlice (ascii name) = true) {text : Bytes}
    {v : Json} (h : ReadsAs text v) {ms : List (Bytes × Bytes)} {vs : List (Bytes × Json)}
    (hms : Json.ReadsMembers utf8ValidateSlice ms vs) :
    Json.ReadsMembers utf8ValidateSlice ((ascii name, text) :: ms) ((ascii name, v) :: vs) :=
  .cons ⟨rfl, hname, h⟩ hms

theorem reads_tagName (kind : NodeKind) :
    ReadsAs (Json.stringText kind.tagName) (.string kind.tagName) :=
  Json.reads_stringText (by cases kind <;> decide)

theorem reads_regionText (r : Region) : ReadsAs (regionText r) (regionJson r) := by
  have hlines : ReadsAs (listText (r.lines.map jsonText)) (.array (r.lines.map stringJson)) := by
    apply reads_listText
    rw [List.forall₂_map_left_iff, List.forall₂_map_right_iff, List.forall₂_same]
    exact fun line _ => reads_jsonText line
  apply Json.reads_objectText
  refine readsMember (by decide) (reads_decimal _) ?_
  refine readsMember (by decide) (reads_tagName _) ?_
  refine readsMember (by decide) (reads_jsonText _) ?_
  refine readsMember (by decide) (reads_decimal _) ?_
  refine readsMember (by decide) (reads_decimal _) ?_
  refine readsMember (by decide) (reads_decimal _) ?_
  refine readsMember (by decide) (reads_decimal _) ?_
  refine readsMember (by decide) (reads_boolText _) ?_
  refine readsMember (by decide) (reads_boolText _) ?_
  refine readsMember (by decide) (reads_boolText _) ?_
  refine readsMember (by decide) (reads_decimal _) ?_
  refine readsMember (by decide) (reads_decimal _) ?_
  refine readsMember (by decide) (reads_boolText _) ?_
  exact readsMember (by decide) hlines .nil

theorem reads_projectionText (p : Projection) :
    ReadsAs (projectionText p) (projectionJson p) := by
  have hregions : ReadsAs (listText (p.regions.map regionText))
      (.array (p.regions.map regionJson)) := by
    apply reads_listText
    rw [List.forall₂_map_left_iff, List.forall₂_map_right_iff, List.forall₂_same]
    exact fun r _ => reads_regionText r
  apply Json.reads_objectText
  refine readsMember (by decide) (reads_jsonText _) ?_
  refine readsMember (by decide) (reads_decimal _) ?_
  refine readsMember (by decide) (reads_decimal _) ?_
  refine readsMember (by decide) (reads_decimal _) ?_
  refine readsMember (by decide) (reads_optionalText _) ?_
  refine readsMember (by decide) (reads_optionalText _) ?_
  exact readsMember (by decide) hregions .nil

end Muxly.Viewer
