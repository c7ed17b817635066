/-
# Muxly.Daemon.DocumentJson -- the JSON that describes a document

`document.get` and `document.status` as the values that a JSON parser reads from what the daemon
writes: a number that does not fit into an `i64` stays text, and bytes that are not UTF-8 are
written as a list of numbers.
-/
import Mathlib.Init
import Muxly.Daemon.Protocol

namespace Muxly.Daemon

open Muxly.Core

/-! ## Scalars -/

/-- A number printed with `{d}`. -/
def jsonNumber (n : Nat) : JsonValue :=
  if n < i64Limit then .integer (Int64.ofNat n) else .numberString

theorem jsonNumber_of_lt {n : Nat} (h : n < i64Limit) : jsonNumber n = .integer (Int64.ofNat n) :=
  if_pos h

/-- Where the check of a UTF-8 text stands: the octets still owed, and the bounds of the next. -/
structure Utf8State where
  owed : Nat
  low : UInt8
  high : UInt8
  deriving DecidableEq

/-- Between two characters. -/
def Utf8State.start : Utf8State := ⟨0, 0x80, 0xBF⟩

/-- The state after the first octet of a character. -/
def Utf8State.first (c : UInt8) : Option Utf8State :=
  if c < 0x80 then some .start
  else if 0xC2 ≤ c ∧ c ≤ 0xDF then some ⟨1, 0x80, 0xBF⟩
  else if c = 0xE0 then some ⟨2, 0xA0, 0xBF⟩
  else if c = 0xED then some ⟨2, 0x80, 0x9F⟩
  else if 0xE1 ≤ c ∧ c ≤ 0xEF then some ⟨2, 0x80, 0xBF⟩
  else if c = 0xF0 then some ⟨3, 0x90, 0xBF⟩
  else if 0xF1 ≤ c ∧ c ≤ 0xF3 then some ⟨3, 0x80, 0xBF⟩
  else if c = 0xF4 then some ⟨3, 0x80, 0x8F⟩
  else none

/-- The state after one more octet. -/
def Utf8State.next (s : Utf8State) (c : UInt8) : Option Utf8State :=
  if s.owed = 0 then Utf8State.first c
  else if s.low ≤ c ∧ c ≤ s.high then some ⟨s.owed - 1, 0x80, 0xBF⟩
  else none

/-- `std.unicode.utf8ValidateSlice`. -/
def utf8ValidateSlice (text : Bytes) : Bool :=
  (text.foldlM Utf8State.next .start).any fun s => s.owed = 0

/-- After whole characters the check is where it started. -/
theorem utf8ValidateSlice_iff {text : Bytes} :
    utf8ValidateSlice text = true ↔ text.foldlM Utf8State.next .start = some .start := by
  suffices hwhole : ∀ (text : Bytes) (s s' : Utf8State), (s.owed = 0 → s = .start) →
      text.foldlM Utf8State.next s = some s' → s'.owed = 0 → s' = .start by
    rw [utf8ValidateSlice, Option.any_eq_true]
    constructor
    · rintro ⟨s, hs, howed⟩
      rw [hs, hwhole text _ s (fun _ => rfl) hs (of_decide_eq_true howed)]
    · exact fun h => ⟨_, h, rfl⟩
  have hfirst : ∀ (c : UInt8) (s : Utf8State), Utf8State.first c = some s → s.owed = 0 →
      s = .start := by
    intro c s h howed
    unfold Utf8State.first at h
    repeat' split at h
    all_goals cases h
    · rfl
    all_goals simp at howed
  intro text
  induction text with
  | nil =>
      intro s s' hs h howed
      cases h
      exact hs howed
  | cons c rest ih =>
      intro s s' hs h howed
      rw [List.foldlM_cons, Option.bind_eq_bind, Option.bind_eq_some_iff] at h
      obtain ⟨t, ht, h⟩ := h
      refine ih t s' (fun ht0 => ?_) h howed
      unfold Utf8State.next at ht
      split at ht
      · exact hfirst c t ht ht0
      · split at ht
        · cases ht
          have : s.owed - 1 = 0 := ht0
          rw [this]
          rfl
        · cases ht

/-- A text that starts with whole characters is checked from there on. -/
theorem utf8ValidateSlice_append {text rest : Bytes} (h : utf8ValidateSlice text = true) :
    utf8ValidateSlice (text ++ rest) = utf8ValidateSlice rest := by
  rw [utf8ValidateSlice, List.foldlM_append, utf8ValidateSlice_iff.mp h]
  rfl

/-- `std.json.fmt` of a byte slice. -/
def jsonString (text : Bytes) : JsonValue :=
  if utf8ValidateSlice text then .string text
  else .array (text.map fun c => jsonNumber c.toNat)

/-- Text without a byte above 127 is UTF-8. -/
theorem utf8ValidateSlice_of_ascii {text : Bytes} (h : ∀ c ∈ text, c < 0x80) :
    utf8ValidateSlice text = true := by
  rw [utf8ValidateSlice_iff]
  induction text with
  | nil => rfl
  | cons c rest ih =>
      have hc : Utf8State.start.next c = some .start := by
        show Utf8State.first c = some .start
        rw [Utf8State.first, if_pos (h c (List.mem_cons_self ..))]
      rw [List.foldlM_cons, hc]
      exact ih fun b hb => h b (List.mem_cons_of_mem _ hb)

/-- It is written as it is. -/
theorem jsonString_of_ascii {text : Bytes} (h : ∀ c ∈ text, c < 0x80) :
    jsonString text = .string text := by
  rw [jsonString, utf8ValidateSlice_of_ascii h]
  rfl

/-! ## Nodes -/

/-- `@tagName` of a lifecycle state. -/
def lifecycleTag : LifecycleState → Bytes
  | .live => ascii "live"
  | .readOnly => ascii "read_only"
  | .frozen => ascii "frozen"
  | .detached => ascii "detached"

/-- A field that is left out when it has no value. -/
def optionalField (fieldName : String) (value : Option JsonValue) : List (Bytes × JsonValue) :=
  match value with
  | some value => [(ascii fieldName, value)]
  | none => []

/-- `writeArtifactSectionsJson`. -/
def artifactSectionsJson (sections : TerminalArtifactSections) : List JsonValue :=
  (if sections.surface then [.string (ascii "surface")] else []) ++
    (if sections.alternate then [.string (ascii "alternate")] else [])

/-- `writeSourceJson`. -/
def writeSourceJson : Source → JsonValue
  | .none => .object [(ascii "kind", .string (ascii "none"))]
  | .tty tty => .object <|
    [(ascii "kind", .string (ascii "tty")), (ascii "sessionName", jsonString tty.sessionName)] ++
      optionalField "windowId" (tty.windowId.map jsonString) ++
      optionalField "paneId" (tty.paneId.map jsonString)
  | .file file => .object
    [(ascii "kind", .string (ascii "file")),
      (ascii "path", jsonString file.path),
      (ascii "mode", .string <|
        match file.mode with
        | .monitored => ascii "monitored"
        | .static => ascii "static")]
  | .terminalArtifact artifact => .object <|
    [(ascii "kind", .string (ascii "terminal_artifact")),
      (ascii "artifactKind", .string <|
        match artifact.artifactKind with
        | .text => ascii "text"
        | .surface => ascii "surface"),
      (ascii "contentFormat", .string <|
        match artifact.contentFormat with
        | .plainText => ascii "plain_text"
        | .sectionedText => ascii "sectioned_text"),
      (ascii "sections", .array (artifactSectionsJson artifact.sections)),
      (ascii "origin", .string (ascii "tty"))] ++
      optionalField "sessionName" (artifact.sessionName.map jsonString) ++
      optionalField "windowId" (artifact.windowId.map jsonString) ++
      optionalField "paneId" (artifact.paneId.map jsonString)

/-- `writeJson` of a node. -/
def writeNodeJson (node : Node) : JsonValue := .object <|
  [(ascii "id", jsonNumber node.id),
    (ascii "kind", .string node.kind.tagName),
    (ascii "title", jsonString node.title)] ++
    optionalField "name" (node.name.map jsonString) ++
    [(ascii "content", jsonString node.content),
      (ascii "followTail", .bool node.followTail),
      (ascii "lifecycle", .string (lifecycleTag node.lifecycle)),
      (ascii "source", writeSourceJson node.source),
      (ascii "children", .array (node.children.map jsonNumber))] ++
    optionalField "parentId" (node.parentId.map jsonNumber)

/-! ## Documents -/

/-- `null`, or the number of a node. -/
def viewRootJson (viewRootNodeId : Option Nat) : JsonValue :=
  match viewRootNodeId with
  | some nodeId => jsonNumber nodeId
  | none => .null

/-- `writeJson` of a document, the result of `document.get`. -/
def writeDocumentJson (d : Document) : Except Failure JsonValue := do
  let nodes ← d.walkPreorder (fun nodes node => .ok (nodes ++ [writeNodeJson node])) []
  return .object
    [(ascii "id", jsonNumber d.id),
      (ascii "title", jsonString d.title),
      (ascii "lifecycle", .string (lifecycleTag d.lifecycle)),
      (ascii "rootNodeId", jsonNumber d.rootNodeId),
      (ascii "viewRootNodeId", viewRootJson d.viewRootNodeId),
      (ascii "elidedNodeIds", .array (d.elidedNodeIds.map jsonNumber)),
      (ascii "nodes", .array nodes)]

/-- `writeDocumentStatus`, the result of `document.status`. -/
def writeDocumentStatus (documentPath : Bytes) (d : Document) : JsonValue := .object
  [(ascii "path", jsonString documentPath),
    (ascii "id", jsonNumber d.id),
    (ascii "title", jsonString d.title),
    (ascii "lifecycle", .string (lifecycleTag d.lifecycle)),
    (ascii "retentionPolicy", .string (ascii "daemon-lifetime")),
    (ascii "rootNodeId", jsonNumber d.rootNodeId),
    (ascii "viewRootNodeId", viewRootJson d.viewRootNodeId),
    (ascii "nodeCount", jsonNumber d.liveNodeCount),
    (ascii "elidedCount", jsonNumber d.elidedNodeIds.length)]

/-- `buildResult`: a response with the id of its request. -/
def buildResult (requestId result : JsonValue) : JsonValue := .object
  [(ascii "jsonrpc", .string (ascii "2.0")), (ascii "id", requestId), (ascii "result", result)]

end Muxly.Daemon
