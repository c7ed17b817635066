/-
# Muxly.Viewer.Acceptance -- which projections the viewer accepts

A projection that the daemon prints is accepted exactly when all its texts are UTF-8 and all its
numbers are in range. For a document with titles in UTF-8 this means that no line is cut inside a
character: the layout clips lines at a number of bytes.
-/
import Muxly.Core.Layout
import Muxly.Daemon.Artifacts
import Muxly.Viewer.Render

namespace Muxly.Viewer

open Muxly.Core Muxly.Daemon Muxly.Client Muxly.Data
open Muxly.Core.Document (Valid)

/-! ## Numbers -/

/-- Digits that denote too large a number are refused. -/
theorem parseDigits_overflow {cs : List Char} (hcs : ∀ c ∈ cs, c.isDigit) {acc : Nat}
    (hacc : acc < u64Limit) (hlarge : u64Limit ≤ Nat.ofDigitChars 10 cs acc) :
    parseDigits false (cs.map fun c => UInt8.ofNat c.toNat) acc = none := by
  induction cs generalizing acc with
  | nil =>
      rw [Nat.ofDigitChars_nil] at hlarge
      omega
  | cons c rest ih =>
      obtain ⟨hdigit, hnat, hunder⟩ := digitByte (hcs c (List.mem_cons_self ..))
      have hnext : acc * 10 + ((UInt8.ofNat c.toNat).toNat - 48)
          = 10 * acc + (c.toNat - '0'.toNat) := by
        rw [hnat, show '0'.toNat = 48 from rfl]
        omega
      rw [Nat.ofDigitChars_cons] at hlarge
      rw [List.map_cons, parseDigits, if_neg hunder, hdigit, if_pos rfl, hnext]
      by_cases hfits : 10 * acc + (c.toNat - '0'.toNat) < u64Limit
      · rw [if_pos ⟨hfits, by simp⟩]
        exact ih (fun b hb => hcs b (List.mem_cons_of_mem _ hb)) hfits hlarge
      · exact if_neg fun h => hfits h.1

/-- A number that is printed, as an `i64`. -/
theorem parseSigned_decimal (n : Nat) :
    parseSigned (decimal n) = if n < i64Limit then some (n : Int) else none := by
  obtain ⟨c, rest, heq, hdigit⟩ := decimal_cons n
  have hminus : c ≠ dash := by rintro rfl; exact absurd hdigit (by decide)
  have hsigned : parseSigned (decimal n)
      = ((parseUnsigned (decimal n)).filter (· < i64Limit)).map Int.ofNat := by
    rw [heq, parseSigned, if_neg hminus]
  rw [hsigned]
  by_cases hfits : n < u64Limit
  · rw [parseUnsigned_decimal hfits, Option.filter_some]
    by_cases hsmall : n < i64Limit
    · rw [if_pos hsmall, if_pos (decide_eq_true hsmall)]
      rfl
    · rw [if_neg hsmall, if_neg (by simp [hsmall])]
      rfl
  · have hlarge : u64Limit ≤ n := Nat.le_of_not_lt hfits
    have hsmall : ¬ n < i64Limit := by
      unfold u64Limit at hlarge
      unfold i64Limit
      omega
    have hplus : c ≠ 43 := by rintro rfl; exact absurd hdigit (by decide)
    have hnone : parseUnsignedBody false (decimal n) = none := by
      unfold parseUnsignedBody
      split
      · rfl
      · exact parseDigits_overflow (decimal_digits n) (by decide)
          (by rw [Nat.ofDigitChars_ten_toDigits]; exact hlarge)
    have hparse : parseUnsigned (decimal n) = none := by
      rw [heq] at hnone ⊢
      rw [parseUnsigned, if_neg hplus]
      exact (if_neg hminus).trans hnone
    rw [hparse, if_neg hsmall]
    rfl

/-- A number that is printed, as a value. -/
theorem dynamicNumber_decimal (n : Nat) : dynamicNumber (decimal n) = jsonNumber n := by
  rw [dynamicNumber, if_pos (isNumberFormattedLikeAnInteger_decimal n),
    parseSigned_decimal, jsonNumber]
  by_cases hfits : n < i64Limit
  · rw [if_pos hfits, if_pos hfits]
    rfl
  · rw [if_neg hfits, if_neg hfits]

/-! ## Values -/

theorem dynamicItems_eq (items : List Json) : dynamicItems items = items.map dynamicValue := by
  induction items with
  | nil => rfl
  | cons v rest ih => rw [dynamicItems, ih, List.map_cons]

theorem dynamicValue_stringJson (text : Bytes) : dynamicValue (stringJson text) = jsonString text := by
  unfold stringJson jsonString
  split
  · rfl
  · rw [dynamicValue, dynamicItems_eq, List.map_map]
    congr 1
    exact List.map_congr_left fun c _ => dynamicNumber_decimal c.toNat

theorem distinctItems_of {items : List Json} (h : ∀ v ∈ items, v.distinct = true) :
    Json.distinctItems items = true := by
  induction items with
  | nil => rfl
  | cons v rest ih =>
      rw [Json.distinctItems, h v (List.mem_cons_self ..),
        ih fun w hw => h w (List.mem_cons_of_mem _ hw)]
      rfl

theorem distinct_stringJson (text : Bytes) : (stringJson text).distinct = true := by
  unfold stringJson
  split
  · rfl
  · rw [Json.distinct]
    refine distinctItems_of fun v hv => ?_
    obtain ⟨c, -, rfl⟩ := List.mem_map.mp hv
    rfl

theorem distinct_strings (texts : List Bytes) :
    Json.distinctItems (texts.map stringJson) = true := by
  refine distinctItems_of fun v hv => ?_
  obtain ⟨text, -, rfl⟩ := List.mem_map.mp hv
  exact distinct_stringJson text

theorem distinct_regionJson (r : Region) : (regionJson r).distinct = true := by
  have hnames : [ascii "nodeId", ascii "kind", ascii "title", ascii "x", ascii "y", ascii "width",
      ascii "height", ascii "focused", ascii "followTail", ascii "scrollable", ascii "scrollTop",
      ascii "scrollMax", ascii "elided", ascii "lines"].Nodup := by decide
  rw [regionJson, Json.distinct, Bool.and_eq_true]
  refine ⟨decide_eq_true hnames, ?_⟩
  simp only [Json.distinctMembers, Json.distinct, distinct_stringJson, distinct_strings,
    Bool.and_true]

theorem distinct_projectionJson (p : Projection) : (projectionJson p).distinct = true := by
  have hregions : Json.distinctItems (p.regions.map regionJson) = true := by
    refine distinctItems_of fun v hv => ?_
    obtain ⟨r, -, rfl⟩ := List.mem_map.mp hv
    exact distinct_regionJson r
  have hoptional : ∀ value, (optionalJson value).distinct = true := by
    intro value
    cases value <;> rfl
  have hnames : [ascii "title", ascii "rows", ascii "cols", ascii "rootNodeId",
      ascii "viewRootNodeId", ascii "focusedNodeId", ascii "regions"].Nodup := by decide
  rw [projectionJson, Json.distinct, Bool.and_eq_true]
  refine ⟨decide_eq_true hnames, ?_⟩
  simp only [Json.distinctMembers, Json.distinct, distinct_stringJson, hregions, hoptional,
    Bool.and_true]

/-- The text is read as the value that it was printed from. -/
theorem parseValue_projectionText (p : Projection) :
    parseValue (projectionText p) = some (projectionJson p) := by
  rw [parseValue, Json.parse_of_reads (reads_projectionText p), Option.bind_some, decodeValue,
    if_pos (distinct_projectionJson p)]

/-- The value of a region. -/
def regionValue (r : Region) : JsonValue := .object
  [(ascii "nodeId", jsonNumber r.nodeId),
    (ascii "kind", .string r.kind.tagName),
    (ascii "title", jsonString r.title),
    (ascii "x", jsonNumber r.rect.x),
    (ascii "y", jsonNumber r.rect.y),
    (ascii "width", jsonNumber r.rect.width),
    (ascii "height", jsonNumber r.rect.height),
    (ascii "focused", .bool r.focused),
    (ascii "followTail", .bool r.followTail),
    (ascii "scrollable", .bool r.scrollable),
    (ascii "scrollTop", jsonNumber r.scrollTop),
    (ascii "scrollMax", jsonNumber r.scrollMax),
    (ascii "elided", .bool r.elided),
    (ascii "lines", .array (r.lines.map jsonString))]

theorem dynamicValue_regionJson (r : Region) : dynamicValue (regionJson r) = regionValue r := by
  have hlines : dynamicItems (r.lines.map stringJson) = r.lines.map jsonString := by
    rw [dynamicItems_eq, List.map_map]
    exact List.map_congr_left fun line _ => dynamicValue_stringJson line
  simp only [regionJson, regionValue, dynamicValue, dynamicMembers, hlines, dynamicNumber_decimal,
    dynamicValue_stringJson]

/-! ## Fields -/

section Fields

variable {value : JsonValue} {fieldName : Bytes}

theorem requireU64_number {n : Nat} (h : value.get fieldName = some (jsonNumber n)) :
    requireU64 value fieldName = if n < i64Limit then some n else none := by
  unfold requireU64
  rw [h, jsonNumber]
  by_cases hfits : n < i64Limit
  · have hint : (Int64.ofNat n).toInt = n := Int64.toInt_ofNat_of_lt hfits
    rw [if_pos hfits, if_pos hfits]
    simp only [hint, Int.toNat_natCast]
    exact if_pos (Int.natCast_nonneg n)
  · rw [if_neg hfits, if_neg hfits]

theorem requireU16_number {n : Nat} (h : value.get fieldName = some (jsonNumber n)) :
    requireU16 value fieldName = if n < u16Limit then some n else none := by
  rw [requireU16, requireUsize, requireU64_number h]
  by_cases hfits : n < u16Limit
  · have hsmall : n < i64Limit := hfits.trans (by decide)
    rw [if_pos hfits, if_pos hsmall, Option.filter_some, if_pos (decide_eq_true hfits)]
  · rw [if_neg hfits]
    split
    · rw [Option.filter_some, if_neg (by simp [hfits])]
    · rfl

theorem requireBool_bool {b : Bool} (h : value.get fieldName = some (.bool b)) :
    requireBool value fieldName = some b := by
  rw [requireBool, h]

theorem dupStringField_string {text : Bytes} (h : value.get fieldName = some (jsonString text)) :
    dupStringField value fieldName = if utf8ValidateSlice text then some text else none := by
  unfold dupStringField
  rw [h, jsonString]
  by_cases hvalid : utf8ValidateSlice text = true
  · rw [if_pos hvalid, if_pos hvalid]
  · rw [if_neg hvalid, if_neg hvalid]

theorem dupLine_jsonString (line : Bytes) :
    dupLine (jsonString line) = if utf8ValidateSlice line then some line else none := by
  rw [jsonString]
  by_cases hvalid : utf8ValidateSlice line = true
  · rw [if_pos hvalid, if_pos hvalid]
    rfl
  · rw [if_neg hvalid, if_neg hvalid]
    rfl

end Fields

/-- Reading the items of a list, each of which is read alone. -/
theorem mapM_eq_some_iff {α β γ : Type} {read : β → Option γ} {write : α → β} {keep : α → γ}
    {good : α → Prop} (h : ∀ a c, read (write a) = some c ↔ good a ∧ keep a = c) {xs : List α}
    {ys : List γ} : (xs.map write).mapM read = some ys ↔ (∀ a ∈ xs, good a) ∧ xs.map keep = ys := by
  induction xs generalizing ys with
  | nil => simp [eq_comm]
  | cons a rest ih =>
      rw [List.map_cons, List.mapM_cons]
      simp only [Option.bind_eq_bind, Option.bind_eq_some_iff, h, ih, Option.pure_def,
        Option.some.injEq, List.forall_mem_cons, List.map_cons]
      constructor
      · rintro ⟨c, ⟨ha, rfl⟩, ys', ⟨hrest, rfl⟩, rfl⟩
        exact ⟨⟨ha, hrest⟩, rfl⟩
      · rintro ⟨⟨ha, hrest⟩, rfl⟩
        exact ⟨_, ⟨ha, rfl⟩, _, ⟨hrest, rfl⟩, rfl⟩

/-! ## Regions -/

/-- The region as the viewer keeps it. -/
def ProjectionRegion.of (r : Region) : ProjectionRegion where
  nodeId := r.nodeId
  kind := r.kind.tagName
  title := r.title
  x := r.rect.x
  y := r.rect.y
  width := r.rect.width
  height := r.rect.height
  focused := r.focused
  followTail := r.followTail
  scrollable := r.scrollable
  scrollTop := r.scrollTop
  scrollMax := r.scrollMax
  elided := r.elided
  lines := r.lines

/-- The texts of the region are UTF-8 and its numbers are in range. -/
structure Readable (r : Region) : Prop where
  nodeId : r.nodeId < i64Limit
  title : utf8ValidateSlice r.title = true
  lines : ∀ line ∈ r.lines, utf8ValidateSlice line = true
  rect : r.rect.Fits
  scrollTop : r.scrollTop < i64Limit
  scrollMax : r.scrollMax < i64Limit

theorem dupLines_regionValue (r : Region) :
    dupLines (regionValue r)
      = if ∀ line ∈ r.lines, utf8ValidateSlice line = true then some r.lines else none := by
  have hget : (regionValue r).get (ascii "lines") = some (.array (r.lines.map jsonString)) := rfl
  have hline : ∀ line c, dupLine (jsonString line) = some c
      ↔ utf8ValidateSlice line = true ∧ id line = c := by
    intro line c
    rw [dupLine_jsonString]
    simp
  have hlines : ∀ lines, (r.lines.map jsonString).mapM dupLine = some lines
      ↔ (∀ line ∈ r.lines, utf8ValidateSlice line = true) ∧ r.lines.map id = lines :=
    fun lines => mapM_eq_some_iff hline
  rw [dupLines, hget]
  show (r.lines.map jsonString).mapM dupLine = _
  split
  · rename_i hvalid
    exact (hlines r.lines).mpr ⟨hvalid, List.map_id _⟩
  · rename_i hinvalid
    exact Option.eq_none_iff_forall_ne_some.mpr fun lines h =>
      hinvalid ((hlines lines).mp h).1

/-- A check, and what follows it. -/
theorem ite_bind_eq_some {α β : Type} {c : Prop} [Decidable c] {a : α} {f : α → Option β} {b : β} :
    ((if c then some a else none) >>= f) = some b ↔ c ∧ f a = some b := by
  by_cases hc : c
  · simp [hc]
  · simp [hc]

theorem some_bind {α β : Type} (a : α) (f : α → Option β) : (some a >>= f) = f a := rfl

/-- A region that is printed is read back exactly when it is readable. -/
theorem parseRegion_eq_some {r : Region} {q : ProjectionRegion} :
    parseRegion (regionValue r) = some q ↔ Readable r ∧ ProjectionRegion.of r = q := by
  have hnumber : ∀ (name : String) (n : Nat),
      (regionValue r).get (ascii name) = some (jsonNumber n) →
      requireU64 (regionValue r) (ascii name) = if n < i64Limit then some n else none :=
    fun _ _ h => requireU64_number h
  have hshort : ∀ (name : String) (n : Nat),
      (regionValue r).get (ascii name) = some (jsonNumber n) →
      requireU16 (regionValue r) (ascii name) = if n < u16Limit then some n else none :=
    fun _ _ h => requireU16_number h
  have hnodeId := hnumber "nodeId" r.nodeId rfl
  have hkind : dupStringField (regionValue r) (ascii "kind") = some r.kind.tagName := rfl
  have htitle : dupStringField (regionValue r) (ascii "title")
      = if utf8ValidateSlice r.title then some r.title else none := dupStringField_string rfl
  have hlines := dupLines_regionValue r
  have hx := hshort "x" r.rect.x rfl
  have hy := hshort "y" r.rect.y rfl
  have hwidth := hshort "width" r.rect.width rfl
  have hheight := hshort "height" r.rect.height rfl
  have hfocused : requireBool (regionValue r) (ascii "focused") = some r.focused := rfl
  have hfollowTail : requireBool (regionValue r) (ascii "followTail") = some r.followTail := rfl
  have hscrollable : requireBool (regionValue r) (ascii "scrollable") = some r.scrollable := rfl
  have hscrollTop := hnumber "scrollTop" r.scrollTop rfl
  have hscrollMax := hnumber "scrollMax" r.scrollMax rfl
  have helided : requireBool (regionValue r) (ascii "elided") = some r.elided := rfl
  obtain ⟨fields, hobject⟩ : ∃ fields, regionValue r = .object fields := ⟨_, rfl⟩
  rw [hobject] at hnodeId hkind htitle hlines hx hy hwidth hheight
  rw [hobject] at hfocused hfollowTail hscrollable hscrollTop hscrollMax helided ⊢
  unfold parseRegion
  simp only [requireUsize]
  -- One field after another, in the order of the source.
  rw [hnodeId, ite_bind_eq_some, hkind, some_bind, htitle, ite_bind_eq_some, hlines,
    ite_bind_eq_some, hx, ite_bind_eq_some, hy, ite_bind_eq_some, hwidth, ite_bind_eq_some, hheight,
    ite_bind_eq_some, hfocused, some_bind, hfollowTail, some_bind, hscrollable, some_bind,
    hscrollTop, ite_bind_eq_some, hscrollMax, ite_bind_eq_some, helided, some_bind]
  constructor
  · rintro ⟨hn, ht, hl, hx, hy, hw, hh, hst, hsm, hq⟩
    exact ⟨⟨hn, ht, hl, ⟨hx, hy, hw, hh⟩, hst, hsm⟩, Option.some.inj hq⟩
  · rintro ⟨h, rfl⟩
    exact ⟨h.nodeId, h.title, h.lines, h.rect.x, h.rect.y, h.rect.width, h.rect.height,
      h.scrollTop, h.scrollMax, rfl⟩

/-! ## Projections -/

/-- The projection as the viewer keeps it. -/
def ProjectionFrame.of (p : Projection) : ProjectionFrame where
  rows := p.rows
  cols := p.cols
  viewRootNodeId := p.viewRootNodeId
  regions := p.regions.map ProjectionRegion.of

/-- The regions of the projection are readable, and so are its own numbers. -/
structure Accepted (p : Projection) : Prop where
  rows : p.rows < i64Limit
  cols : p.cols < i64Limit
  viewRootNodeId : ∀ x, p.viewRootNodeId = some x → x < i64Limit
  regions : ∀ r ∈ p.regions, Readable r

/-- The value of a number, or `null`. -/
theorem dynamicValue_optionalJson (value : Option Nat) :
    dynamicValue (optionalJson value) = viewRootJson value := by
  cases value with
  | none => rfl
  | some n => exact dynamicNumber_decimal n

theorem optionalU64_viewRoot {value : JsonValue} {fieldName : Bytes} {viewRootNodeId : Option Nat}
    (h : value.get fieldName = some (viewRootJson viewRootNodeId)) :
    optionalU64 value fieldName
      = if ∀ x, viewRootNodeId = some x → x < i64Limit then some viewRootNodeId else none := by
  unfold optionalU64
  rw [h]
  cases viewRootNodeId with
  | none =>
      rw [if_pos nofun]
      rfl
  | some n =>
      by_cases hfits : n < i64Limit
      · have hint : (Int64.ofNat n).toInt = n := Int64.toInt_ofNat_of_lt hfits
        rw [if_pos fun x hx => Option.some.inj hx ▸ hfits]
        simp only [viewRootJson, jsonNumber_of_lt hfits, hint, Int.toNat_natCast]
        exact if_pos (Int.natCast_nonneg n)
      · rw [if_neg fun hall => hfits (hall n rfl)]
        simp only [viewRootJson, jsonNumber, if_neg hfits]

/-- A projection that is printed is accepted exactly when it is in range, with the same contents. -/
theorem readProjection_eq_some {p : Projection} {frame : ProjectionFrame} :
    readProjection (projectionText p) = some frame ↔ Accepted p ∧ ProjectionFrame.of p = frame := by
  rw [readProjection, parseValue_projectionText, Option.bind_some]
  have hregionItems : dynamicItems (p.regions.map regionJson) = p.regions.map regionValue := by
    rw [dynamicItems_eq, List.map_map]
    exact List.map_congr_left fun r _ => dynamicValue_regionJson r
  obtain ⟨fields, hobject⟩ : ∃ fields, dynamicValue (projectionJson p) = .object fields := ⟨_, rfl⟩
  have hrows : requireU64 (dynamicValue (projectionJson p)) (ascii "rows")
      = if p.rows < i64Limit then some p.rows else none :=
    requireU64_number (congrArg some (dynamicNumber_decimal p.rows))
  have hcols : requireU64 (dynamicValue (projectionJson p)) (ascii "cols")
      = if p.cols < i64Limit then some p.cols else none :=
    requireU64_number (congrArg some (dynamicNumber_decimal p.cols))
  have hviewRoot : optionalU64 (dynamicValue (projectionJson p)) (ascii "viewRootNodeId")
      = if ∀ x, p.viewRootNodeId = some x → x < i64Limit then some p.viewRootNodeId else none :=
    optionalU64_viewRoot (congrArg some (dynamicValue_optionalJson p.viewRootNodeId))
  have hregions : (dynamicValue (projectionJson p)).get (ascii "regions")
      = some (.array (p.regions.map regionValue)) := congrArg (some ∘ JsonValue.array) hregionItems
  rw [hobject] at hrows hcols hviewRoot hregions ⊢
  unfold parseProjectionValue
  simp only [requireUsize]
  rw [hrows, ite_bind_eq_some, hcols, ite_bind_eq_some, hviewRoot, ite_bind_eq_some, hregions]
  simp only [Option.bind_eq_bind, Option.bind_eq_some_iff,
    mapM_eq_some_iff fun r q => @parseRegion_eq_some r q, Option.pure_def,
    Option.some.injEq]
  constructor
  · rintro ⟨hr, hc, hv, _, ⟨hall, rfl⟩, rfl⟩
    exact ⟨⟨hr, hc, hv, hall⟩, rfl⟩
  · rintro ⟨h, rfl⟩
    exact ⟨h.rows, h.cols, h.viewRootNodeId, _, ⟨h.regions, rfl⟩, rfl⟩

/-! ## Lines that are cut -/

/-- An octet inside a character. -/
def IsContinuation (c : UInt8) : Prop := 0x80 ≤ c ∧ c ≤ 0xBF

/-- Inside a character only such an octet may come next. -/
structure Utf8Bounds (s : Utf8State) : Prop where
  low : 0x80 ≤ s.low
  high : s.high ≤ 0xBF

theorem bounds_first {c : UInt8} {s : Utf8State} (h : Utf8State.first c = some s) :
    Utf8Bounds s ∧ ¬IsContinuation c := by
  unfold Utf8State.first at h
  repeat' split at h
  all_goals cases h
  all_goals
    refine ⟨⟨by decide, by decide⟩, fun hc => ?_⟩
    obtain ⟨hlow, hhigh⟩ := hc
    simp only [UInt8.lt_iff_toNat_lt, UInt8.le_iff_toNat_le, ← UInt8.toNat_inj] at *
    simp at *
    omega

theorem bounds_next {c : UInt8} {s t : Utf8State} (hs : Utf8Bounds s) (h : s.next c = some t) :
    Utf8Bounds t ∧ (s.owed = 0 ↔ ¬IsContinuation c) := by
  unfold Utf8State.next at h
  split at h
  · rename_i howed
    obtain ⟨ht, hc⟩ := bounds_first h
    exact ⟨ht, fun _ => hc, fun _ => howed⟩
  · rename_i howed
    split at h
    · rename_i hc
      cases h
      have hlow : (0x80 : UInt8) ≤ 0x80 := by decide
      have hhigh : (0xBF : UInt8) ≤ 0xBF := by decide
      have hcontinues : IsContinuation c :=
        ⟨UInt8.le_trans hs.low hc.1, UInt8.le_trans hc.2 hs.high⟩
      exact ⟨⟨hlow, hhigh⟩, fun h => absurd h howed, fun h => absurd hcontinues h⟩
    · cases h

theorem bounds_foldlM {text : Bytes} {s t : Utf8State} (hs : Utf8Bounds s)
    (h : text.foldlM Utf8State.next s = some t) : Utf8Bounds t := by
  induction text generalizing s with
  | nil =>
      cases h
      exact hs
  | cons c rest ih =>
      rw [List.foldlM_cons, Option.bind_eq_bind, Option.bind_eq_some_iff] at h
      obtain ⟨u, hu, h⟩ := h
      exact ih (bounds_next hs hu).1 h

/-- A text that is checked up to an octet is whole in front of it exactly when the octet starts a
character. -/
theorem utf8ValidateSlice_before {text rest : Bytes} {c : UInt8} {t : Utf8State}
    (h : (text ++ c :: rest).foldlM Utf8State.next .start = some t) :
    utf8ValidateSlice text = true ↔ ¬IsContinuation c := by
  rw [List.foldlM_append, Option.bind_eq_bind, Option.bind_eq_some_iff] at h
  obtain ⟨s, hs, h⟩ := h
  rw [List.foldlM_cons, Option.bind_eq_bind, Option.bind_eq_some_iff] at h
  obtain ⟨u, hu, -⟩ := h
  have hbounds := bounds_foldlM ⟨by decide, by decide⟩ hs
  rw [utf8ValidateSlice, hs]
  exact decide_eq_true_iff.trans (bounds_next hbounds hu).2

/-- The sign of a cut starts a character. -/
theorem utf8ValidateSlice_append_sign (text : Bytes) :
    utf8ValidateSlice (text ++ ascii "$") = utf8ValidateSlice text := by
  have hsign : utf8ValidateSlice (ascii "$") = true := by decide
  by_cases hwhole : utf8ValidateSlice text = true
  · rw [utf8ValidateSlice_append hwhole, hwhole, hsign]
  · rw [Bool.eq_false_iff.mpr hwhole]
    refine Bool.eq_false_iff.mpr fun hall => hwhole ?_
    exact (utf8ValidateSlice_before (utf8ValidateSlice_iff.mp hall)).mpr (by
      unfold IsContinuation
      decide)

/-- How many bytes of a line that is too long are kept. -/
def keptBytes (width : Nat) : Nat := if width ≤ 1 then width else width - 1

/-- What is shown of the line are whole characters. -/
def Unbroken (line : Bytes) (width : Nat) : Prop :=
  utf8ValidateSlice (if line.length ≤ width then line else line.take (keptBytes width)) = true

theorem utf8ValidateSlice_clipLine (line : Bytes) (width : Nat) :
    utf8ValidateSlice (clipLine line width) = true ↔ Unbroken line width := by
  unfold clipLine Unbroken keptBytes
  split
  · exact Iff.rfl
  · split
    · exact Iff.rfl
    · rw [utf8ValidateSlice_append_sign]

/-- A UTF-8 line is shown whole, or cut in front of a character. -/
theorem unbroken_iff {text : Bytes} (h : utf8ValidateSlice text = true) (width : Nat) :
    Unbroken text width
      ↔ width < text.length → ∀ c, text[keptBytes width]? = some c → ¬IsContinuation c := by
  unfold Unbroken
  split
  · rename_i hshort
    exact ⟨fun _ hlong => absurd hlong (Nat.not_lt.mpr hshort), fun _ => h⟩
  · rename_i hlong
    have hkept : keptBytes width < text.length := by
      unfold keptBytes
      split <;> omega
    have hsplit : text = text.take (keptBytes width) ++
        text[keptBytes width] :: text.drop (keptBytes width + 1) := by
      rw [List.cons_getElem_drop_succ, List.take_append_drop]
    have hcut := utf8ValidateSlice_before (hsplit ▸ utf8ValidateSlice_iff.mp h)
    rw [hcut]
    constructor
    · intro hc _ c hget
      rw [List.getElem?_eq_getElem hkept] at hget
      exact Option.some.inj hget ▸ hc
    · exact fun hall => hall (Nat.lt_of_not_le hlong) _ (List.getElem?_eq_getElem hkept)

/-! ## Documents -/

/-- What the region of a node shows is whole, and its numbers fit into an `i64`. -/
structure Shown (localState : LocalState) (node : Node) (rect : Rect) (elided : Bool) : Prop where
  nodeId : node.id < i64Limit
  scrollRange : scrollRange node rect elided < i64Limit
  lines : ∀ line ∈ windowLines node rect localState elided, Unbroken line (innerExtent rect.width)

/-- No line is cut inside a character in the rectangle that its node is given. -/
def Displayable (d : Document) (rootOverride : Option Nat) (request : ProjectionRequest) : Prop :=
  (∀ x, rootOverride.or d.viewRootNodeId = some x → x < i64Limit) ∧
    ∀ p, writeProjectionForRoot d rootOverride request = .ok p → ∀ r ∈ p.regions,
      ∀ node, d.lookup r.nodeId = some node →
        Shown request.localState node r.rect (decide (r.nodeId ∈ d.elidedNodeIds))

/-- What a parsed region has in common with the region that was laid out. -/
structure ProjectionRegion.Carries (q : ProjectionRegion) (r : Region) : Prop where
  nodeId : q.nodeId = r.nodeId
  geometry : (⟨q.x, q.y, q.width, q.height⟩ : Rect) = r.rect
  scrollTop : q.scrollTop = r.scrollTop
  scrollMax : q.scrollMax = r.scrollMax
  lines : q.lines = r.lines

/-- The text of the projection is accepted, with the regions that were laid out. -/
def AcceptsRegions (p : Projection) : Prop :=
  ∃ frame, readProjection (projectionText p) = some frame ∧
    List.Forall₂ ProjectionRegion.Carries frame.regions p.regions

theorem acceptsRegions_iff {p : Projection} : AcceptsRegions p ↔ Accepted p := by
  constructor
  · rintro ⟨frame, hread, -⟩
    exact (readProjection_eq_some.mp hread).1
  · intro h
    refine ⟨ProjectionFrame.of p, readProjection_eq_some.mpr ⟨h, rfl⟩, ?_⟩
    show List.Forall₂ ProjectionRegion.Carries (p.regions.map ProjectionRegion.of) p.regions
    rw [List.forall₂_map_left_iff, List.forall₂_same]
    exact fun r _ => ⟨rfl, rfl, rfl, rfl, rfl⟩

/-- A region is readable exactly when what it shows is. -/
theorem readable_regionOf {localState : LocalState} {node : Node} {rect : Rect} {elided : Bool}
    (hfits : rect.Fits) (htitle : utf8ValidateSlice node.title = true) :
    Readable (regionOf node rect localState elided) ↔ Shown localState node rect elided := by
  obtain ⟨hmax, htop⟩ := buildContentView_scroll node rect localState elided
  have hlines : (∀ line ∈ (regionOf node rect localState elided).lines,
      utf8ValidateSlice line = true)
      ↔ ∀ line ∈ windowLines node rect localState elided,
        Unbroken line (innerExtent rect.width) := by
    show (∀ line ∈ (buildContentView node rect localState elided).visibleLines, _) ↔ _
    rw [buildContentView_lines, List.forall_mem_map]
    exact forall₂_congr fun line _ => utf8ValidateSlice_clipLine line _
  constructor
  · intro h
    refine ⟨h.nodeId, ?_, hlines.mp h.lines⟩
    rw [← hmax]
    exact h.scrollMax
  · intro h
    have hscroll : scrollRange node rect elided < i64Limit := h.scrollRange
    exact ⟨h.nodeId, htitle, hlines.mpr h.lines, hfits, htop.trans_lt hscroll,
      hmax.trans_lt hscroll⟩

/-- For every valid document with titles in UTF-8 and every viewport, the projection that is
written is accepted, with the regions that were laid out, exactly when no line that is shown is cut
inside a character. -/
theorem viewer_accepts_iff {d : Document} (hv : Valid d)
    (htitles : ∀ x n, d.lookup x = some n → utf8ValidateSlice n.title = true)
    {rootOverride : Option Nat} {request : ProjectionRequest} (hrows : request.rows < u16Limit)
    (hcols : request.cols < u16Limit) {p : Projection}
    (hwritten : writeProjectionForRoot d rootOverride request = .ok p) :
    AcceptsRegions p ↔ Displayable d rootOverride request := by
  obtain ⟨hprows, hpcols, hviewRoot, hregions⟩ := laidOut_writeProjectionForRoot hrows hcols hwritten
  -- The region of a node, as the layout made it.
  have hregion : ∀ r ∈ p.regions, ∃ node, d.lookup r.nodeId = some node ∧ (Readable r
      ↔ Shown request.localState node r.rect (decide (r.nodeId ∈ d.elidedNodeIds))) := by
    intro r hr
    obtain ⟨hfits, x, node, hx, heq⟩ := hregions r hr
    have hid : r.nodeId = x := by
      rw [heq]
      exact hv.shape.id_eq hx
    have hreadable := @readable_regionOf request.localState node r.rect
      (decide (x ∈ d.elidedNodeIds)) hfits (htitles x node hx)
    rw [← heq] at hreadable
    rw [hid]
    exact ⟨node, hx, hreadable⟩
  have hsmall : u16Limit ≤ i64Limit := by decide
  rw [acceptsRegions_iff]
  constructor
  · intro h
    refine ⟨hviewRoot ▸ h.viewRootNodeId, fun p' hp' r hr node hnode => ?_⟩
    rw [hwritten] at hp'
    cases hp'
    obtain ⟨node', hnode', hreadable⟩ := hregion r hr
    rw [hnode] at hnode'
    cases hnode'
    exact hreadable.mp (h.regions r hr)
  · intro h
    refine ⟨hprows.trans_le hsmall, hpcols.trans_le hsmall, hviewRoot ▸ h.1, fun r hr => ?_⟩
    obtain ⟨node, hnode, hreadable⟩ := hregion r hr
    exact hreadable.mpr (h.2 p hwritten r hr node hnode)

/-- A document with one text leaf. -/
def leafDocument (content : Bytes) : Document :=
  (afterStoreCalls rootDocumentPath (cappedEntry rootDocumentPath 1 (ascii "muxly") 1000)
    [(sampleEnv, .appendNode 1 .textLeaf (ascii "notes")),
      (sampleEnv, .updateNode 2 none (some content))]).document

theorem valid_leafDocument (content : Bytes) : Valid (leafDocument content) :=
  (sane_afterStoreCalls (sane_cappedEntry rootDocumentPath 1 (ascii "muxly") 1000) rootDocumentPath
    _).1.valid

/-- A check of every live node. -/
theorem forall_lookup {d : Document} {P : Node → Bool}
    (h : (d.nodeSlots.all fun slot => slot.all P) = true) :
    ∀ x n, d.lookup x = some n → P n = true := by
  intro x n hx
  cases x with
  | zero => cases hx
  | succ i =>
      have hslot : d.nodeSlots[i]? = some (some n) := Option.join_eq_some_iff.mp hx
      exact List.all_eq_true.mp h _ (List.mem_of_getElem? hslot)

/-- A viewport of the least size. -/
def smallRequest : ProjectionRequest := ⟨8, 24, ⟨none, []⟩⟩

theorem viewer_accepts_short : ∃ p, writeProjectionForRoot (leafDocument (ascii "two\nlines")) none
    smallRequest = .ok p ∧
      (AcceptsRegions p ↔ Displayable (leafDocument (ascii "two\nlines")) none smallRequest) := by
  have hwritten : ((writeProjectionForRoot (leafDocument (ascii "two\nlines")) none
      smallRequest).toOption).isSome = true := by decide +kernel
  have htitles : ((leafDocument (ascii "two\nlines")).nodeSlots.all fun slot =>
      slot.all fun n => utf8ValidateSlice n.title) = true := by decide +kernel
  have hv := valid_leafDocument (ascii "two\nlines")
  generalize leafDocument (ascii "two\nlines") = d at *
  rcases hp : writeProjectionForRoot d none smallRequest with f | p
  · rw [hp] at hwritten
    cases hwritten
  · exact ⟨p, rfl, viewer_accepts_iff hv (forall_lookup htitles) (by decide) (by decide) hp⟩

/-- Twelve times `é`. -/
def accents : Bytes := (List.replicate 12 [0xC3, 0xA9]).flatten

/-- A line of two-byte characters is cut inside one of them, and the projection is refused. -/
theorem viewer_refuses_cut_character : ¬ ∀ (d : Document) (rootOverride : Option Nat)
    (request : ProjectionRequest) (p : Projection), Valid d →
    (∀ x n, d.lookup x = some n →
      utf8ValidateSlice n.title = true ∧ utf8ValidateSlice n.content = true) →
    0 < request.rows → 0 < request.cols → request.rows < u16Limit → request.cols < u16Limit →
    writeProjectionForRoot d rootOverride request = .ok p → AcceptsRegions p := by
  intro h
  have htexts : ((leafDocument accents).nodeSlots.all fun slot => slot.all fun n =>
      utf8ValidateSlice n.title && utf8ValidateSlice n.content) = true := by decide +kernel
  have hcut : ((writeProjectionForRoot (leafDocument accents) none smallRequest).toOption.any
      fun p => p.regions.any fun r => r.lines.any fun line => !utf8ValidateSlice line) = true := by
    decide +kernel
  have hv := valid_leafDocument accents
  generalize leafDocument accents = d at *
  rcases hp : writeProjectionForRoot d none smallRequest with f | p
  · rw [hp] at hcut
    cases hcut
  · rw [hp] at hcut
    have haccepted := acceptsRegions_iff.mp (h d none smallRequest p hv (fun x n hx =>
      Bool.and_eq_true_iff.mp (forall_lookup htexts x n hx)) (by decide) (by decide) (by decide)
      (by decide) hp)
    obtain ⟨r, hr, hline⟩ := List.any_eq_true.mp (show p.regions.any _ = true from hcut)
    obtain ⟨line, hmem, hinvalid⟩ := List.any_eq_true.mp hline
    rw [(haccepted.regions r hr).lines line hmem] at hinvalid
    cases hinvalid

end Muxly.Viewer
