/-
# Muxly.Viewer.Frame -- the text that the viewer draws of a frame

Every region is drawn as a box with a header in its first row and its lines inside. The layout draws
in layers, so no later region touches the header of an earlier one. A header is built in a buffer of
256 bytes and a title is put on the canvas as it is: the frame of a valid document is drawn as one
line for each row exactly when no header is longer than the buffer and no newline of a title is
among the bytes that fit into the region.
-/
import Muxly.Core.Window
import Muxly.Viewer.Acceptance
import Muxly.Viewer.Canvas

namespace Muxly.Viewer

open Muxly.Core Muxly.Control Muxly.Daemon Muxly.Client Muxly.Data

/-! ## Headers -/

/-- `HeaderBuilder`: the used part of the buffer. -/
structure HeaderBuilder where
  text : Bytes
  bound : text.length ≤ 256

namespace HeaderBuilder

/-- `HeaderBuilder{}`. -/
def empty : HeaderBuilder := ⟨[], Nat.zero_le _⟩

/-- `appendSlice`. -/
def appendSlice (self : HeaderBuilder) (text : Bytes) : Except RenderError HeaderBuilder :=
  if h : self.text.length + text.length > 256 then .error .headerTooLong
  else .ok ⟨self.text ++ text, by rw [List.length_append]; omega⟩

/-- `if (condition) try header.appendSlice(text)`. -/
def appendIf (self : HeaderBuilder) (condition : Bool) (text : Bytes) :
    Except RenderError HeaderBuilder :=
  if condition then self.appendSlice text else .ok self

end HeaderBuilder

/-- `appendHeader`. -/
def appendHeader (header : HeaderBuilder) (kind title : Bytes) (focused followTail scrollable : Bool)
    (scrollTop scrollMax : Nat) (elided : Bool) : Except RenderError HeaderBuilder := do
  let header ← header.appendIf focused (ascii "> ")
  let header ← header.appendSlice title
  let header ← header.appendIf (title.length = 0) kind
  let header ← header.appendIf followTail (ascii " [tail]")
  let header ← header.appendIf (scrollable && scrollTop ≠ 0) (ascii " [^]")
  let header ← header.appendIf (scrollable && scrollTop < scrollMax) (ascii " [v]")
  header.appendIf elided (ascii " [elided]")

/-- A text, if it is shown. -/
def shownIf (condition : Bool) (text : Bytes) : Bytes := if condition then text else []

/-- The parts of a header. -/
def headerParts (region : ProjectionRegion) : List Bytes :=
  [shownIf region.focused (ascii "> "), region.title,
    shownIf (region.title.length = 0) region.kind,
    shownIf region.followTail (ascii " [tail]"),
    shownIf (region.scrollable && region.scrollTop ≠ 0) (ascii " [^]"),
    shownIf (region.scrollable && region.scrollTop < region.scrollMax) (ascii " [v]"),
    shownIf region.elided (ascii " [elided]")]

/-- The header of a region. -/
def headerText (region : ProjectionRegion) : Bytes := (headerParts region).flatten

/-- The header of a region, built in a buffer. -/
def regionHeader (region : ProjectionRegion) : Except RenderError HeaderBuilder :=
  appendHeader .empty region.kind region.title region.focused region.followTail region.scrollable
    region.scrollTop region.scrollMax region.elided

theorem HeaderBuilder.appendIf_eq (self : HeaderBuilder) (condition : Bool) (text : Bytes) :
    self.appendIf condition text = self.appendSlice (shownIf condition text) := by
  unfold appendIf shownIf
  split
  · rfl
  · have hbound := self.bound
    rw [appendSlice, dif_neg (by rw [List.length_nil]; omega)]
    simp only [List.append_nil]

/-- Parts are appended while they fit. -/
theorem foldlM_appendSlice (header : HeaderBuilder) (parts : List Bytes) :
    (header.text.length + parts.flatten.length ≤ 256 → ∃ built : HeaderBuilder,
      parts.foldlM HeaderBuilder.appendSlice header = .ok built ∧
        built.text = header.text ++ parts.flatten) ∧
    (256 < header.text.length + parts.flatten.length →
      parts.foldlM HeaderBuilder.appendSlice header = .error .headerTooLong) := by
  induction parts generalizing header with
  | nil =>
      refine ⟨fun _ => ⟨header, rfl, (List.append_nil _).symm⟩, fun hlong => ?_⟩
      have hbound := header.bound
      rw [List.flatten_nil, List.length_nil] at hlong
      omega
  | cons part rest ih =>
      rw [List.flatten_cons, List.length_append, List.foldlM_cons, HeaderBuilder.appendSlice]
      by_cases hpart : header.text.length + part.length > 256
      · rw [dif_pos hpart]
        exact ⟨fun hshort => by omega, fun _ => rfl⟩
      · rw [dif_neg hpart, ok_bind]
        have happend : (header.text ++ part).length = header.text.length + part.length :=
          List.length_append
        obtain ⟨hfits, hlong⟩ := ih ⟨header.text ++ part, by omega⟩
        dsimp only at hfits hlong
        refine ⟨fun h => ?_, fun h => hlong (by omega)⟩
        obtain ⟨built, hbuilt, htext⟩ := hfits (by omega)
        exact ⟨built, hbuilt, by rw [htext, List.append_assoc]⟩

/-- The header is built exactly when it fits into the buffer. -/
theorem regionHeader_spec (region : ProjectionRegion) :
    ((headerText region).length ≤ 256 → ∃ built, regionHeader region = .ok built ∧
      built.text = headerText region) ∧
    (256 < (headerText region).length → regionHeader region = .error .headerTooLong) := by
  have hparts : regionHeader region
      = (headerParts region).foldlM HeaderBuilder.appendSlice .empty := by
    unfold regionHeader appendHeader headerParts
    simp only [HeaderBuilder.appendIf_eq, List.foldlM_cons, List.foldlM_nil, bind_pure]
  obtain ⟨hfits, hlong⟩ := foldlM_appendSlice .empty (headerParts region)
  have hempty : (HeaderBuilder.empty).text = [] := rfl
  rw [hempty, List.length_nil, Nat.zero_add] at hfits hlong
  rw [hparts]
  exact ⟨hfits, hlong⟩

/-! ## Regions -/

/-- A checked `u16` addition. -/
def checkedAdd (a b : Nat) : Except RenderError Nat :=
  if a + b < u16Limit then .ok (a + b) else .error .integerOverflow

def ProjectionRegion.rect (region : ProjectionRegion) : Rect :=
  ⟨region.x, region.y, region.width, region.height⟩

/-- The part of `renderRegion` that draws the header. -/
def renderHeader (canvas : Canvas) (region : ProjectionRegion) : Except RenderError Canvas := do
  let headerWidth := innerExtent region.width
  if headerWidth = 0 then return canvas
  let header ← regionHeader region
  let x ← checkedAdd region.x 1
  return canvas.writeText x region.y header.text headerWidth

/-- The loop of `renderRegion`, which stops after as many lines as there are rows inside. -/
def renderLines (canvas : Canvas) (region : ProjectionRegion) (innerWidth innerHeight : Nat) :
    Except RenderError Canvas :=
  (region.lines.take innerHeight).zipIdx.foldlM (fun canvas entry => do
    let x ← checkedAdd region.x 1
    let y ← checkedAdd region.y 1
    return canvas.writeText x (y + entry.2) entry.1 innerWidth) canvas

/-- `renderRegion`. -/
def renderRegion (canvas : Canvas) (region : ProjectionRegion) : Except RenderError Canvas := do
  if region.width = 0 ∨ region.height = 0 then return canvas
  let canvas := canvas.drawBox region.x region.y region.width region.height region.focused
  let canvas ← renderHeader canvas region
  let innerWidth := innerExtent region.width
  let innerHeight := innerExtent region.height
  if innerWidth = 0 ∨ innerHeight = 0 then return canvas
  renderLines canvas region innerWidth innerHeight

/-- `renderProjectionFrame`. -/
def renderProjectionFrame (frame : ProjectionFrame) : Except RenderError Bytes := do
  let canvas ← Canvas.init frame.rows frame.cols
  let canvas ← frame.regions.foldlM renderRegion canvas
  return canvas.write

/-! ## What a region paints -/

/-- The region shows a header. -/
def HasHeader (region : ProjectionRegion) : Prop := 2 < region.width ∧ 0 < region.height

/-- The part of the header that the region has room for. -/
def shownHeader (region : ProjectionRegion) : Bytes :=
  (headerText region).take (region.width - 2)

/-- A byte that the drawing of the region may put into the cell. -/
def PaintedBy (region : ProjectionRegion) (a b : Nat) (value : UInt8) : Prop :=
  region.rect.Contains a b ∧ (value = newline → HasHeader region ∧ newline ∈ shownHeader region)

theorem checkedAdd_eq {a b : Nat} (h : a + b < u16Limit) : checkedAdd a b = .ok (a + b) :=
  if_pos h

section Region

variable {region : ProjectionRegion} {canvas : Canvas}

theorem renderLines_paints (hb : region.rect.Bounded) (hwide : 2 < region.width)
    (hhigh : 2 < region.height) (hlines : ∀ line ∈ region.lines, newline ∉ line) :
    ∃ c, renderLines canvas region (region.width - 2) (region.height - 2) = .ok c ∧
      Canvas.Paints (fun a b value => PaintedBy region a b value ∧ region.y < b) canvas c := by
  obtain ⟨hright, hbottom⟩ := hb
  change region.x + region.width < _ at hright
  change region.y + region.height < _ at hbottom
  have hturns : ∀ c : Canvas, ∀ entries : List (Bytes × Nat),
      entries.foldlM (fun canvas entry => do
        let x ← checkedAdd region.x 1
        let y ← checkedAdd region.y 1
        return canvas.writeText x (y + entry.2) entry.1 (region.width - 2)) c
      = .ok (entries.foldl (fun canvas entry =>
          canvas.writeText (region.x + 1) (region.y + 1 + entry.2) entry.1 (region.width - 2)) c) := by
    intro c entries
    rw [checkedAdd_eq (by omega), checkedAdd_eq (by omega)]
    induction entries generalizing c with
    | nil => rfl
    | cons entry rest ih => exact ih _
  refine ⟨_, hturns canvas _, Canvas.paints_foldl (fun c entry hentry => ?_) canvas⟩
  have hline := List.mem_zipIdx_iff_getElem?.mp hentry
  refine Canvas.paints_writeText fun index value hvalue => ?_
  have hrow := (List.getElem?_eq_some_iff.mp hline).1
  have hcol := (List.getElem?_eq_some_iff.mp hvalue).1
  rw [List.length_take] at hrow hcol
  have hclean := hlines entry.1 (List.mem_of_mem_take (List.mem_of_getElem? hline))
  refine ⟨⟨⟨?_, ?_, ?_, ?_⟩, ?_⟩, by omega⟩
  · show region.x ≤ _
    omega
  · show _ < region.x + region.width
    omega
  · show region.y ≤ _
    omega
  · show _ < region.y + region.height
    omega
  · rintro rfl
    exact absurd (List.mem_of_mem_take (List.mem_of_getElem? hvalue)) hclean

/-- The header is drawn in the first row, if it fits into the buffer. -/
theorem renderHeader_paints (hb : region.rect.Bounded) (hhigh : 0 < region.height)
    (hfits : HasHeader region → (headerText region).length ≤ 256) :
    ∃ c, renderHeader canvas region = .ok c ∧ Canvas.Paints (PaintedBy region) canvas c ∧
      (HasHeader region → ∀ index value, (shownHeader region)[index]? = some value →
        region.x + 1 + index < canvas.cols → region.y < canvas.rows →
        c.cell (region.x + 1 + index) region.y = some value) := by
  obtain ⟨hright, hbottom⟩ := hb
  change region.x + region.width < _ at hright
  unfold renderHeader
  by_cases hwide : 2 < region.width
  · have hextent : innerExtent region.width = region.width - 2 := if_pos hwide
    obtain ⟨built, hbuilt, htext⟩ := (regionHeader_spec region).1 (hfits ⟨hwide, hhigh⟩)
    rw [hextent, if_neg (by omega), hbuilt, ok_bind, checkedAdd_eq (by omega), ok_bind, htext]
    refine ⟨_, rfl, Canvas.paints_writeText fun index value hvalue => ?_,
      fun _ index value hvalue hcol hrow => Canvas.cell_writeText hvalue hcol hrow⟩
    have hcol := (List.getElem?_eq_some_iff.mp hvalue).1
    rw [List.length_take] at hcol
    refine ⟨⟨?_, ?_, Nat.le_refl _, Nat.lt_add_of_pos_right hhigh⟩, ?_⟩
    · show region.x ≤ _
      omega
    · show _ < region.x + region.width
      omega
    · rintro rfl
      exact ⟨⟨hwide, hhigh⟩, List.mem_of_getElem? hvalue⟩
  · have hextent : innerExtent region.width = 0 := if_neg hwide
    rw [hextent, if_pos rfl]
    exact ⟨canvas, rfl, .refl canvas, fun h => absurd h.1 hwide⟩

/-- What drawing one region does: it stays in the rectangle, and its header is left standing. -/
theorem renderRegion_paints (hb : region.rect.Bounded)
    (hlines : ∀ line ∈ region.lines, newline ∉ line)
    (hfits : HasHeader region → (headerText region).length ≤ 256) :
    ∃ c, renderRegion canvas region = .ok c ∧ Canvas.Paints (PaintedBy region) canvas c ∧
      (HasHeader region → ∀ index value, (shownHeader region)[index]? = some value →
        region.x + 1 + index < canvas.cols → region.y < canvas.rows →
        c.cell (region.x + 1 + index) region.y = some value) := by
  unfold renderRegion
  by_cases hempty : region.width = 0 ∨ region.height = 0
  · rw [if_pos hempty]
    refine ⟨canvas, rfl, .refl canvas, fun h => ?_⟩
    obtain ⟨hwide, hhigh⟩ := h
    omega
  · have hbox : Canvas.Paints (PaintedBy region) canvas (canvas.drawBox region.x region.y
        region.width region.height region.focused) :=
      Canvas.paints_drawBox (by omega) (by omega) fun a b value hab hvalue =>
        ⟨hab, fun h => absurd h hvalue⟩
    rw [if_neg hempty]
    generalize canvas.drawBox region.x region.y region.width region.height region.focused = boxed at *
    obtain ⟨headed, hheaded, hpaints, hheader⟩ := @renderHeader_paints region boxed hb (by omega) hfits
    rw [hbox.cols, hbox.rows] at hheader
    dsimp only
    rw [hheaded, ok_bind]
    by_cases hinner : 2 < region.width ∧ 2 < region.height
    · have hextents : innerExtent region.width = region.width - 2 ∧
          innerExtent region.height = region.height - 2 := ⟨if_pos hinner.1, if_pos hinner.2⟩
      rw [hextents.1, hextents.2, if_neg (by omega)]
      obtain ⟨c, hc, hinside⟩ := @renderLines_paints region headed hb hinner.1 hinner.2 hlines
      refine ⟨c, hc, (hbox.trans hpaints).trans (hinside.mono fun a b value h => h.1), ?_⟩
      intro h index value hvalue hcol hrow
      rw [hinside.cell_eq fun value h => Nat.lt_irrefl _ h.2]
      exact hheader h index value hvalue hcol hrow
    · have hextents : innerExtent region.width = 0 ∨ innerExtent region.height = 0 := by
        unfold innerExtent
        split
        · split <;> omega
        · exact .inl rfl
      rw [if_pos hextents]
      exact ⟨headed, rfl, hbox.trans hpaints, hheader⟩

/-- A header that does not fit into the buffer is an error. -/
theorem renderRegion_error (hheader : HasHeader region) (hlong : 256 < (headerText region).length) :
    renderRegion canvas region = .error .headerTooLong := by
  obtain ⟨hwide, hhigh⟩ := hheader
  have hextent : innerExtent region.width = region.width - 2 := if_pos hwide
  rw [renderRegion, if_neg (by omega)]
  dsimp only
  rw [renderHeader, hextent, if_neg (by omega), (regionHeader_spec region).2 hlong]
  rfl

end Region

/-! ## Frames -/

/-- How the layout leaves a frame. -/
structure LaidOut (frame : ProjectionFrame) : Prop where
  rows : frame.rows < u16Limit
  cols : 0 < frame.cols ∧ frame.cols < u16Limit
  inside : ∀ r ∈ frame.regions, r.rect.Within ⟨0, 0, frame.cols, frame.rows⟩
  layered : frame.regions.Pairwise fun r s => r.rect.Apart s.rect ∨ s.rect.InsideBorder r.rect
  lines : ∀ r ∈ frame.regions, ∀ line ∈ r.lines, newline ∉ line

/-- The frame is drawn: one ended line for each row, and none of more than `cols` bytes. -/
def RendersLines (frame : ProjectionFrame) : Prop :=
  ∃ output lines, renderProjectionFrame frame = .ok output ∧ Lines newline output lines [] ∧
    lines.length = max frame.rows 1 ∧ ∀ line ∈ lines, line.length ≤ frame.cols

/-- The header of the region fits into the buffer and shows no newline. -/
def HeaderFits (region : ProjectionRegion) : Prop :=
  HasHeader region → (headerText region).length ≤ 256 ∧ newline ∉ shownHeader region

/-- Every turn of a loop that ends well does. -/
theorem foldlM_turn {σ α ε : Type} {f : σ → α → Except ε σ} {xs : List α} {s s' : σ}
    (h : xs.foldlM f s = .ok s') : ∀ x ∈ xs, ∃ t t', f t x = .ok t' := by
  induction xs generalizing s with
  | nil => nofun
  | cons x rest ih =>
      rw [List.foldlM_cons] at h
      obtain ⟨t, hturn, hrest⟩ := bind_eq_ok.mp h
      intro y hy
      rcases List.mem_cons.mp hy with rfl | hy
      · exact ⟨s, t, hturn⟩
      · exact ih hrest y hy

/-- The header of a region stands in the first row of its rectangle, where no later region paints. -/
theorem not_paintedBy_header {r s : ProjectionRegion} (hr : HasHeader r)
    (hlayer : r.rect.Apart s.rect ∨ s.rect.InsideBorder r.rect) {index : Nat}
    (hindex : index < r.width - 2) (value : UInt8) :
    ¬ PaintedBy s (r.x + 1 + index) r.y value := by
  obtain ⟨hwide, hhigh⟩ := hr
  rintro ⟨hcell, -⟩
  rcases hlayer with hapart | hinside
  · refine hapart _ _ ⟨?_, ?_, Nat.le_refl _, Nat.lt_add_of_pos_right hhigh⟩ hcell
    · show r.x ≤ _
      omega
    · show _ < r.x + r.width
      omega
  · exact absurd (hinside.top.trans_le hcell.top) (Nat.lt_irrefl _)

/-- What drawing all regions does, when every header fits into the buffer. -/
theorem renderRegions_paints {regions : List ProjectionRegion}
    (hb : ∀ r ∈ regions, r.rect.Bounded)
    (hlines : ∀ r ∈ regions, ∀ line ∈ r.lines, newline ∉ line)
    (hlayered : regions.Pairwise fun r s => r.rect.Apart s.rect ∨ s.rect.InsideBorder r.rect)
    (hfits : ∀ r ∈ regions, HasHeader r → (headerText r).length ≤ 256) (canvas : Canvas) :
    ∃ c, regions.foldlM renderRegion canvas = .ok c ∧
      Canvas.Paints (fun a b value => ∃ r ∈ regions, PaintedBy r a b value) canvas c ∧
      ∀ r ∈ regions, HasHeader r → ∀ index value, (shownHeader r)[index]? = some value →
        r.x + 1 + index < canvas.cols → r.y < canvas.rows →
        c.cell (r.x + 1 + index) r.y = some value := by
  induction regions generalizing canvas with
  | nil => exact ⟨canvas, rfl, .refl canvas, nofun⟩
  | cons r rest ih =>
      obtain ⟨hfirst, hrest⟩ := List.pairwise_cons.mp hlayered
      simp only [List.forall_mem_cons] at hb hlines hfits
      obtain ⟨mid, hmid, hpaints, hheader⟩ := @renderRegion_paints r canvas hb.1 hlines.1 hfits.1
      obtain ⟨c, hc, hafter, hothers⟩ := ih hb.2 hlines.2 hrest hfits.2 mid
      refine ⟨c, by rw [List.foldlM_cons, hmid, ok_bind, hc], ?_, ?_⟩
      · refine Canvas.Paints.trans (hpaints.mono fun a b value h => ⟨r, List.mem_cons_self .., h⟩)
          (hafter.mono fun a b value h => ?_)
        obtain ⟨s, hs, hpainted⟩ := h
        exact ⟨s, List.mem_cons_of_mem _ hs, hpainted⟩
      · intro s hs hsheader index value hvalue hcol hrow
        rcases List.mem_cons.mp hs with rfl | hs
        · have hindex := (List.getElem?_eq_some_iff.mp hvalue).1
          rw [shownHeader, List.length_take] at hindex
          have huntouched : ∀ value, ¬ ∃ t ∈ rest, PaintedBy t (s.x + 1 + index) s.y value := by
            rintro value ⟨t, ht, hpainted⟩
            exact not_paintedBy_header hsheader (hfirst t ht) (by omega) value hpainted
          rw [hafter.cell_eq huntouched]
          exact hheader hsheader index value hvalue hcol hrow
        · exact hothers s hs hsheader index value hvalue (by rwa [hpaints.cols]) (by rwa [hpaints.rows])

/-- A canvas of `u16` extents has its size, and holds spaces. -/
theorem init_eq {rows cols : Nat} (hrows : rows < u16Limit) (hcols : cols < u16Limit) :
    ∃ canvas, Canvas.init rows cols = .ok canvas ∧ canvas.rows = max rows 1 ∧
      canvas.cols = max cols 1 ∧ ∀ x y, canvas.cell x y ≠ some newline := by
  have hsize : max rows 1 * max cols 1 < 2 ^ 64 := by
    have hlimit : (u16Limit - 1) * (u16Limit - 1) < 2 ^ 64 := by decide
    have hone : 1 ≤ u16Limit - 1 := by decide
    exact (Nat.mul_le_mul (by omega : max rows 1 ≤ u16Limit - 1)
      (by omega : max cols 1 ≤ u16Limit - 1)).trans_lt hlimit
  refine ⟨_, if_pos hsize, rfl, rfl, fun x y hcell => ?_⟩
  unfold Canvas.cell at hcell
  split at hcell
  · have hmem := List.mem_of_getElem? hcell
    have hspace := (List.mem_replicate.mp hmem).2
    exact absurd hspace (by decide)
  · cases hcell

/-- A frame is drawn line by line exactly when its headers fit. -/
theorem rendersLines_iff {frame : ProjectionFrame} (h : LaidOut frame) :
    RendersLines frame ↔ ∀ r ∈ frame.regions, HeaderFits r := by
  obtain ⟨canvas, hinit, hrows, hcols, hblank⟩ := init_eq h.rows h.cols.2
  have hwidth : max frame.cols 1 = frame.cols := by
    have hpos := h.cols.1
    omega
  rw [hwidth] at hcols
  have hbounded : ∀ r ∈ frame.regions, r.rect.Bounded := by
    intro r hr
    refine (h.inside r hr).bounded ⟨?_, ?_⟩
    · show 0 + frame.cols < _
      rw [Nat.zero_add]
      exact h.cols.2
    · show 0 + frame.rows < _
      rw [Nat.zero_add]
      exact h.rows
  have hcanvas : ∀ r ∈ frame.regions, HasHeader r → ∀ index, index < r.width - 2 →
      r.x + 1 + index < canvas.cols ∧ r.y < canvas.rows := by
    intro r hr hheader index hindex
    obtain ⟨hwide, hhigh⟩ := hheader
    have hright : r.x + r.width ≤ 0 + frame.cols := (h.inside r hr).right
    have hbottom : r.y + r.height ≤ 0 + frame.rows := (h.inside r hr).bottom
    omega
  by_cases hfits : ∀ r ∈ frame.regions, HasHeader r → (headerText r).length ≤ 256
  · obtain ⟨c, hc, hpaints, hheaders⟩ :=
      renderRegions_paints hbounded h.lines h.layered hfits canvas
    have hrender : renderProjectionFrame frame = .ok c.write := by
      rw [renderProjectionFrame, hinit, ok_bind, hc]
      rfl
    have hlines := c.lines_write_iff
    rw [hpaints.rows, hpaints.cols, hrows, hcols] at hlines
    have houtput : RendersLines frame ↔ ∀ x y, c.cell x y ≠ some newline := by
      rw [← hlines]
      constructor
      · rintro ⟨output, lines, hok, hrest⟩
        rw [hrender] at hok
        cases hok
        exact ⟨lines, hrest⟩
      · rintro ⟨lines, hrest⟩
        exact ⟨c.write, lines, hrender, hrest⟩
    rw [houtput]
    constructor
    · -- A newline of a header is still on the canvas at the end.
      intro hclean r hr hheader
      refine ⟨hfits r hr hheader, fun hmem => ?_⟩
      obtain ⟨index, hvalue⟩ := List.mem_iff_getElem?.mp hmem
      have hindex := (List.getElem?_eq_some_iff.mp hvalue).1
      rw [shownHeader, List.length_take] at hindex
      obtain ⟨hcol, hrow⟩ := hcanvas r hr hheader index (by omega)
      exact hclean _ _ (hheaders r hr hheader index newline hvalue hcol hrow)
    · -- A newline on the canvas is one of a header: the blank canvas and the other texts have none.
      intro hall x y hcell
      rcases hpaints.cell x y with heq | ⟨value, hvalue, r, hr, -, hpainted⟩
      · exact hblank x y (heq ▸ hcell)
      · rw [hcell] at hvalue
        cases hvalue
        obtain ⟨hheader, hmem⟩ := hpainted rfl
        exact (hall r hr hheader).2 hmem
  · -- A header over 256 bytes: nothing is drawn at all.
    refine iff_of_false ?_ fun hall => hfits fun r hr hheader => (hall r hr hheader).1
    rintro ⟨output, lines, hok, -⟩
    refine hfits fun r hr hheader => Nat.le_of_not_lt fun hlong => ?_
    rw [renderProjectionFrame, hinit, ok_bind] at hok
    obtain ⟨c, hc, -⟩ := bind_eq_ok.mp hok
    obtain ⟨t, t', hturn⟩ := foldlM_turn hc r hr
    rw [renderRegion_error hheader hlong] at hturn
    cases hturn

/-! ## Documents -/

theorem newline_notMem_renderableLines {text line : Bytes} (h : line ∈ renderableLines text) :
    newline ∉ line := by
  obtain ⟨blanks, hsplit, -⟩ := (textLines_renderableLines text).split
  have hmem : line ∈ (text.splitOn newline).map trimTrailingCarriageReturn :=
    hsplit ▸ List.mem_append_left _ h
  obtain ⟨piece, hpiece, rfl⟩ := List.mem_map.mp hmem
  have hclean := notMem_of_mem_splitOn hpiece
  unfold trimTrailingCarriageReturn
  split
  · exact fun hin => hclean (List.mem_of_mem_dropLast hin)
  · exact hclean

theorem newline_notMem_clipLine {line : Bytes} {width : Nat} (h : newline ∉ line) :
    newline ∉ clipLine line width := by
  unfold clipLine
  split
  · exact h
  · split
    · exact fun hin => h (List.mem_of_mem_take hin)
    · intro hin
      rcases List.mem_append.mp hin with hin | hin
      · exact h (List.mem_of_mem_take hin)
      · exact absurd hin (by decide)

/-- The lines of a region hold no newline. -/
theorem newline_notMem_regionOf {node : Node} {rect : Rect} {localState : LocalState} {elided : Bool}
    {line : Bytes} (h : line ∈ (regionOf node rect localState elided).lines) : newline ∉ line := by
  change line ∈ (buildContentView node rect localState elided).visibleLines at h
  rw [buildContentView_lines] at h
  obtain ⟨raw, hraw, rfl⟩ := List.mem_map.mp h
  have hline : raw ∈ renderableLines (deriveRenderableText node elided) := by
    unfold windowLines at hraw
    dsimp only at hraw
    split at hraw
    · cases hraw
    · exact List.mem_of_mem_drop (List.mem_of_mem_take hraw)
  exact newline_notMem_clipLine (newline_notMem_renderableLines hline)

/-- The frame of a valid document is laid out. -/
theorem laidOut_of_projection {d : Document} (hv : d.Valid) {rootOverride : Option Nat}
    {request : ProjectionRequest} (hrows : request.rows < u16Limit) (hcols : request.cols < u16Limit)
    {p : Projection} (hwritten : writeProjectionForRoot d rootOverride request = .ok p) :
    LaidOut (ProjectionFrame.of p) := by
  obtain ⟨hprows, hpcols, -, hregions⟩ := laidOut_writeProjectionForRoot hrows hcols hwritten
  have hstacked := stacked_writeProjectionForRoot hv hrows hcols hwritten
  have hleast : p.cols = clampDimension request.cols 24 := by
    unfold writeProjectionForRoot at hwritten
    obtain ⟨regions, -, hwritten⟩ := bind_eq_ok.mp hwritten
    cases hwritten
    rfl
  refine ⟨hprows, ⟨?_, hpcols⟩, List.forall_mem_map.mpr hstacked.inside, ?_,
    List.forall_mem_map.mpr fun r hr line hline => ?_⟩
  · show 0 < p.cols
    rw [hleast, clampDimension]
    split <;> omega
  · exact List.pairwise_map.mpr (hstacked.layered.imp fun h => h.imp_right And.left)
  · obtain ⟨x, node, -, heq⟩ := (hregions r hr).node
    have hline : line ∈ r.lines := hline
    rw [heq] at hline
    exact newline_notMem_regionOf hline

/-- For every valid document and viewport, the viewer draws the frame that it reads as one ended
line for each row, without an overflow, exactly when every header that is shown fits into the buffer
and shows no newline of its title. -/
theorem renderProjectionFrame_lines_iff {d : Document} (hv : d.Valid) {rootOverride : Option Nat}
    {request : ProjectionRequest} (hrows : request.rows < u16Limit) (hcols : request.cols < u16Limit)
    {p : Projection} (hwritten : writeProjectionForRoot d rootOverride request = .ok p)
    {frame : ProjectionFrame} (hread : readProjection (projectionText p) = some frame) :
    RendersLines frame ↔ ∀ region ∈ frame.regions, HeaderFits region := by
  obtain rfl := (readProjection_eq_some.mp hread).2
  exact rendersLines_iff (laidOut_of_projection hv hrows hcols hwritten)

/-- A document with one text that has the title. -/
def titledDocument (title : Bytes) : Document :=
  (Document.appendNode 1 .textLeaf title .none (Document.init 1 (ascii "muxly"))).2

theorem valid_titledDocument (title : Bytes) : (titledDocument title).Valid :=
  (Document.appendNode_sound 1 .textLeaf title .none _ (Document.valid_init 1 (ascii "muxly"))).1

/-- A check of the frame that the viewer reads of a document, on a viewport of the least size. -/
def checkFrame (d : Document) (check : ProjectionFrame → Bool) : Bool :=
  (writeProjectionForRoot d none smallRequest).toOption.any fun p =>
    (readProjection (projectionText p)).any check

theorem of_checkFrame {d : Document} {check : ProjectionFrame → Bool}
    (h : checkFrame d check = true) : ∃ p frame, writeProjectionForRoot d none smallRequest = .ok p ∧
      readProjection (projectionText p) = some frame ∧ check frame = true := by
  unfold checkFrame at h
  cases hp : writeProjectionForRoot d none smallRequest with
  | error e =>
      rw [hp] at h
      cases h
  | ok p =>
      rw [hp] at h
      obtain ⟨frame, hframe, hcheck⟩ := (Option.any_eq_true _ _).mp
        (show (readProjection (projectionText p)).any check = true from h)
      exact ⟨p, frame, rfl, hframe, hcheck⟩

/-- A short title is drawn in the header of its region. -/
theorem renderProjectionFrame_lines_iff_notes : ∃ p frame,
    writeProjectionForRoot (titledDocument (ascii "notes")) none smallRequest = .ok p ∧
    readProjection (projectionText p) = some frame ∧ RendersLines frame := by
  have hcheck : checkFrame (titledDocument (ascii "notes")) (fun frame => frame.regions.all fun r =>
      decide ((headerText r).length ≤ 256 ∧ newline ∉ shownHeader r)) = true := by decide +kernel
  obtain ⟨p, frame, hp, hframe, hheaders⟩ := of_checkFrame hcheck
  refine ⟨p, frame, hp, hframe, (renderProjectionFrame_lines_iff (valid_titledDocument _) (by decide)
    (by decide) hp hframe).mpr fun r hr _ => ?_⟩
  exact of_decide_eq_true (List.all_eq_true.mp hheaders r hr)

/-- A newline in a title becomes one on the canvas, and eight rows become nine lines. -/
theorem newline_splits_header : ¬ ∀ (d : Document) (rootOverride : Option Nat)
    (request : ProjectionRequest) (p : Projection) (frame : ProjectionFrame), d.Valid →
    request.rows < u16Limit → request.cols < u16Limit →
    writeProjectionForRoot d rootOverride request = .ok p →
    readProjection (projectionText p) = some frame → RendersLines frame := by
  intro h
  have hcheck : checkFrame (titledDocument (ascii "a\nb")) (fun frame => frame.rows = 8 &&
      (renderProjectionFrame frame).toOption.any fun output => output.count newline = 9) = true := by
    decide +kernel
  obtain ⟨p, frame, hp, hframe, hcheck⟩ := of_checkFrame hcheck
  obtain ⟨output, lines, hok, hlines, hlength, -⟩ := h _ none smallRequest p frame
    (valid_titledDocument _) (by decide) (by decide) hp hframe
  obtain ⟨hrows, hcount⟩ := Bool.and_eq_true_iff.mp hcheck
  rw [hok] at hcount
  have hrows := of_decide_eq_true hrows
  have hcount : output.count newline = 9 := of_decide_eq_true hcount
  rw [hlines.count_eq, hlength, hrows] at hcount
  cases hcount

end Muxly.Viewer
