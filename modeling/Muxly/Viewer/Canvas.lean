/-
# Muxly.Viewer.Canvas -- the cells that a frame is drawn on

The viewer draws a frame on rows of bytes and writes each row as a line, without the spaces at its
end. A byte is put into a cell as it is, so a newline in a cell becomes one in the output:
`lines_write_iff` says that the output has a line for each row exactly when no cell holds one.
-/
import Mathlib.Data.List.DropRight
import Muxly.Core.Layers
import Muxly.Data.Lines

namespace Muxly.Viewer

open Muxly.Core Muxly.Control Muxly.Data

/-! ## The canvas -/

/-- How rendering fails: an error of the code, or a checked operation that overflows. -/
inductive RenderError where
  | headerTooLong
  | integerOverflow
  deriving DecidableEq

/-- `Canvas`. Sums of `usize` coordinates are not checked here: they are far below `2 ^ 64`. -/
structure Canvas where
  rows : Nat
  cols : Nat
  cells : Bytes
  size : cells.length = rows * cols

/-- `' '`. -/
def space : UInt8 := 32

/-- `Canvas.init`. -/
def Canvas.init (rows cols : Nat) : Except RenderError Canvas :=
  let safeRows := max rows 1
  let safeCols := max cols 1
  if safeRows * safeCols < 2 ^ 64 then
    .ok ⟨safeRows, safeCols, List.replicate (safeRows * safeCols) space, List.length_replicate⟩
  else .error .integerOverflow

namespace Canvas

/-- One row. -/
def row (self : Canvas) (y : Nat) : Bytes := (self.cells.drop (y * self.cols)).take self.cols

/-- `write`. -/
def write (self : Canvas) : Bytes :=
  (List.range self.rows).flatMap fun y => (self.row y).rdropWhile (· = space) ++ [newline]

/-- `put`. -/
def put (self : Canvas) (x y : Nat) (value : UInt8) : Canvas :=
  if x ≥ self.cols ∨ y ≥ self.rows then self
  else { self with
    cells := self.cells.set (y * self.cols + x) value
    size := by rw [List.length_set, self.size] }

/-- `writeText`. -/
def writeText (self : Canvas) (x y : Nat) (text : Bytes) (maxWidth : Nat) : Canvas :=
  (text.take maxWidth).zipIdx.foldl (fun canvas entry => canvas.put (x + entry.2) y entry.1) self

/-- `drawBox`. -/
def drawBox (self : Canvas) (x y width height : Nat) (focused : Bool) : Canvas :=
  let horizontal : UInt8 := if focused then 61 else 45
  let vertical : UInt8 := if focused then 33 else 124
  let corner : UInt8 := if focused then 42 else 43
  if height = 1 then
    (List.range width).foldl (fun canvas col => canvas.put (x + col) y horizontal) self
  else if width = 1 then
    (List.range height).foldl (fun canvas row => canvas.put x (y + row) vertical) self
  else
    let canvas := self.put x y corner
    let canvas := canvas.put (x + width - 1) y corner
    let canvas := canvas.put x (y + height - 1) corner
    let canvas := canvas.put (x + width - 1) (y + height - 1) corner
    let canvas := (List.range' 1 (width - 2)).foldl (fun canvas col =>
      (canvas.put (x + col) y horizontal).put (x + col) (y + height - 1) horizontal) canvas
    (List.range' 1 (height - 2)).foldl (fun canvas row =>
      (canvas.put x (y + row) vertical).put (x + width - 1) (y + row) vertical) canvas

/-! ## Cells -/

/-- The byte in a cell. -/
def cell (self : Canvas) (x y : Nat) : Option UInt8 :=
  if x < self.cols ∧ y < self.rows then self.cells[y * self.cols + x]? else none

theorem index_lt {x y rows cols : Nat} (hx : x < cols) (hy : y < rows) :
    y * cols + x < rows * cols :=
  calc y * cols + x < y * cols + cols := Nat.add_lt_add_left hx _
    _ = (y + 1) * cols := (Nat.succ_mul y cols).symm
    _ ≤ rows * cols := Nat.mul_le_mul_right _ hy

/-- Different cells have different places. -/
theorem index_inj {x y a b cols : Nat} (hx : x < cols) (ha : a < cols)
    (h : y * cols + x = b * cols + a) : x = a ∧ y = b := by
  have hpos : 0 < cols := by omega
  have hdivmod : ∀ m n : Nat, n < cols → (m * cols + n) % cols = n ∧ (m * cols + n) / cols = m := by
    intro m n hn
    rw [Nat.mul_comm, Nat.mul_add_mod, Nat.mul_add_div hpos, Nat.mod_eq_of_lt hn,
      Nat.div_eq_of_lt hn]
    exact ⟨rfl, rfl⟩
  obtain ⟨hmod, hdiv⟩ := hdivmod y x hx
  obtain ⟨hmod', hdiv'⟩ := hdivmod b a ha
  rw [h] at hmod hdiv
  exact ⟨hmod.symm.trans hmod', hdiv.symm.trans hdiv'⟩

@[simp]
theorem rows_put (self : Canvas) (x y : Nat) (value : UInt8) :
    (self.put x y value).rows = self.rows := by
  unfold put
  split <;> rfl

@[simp]
theorem cols_put (self : Canvas) (x y : Nat) (value : UInt8) :
    (self.put x y value).cols = self.cols := by
  unfold put
  split <;> rfl

theorem cell_put (self : Canvas) {x y : Nat} {value : UInt8} (hx : x < self.cols)
    (hy : y < self.rows) : (self.put x y value).cell x y = some value := by
  unfold cell
  rw [rows_put, cols_put, if_pos ⟨hx, hy⟩, put, if_neg (by omega)]
  exact List.getElem?_set_self (self.size ▸ index_lt hx hy)

theorem cell_put_of_ne (self : Canvas) {x y a b : Nat} {value : UInt8} (h : ¬ (x = a ∧ y = b)) :
    (self.put x y value).cell a b = self.cell a b := by
  unfold cell
  rw [rows_put, cols_put]
  split
  · rename_i hab
    unfold put
    split
    · rfl
    · rename_i hxy
      refine List.getElem?_set_ne fun heq => h ?_
      exact index_inj (by omega) hab.1 heq
  · rfl

/-- Every change of a cell is the put of a byte that `P` allows there. -/
structure Paints (P : Nat → Nat → UInt8 → Prop) (c c' : Canvas) : Prop where
  rows : c'.rows = c.rows
  cols : c'.cols = c.cols
  cell : ∀ a b, c'.cell a b = c.cell a b ∨ ∃ value, c'.cell a b = some value ∧ P a b value

section Paints

variable {P Q : Nat → Nat → UInt8 → Prop} {c c' c'' : Canvas}

theorem Paints.refl (c : Canvas) : Paints P c c := ⟨rfl, rfl, fun _ _ => .inl rfl⟩

theorem Paints.trans (h : Paints P c c') (h' : Paints P c' c'') : Paints P c c'' where
  rows := h'.rows.trans h.rows
  cols := h'.cols.trans h.cols
  cell a b := by
    rcases h'.cell a b with heq | hput
    · rw [heq]
      exact h.cell a b
    · exact .inr hput

theorem Paints.mono (h : Paints P c c') (hPQ : ∀ a b value, P a b value → Q a b value) :
    Paints Q c c' where
  rows := h.rows
  cols := h.cols
  cell a b := (h.cell a b).imp_right fun ⟨value, hvalue, hP⟩ => ⟨value, hvalue, hPQ a b value hP⟩

/-- A cell where nothing may be put stays as it is. -/
theorem Paints.cell_eq (h : Paints P c c') {a b : Nat} (hnone : ∀ value, ¬ P a b value) :
    c'.cell a b = c.cell a b := by
  rcases h.cell a b with heq | ⟨value, -, hP⟩
  · exact heq
  · exact absurd hP (hnone value)

theorem paints_put {x y : Nat} {value : UInt8} (h : P x y value) : Paints P c (c.put x y value) where
  rows := rows_put c x y value
  cols := cols_put c x y value
  cell a b := by
    by_cases hxy : x = a ∧ y = b
    · obtain ⟨rfl, rfl⟩ := hxy
      by_cases hin : x < c.cols ∧ y < c.rows
      · exact .inr ⟨value, cell_put c hin.1 hin.2, h⟩
      · rw [put, if_pos (by omega)]
        exact .inl rfl
    · exact .inl (cell_put_of_ne c hxy)

theorem paints_foldl {α : Type} {f : Canvas → α → Canvas} {xs : List α}
    (h : ∀ c, ∀ a ∈ xs, Paints P c (f c a)) (c : Canvas) : Paints P c (xs.foldl f c) := by
  induction xs generalizing c with
  | nil => exact .refl c
  | cons a rest ih =>
      exact (h c a (List.mem_cons_self ..)).trans
        (ih (fun c b hb => h c b (List.mem_cons_of_mem _ hb)) _)

theorem paints_writeText {x y : Nat} {text : Bytes} {maxWidth : Nat}
    (h : ∀ index value, (text.take maxWidth)[index]? = some value → P (x + index) y value) :
    Paints P c (c.writeText x y text maxWidth) := by
  refine paints_foldl (fun c entry hentry => ?_) c
  exact paints_put (h entry.2 entry.1 (List.mem_zipIdx_iff_getElem?.mp hentry))

/-- A text is written from left to right, and no byte of it over another. -/
theorem cell_writeText {x y : Nat} {text : Bytes} {maxWidth index : Nat} {value : UInt8}
    (h : (text.take maxWidth)[index]? = some value) (hx : x + index < c.cols) (hy : y < c.rows) :
    (c.writeText x y text maxWidth).cell (x + index) y = some value := by
  have hfrom : ∀ (bytes : Bytes) (first index : Nat) (c : Canvas), bytes[index]? = some value →
      x + (first + index) < c.cols → y < c.rows →
      ((bytes.zipIdx first).foldl (fun canvas entry => canvas.put (x + entry.2) y entry.1) c).cell
        (x + (first + index)) y = some value := by
    intro bytes
    induction bytes with
    | nil => nofun
    | cons byte rest ih =>
        intro first index c hvalue hcol hrow
        rw [List.zipIdx_cons, List.foldl_cons]
        cases index with
        | zero =>
            rw [List.getElem?_cons_zero, Option.some.injEq] at hvalue
            subst hvalue
            -- The rest of the text goes to cells further right.
            have hrest : Paints (fun a _ _ => x + first < a) (c.put (x + first) y byte)
                ((rest.zipIdx (first + 1)).foldl
                  (fun canvas entry => canvas.put (x + entry.2) y entry.1)
                  (c.put (x + first) y byte)) := by
              refine paints_foldl (fun c entry hentry => paints_put ?_) _
              have hle := List.le_snd_of_mem_zipIdx hentry
              omega
            exact (hrest.cell_eq fun value h => Nat.lt_irrefl _ h).trans (cell_put c hcol hrow)
        | succ index =>
            have hplace : x + (first + (index + 1)) = x + (first + 1 + index) := by omega
            rw [hplace]
            rw [hplace] at hcol
            exact ih (first + 1) index _ hvalue (by rwa [cols_put]) (by rwa [rows_put])
  have hzero := hfrom (text.take maxWidth) 0 index c h (by omega) hy
  rwa [Nat.zero_add] at hzero

/-- A box is drawn in its rectangle. -/
theorem paints_drawBox {x y width height : Nat} {focused : Bool} (hwidth : 0 < width)
    (hheight : 0 < height)
    (h : ∀ a b value, Rect.Contains ⟨x, y, width, height⟩ a b → value ≠ newline → P a b value) :
    Paints P c (c.drawBox x y width height focused) := by
  have hput : ∀ (c : Canvas) (col row : Nat) (on off : UInt8), on ≠ newline → off ≠ newline →
      x ≤ col ∧ col < x + width → y ≤ row ∧ row < y + height →
      Paints P c (c.put col row (if focused then on else off)) := by
    intro c col row on off hon hoff hcol hrow
    refine paints_put (h _ _ _ ⟨hcol.1, hcol.2, hrow.1, hrow.2⟩ ?_)
    split <;> assumption
  unfold drawBox
  dsimp only
  split
  · -- One row.
    refine paints_foldl (fun c col hcol => ?_) c
    have hlt := List.mem_range.mp hcol
    exact hput c _ _ _ _ (by decide) (by decide) (by omega) (by omega)
  · split
    · -- One column.
      refine paints_foldl (fun c row hrow => ?_) c
      have hlt := List.mem_range.mp hrow
      exact hput c _ _ _ _ (by decide) (by decide) (by omega) (by omega)
    · -- The corners, then the rows between them, then the columns.
      have hcorner : ∀ c col row, x ≤ col ∧ col < x + width → y ≤ row ∧ row < y + height →
          Paints P c (c.put col row (if focused then 42 else 43)) := fun c col row =>
        hput c col row 42 43 (by decide) (by decide)
      have hcorners := (((hcorner c x y (by omega) (by omega)).trans
        (hcorner _ (x + width - 1) y (by omega) (by omega))).trans
        (hcorner _ x (y + height - 1) (by omega) (by omega))).trans
        (hcorner _ (x + width - 1) (y + height - 1) (by omega) (by omega))
      refine (hcorners.trans (paints_foldl (fun c col hcol => ?_) _)).trans
        (paints_foldl (fun c row hrow => ?_) _)
      · have hlt := List.mem_range'_1.mp hcol
        exact (hput c _ _ _ _ (by decide) (by decide) (by omega) (by omega)).trans
          (hput _ _ _ _ _ (by decide) (by decide) (by omega) (by omega))
      · have hlt := List.mem_range'_1.mp hrow
        exact (hput c _ _ _ _ (by decide) (by decide) (by omega) (by omega)).trans
          (hput _ _ _ _ _ (by decide) (by decide) (by omega) (by omega))

end Paints

/-! ## Lines -/

theorem mem_row {self : Canvas} {y : Nat} (hy : y < self.rows) {value : UInt8} :
    value ∈ self.row y ↔ ∃ x, self.cell x y = some value := by
  rw [row, List.mem_iff_getElem?]
  refine exists_congr fun x => ?_
  rw [List.getElem?_take, List.getElem?_drop, cell]
  by_cases hx : x < self.cols
  · rw [if_pos hx, if_pos ⟨hx, hy⟩]
  · rw [if_neg hx, if_neg fun h => hx h.1]

/-- The spaces that are left out are no newlines. -/
theorem newline_mem_rdropWhile {line : Bytes} :
    newline ∈ line.rdropWhile (· = space) ↔ newline ∈ line := by
  constructor
  · intro h
    exact (List.rdropWhile_prefix _ _).subset h
  · intro h
    rw [← List.rdropWhile_append_rtakeWhile (p := fun c => decide (c = space)) (l := line)] at h
    rcases List.mem_append.mp h with h | h
    · exact h
    · have hspace := List.mem_rtakeWhile_imp h
      exact absurd hspace (by decide)

/-- The output has a line for each row exactly when no cell holds a newline. -/
theorem lines_write_iff (self : Canvas) :
    (∃ lines, Lines newline self.write lines [] ∧ lines.length = self.rows ∧
      ∀ line ∈ lines, line.length ≤ self.cols) ↔ ∀ x y, self.cell x y ≠ some newline := by
  -- The rows as they are written, each of which a newline ends.
  obtain ⟨pieces, hpieces⟩ : ∃ pieces,
      pieces = (List.range self.rows).map fun y => (self.row y).rdropWhile (· = space) := ⟨_, rfl⟩
  have hwrite : self.write = pieces.flatMap (· ++ [newline]) := by
    rw [hpieces, List.flatMap_map]
    rfl
  have hlength : pieces.length = self.rows := by rw [hpieces, List.length_map, List.length_range]
  have hclean : (∀ piece ∈ pieces, newline ∉ piece) ↔ ∀ x y, self.cell x y ≠ some newline := by
    rw [hpieces, List.forall_mem_map]
    constructor
    · intro h x y hcell
      have hy : y < self.rows := by
        unfold cell at hcell
        split at hcell
        · rename_i hin
          exact hin.2
        · cases hcell
      exact h y (List.mem_range.mpr hy) (newline_mem_rdropWhile.mpr ((mem_row hy).mpr ⟨x, hcell⟩))
    · intro h y hy hmem
      obtain ⟨x, hcell⟩ := (mem_row (List.mem_range.mp hy)).mp (newline_mem_rdropWhile.mp hmem)
      exact h x y hcell
  rw [← hclean, hwrite]
  constructor
  · rintro ⟨lines, hlines, hrows, -⟩
    refine (count_flatMap_ended newline pieces).2.mp ?_
    rw [hlines.count_eq, hrows, hlength]
  · intro h
    refine ⟨pieces, ⟨(List.append_nil _).symm, h, List.not_mem_nil⟩, hlength, fun line hline => ?_⟩
    rw [hpieces] at hline
    obtain ⟨y, -, rfl⟩ := List.mem_map.mp hline
    exact (List.rdropWhile_prefix _ _).length_le.trans (List.length_take_le ..)

end Canvas

end Muxly.Viewer
