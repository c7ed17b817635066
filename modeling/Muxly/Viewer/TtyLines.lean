/-
# Muxly.Viewer.TtyLines -- the newest lines of a tty in its region

`overlayTtyFrame` of `state.zig` puts the output of an attached tty into its region. The lines are
split and windowed by `renderTtyLines`; how far the region is scrolled is counted a second time, by
`countRenderedScrollMax`, which looks at the last byte of the buffer where the first looks at the last
line.
-/
import Mathlib.Data.List.DropRight
import Muxly.Data.Cut
import Muxly.Viewer.Render

namespace Muxly.Viewer

open Muxly.Core Muxly.Data

/-! ## The two counts -/

/-- The lines that `renderTtyLines` keeps, without the empty ones at the end. -/
def keptLines (buffer : Bytes) : List Bytes :=
  ((buffer.splitOn newline).map trimTrailingCarriageReturn).rdropWhile (· = [])

/-- `renderTtyLines`. -/
def renderTtyLines (buffer : Bytes) (maxLines : Nat) : List Bytes :=
  let allLines := keptLines buffer
  let start := if allLines.length > maxLines then allLines.length - maxLines else 0
  allLines.drop start

/-- The second loop of `countRenderedScrollMax`. The buffer does not change while it runs. -/
def uncountNewlines (buffer : Bytes) : Nat → Nat
  | 0 => 0
  | count + 1 =>
    if buffer ≠ [] ∧ buffer.getLast? = some newline then uncountNewlines buffer count else count + 1

/-- `countRenderedScrollMax`. -/
def countRenderedScrollMax (buffer : Bytes) (innerHeight : Nat) : Nat :=
  if innerHeight = 0 then 0
  else
    let count := (buffer.splitOn newline).length
    if count = 0 then 0
    else
      let count := uncountNewlines buffer count
      if count > innerHeight then count - innerHeight else 0

/-- `replaceRegionLines`. -/
def replaceRegionLines (buffer : Bytes) (region : ProjectionRegion) : ProjectionRegion :=
  let innerHeight := innerExtent region.height
  let slices := renderTtyLines buffer innerHeight
  let scrollMax := countRenderedScrollMax buffer innerHeight
  { region with
    lines := slices
    scrollable := decide (scrollMax ≠ 0)
    scrollTop := scrollMax
    scrollMax := scrollMax }

/-! ## When they agree -/

/-- All lines after the first `height` are empty, or hold a carriage return and nothing else. -/
def FitsLines (buffer : Bytes) (height : Nat) : Prop :=
  ∀ line ∈ (buffer.splitOn newline).drop height, line = [] ∨ line = [13]

/-- What a buffer that ends in a newline, or in a lone carriage return, has to keep to. -/
structure CountsLines (buffer : Bytes) (height : Nat) : Prop where
  newline : buffer.getLast? = some newline → FitsLines buffer height
  carriageReturn : (buffer.splitOn Core.newline).getLast? = some [13] →
    (buffer.splitOn Core.newline).length ≤ height

theorem trimTrailingCarriageReturn_eq_nil {line : Bytes} :
    trimTrailingCarriageReturn line = [] ↔ line = [] ∨ line = [13] := by
  unfold trimTrailingCarriageReturn
  constructor
  · intro h
    split at h
    · rename_i hlast
      obtain ⟨front, rfl⟩ := List.getLast?_eq_some_iff.mp hlast
      rw [List.dropLast_concat] at h
      subst h
      exact .inr rfl
    · exact .inl h
  · rintro (rfl | rfl) <;> rfl

/-- A list is cut down to at most `n` elements exactly when all after the first `n` can go. -/
theorem length_rdropWhile_le {α : Type} {p : α → Bool} {xs : List α} {n : Nat} :
    (xs.rdropWhile p).length ≤ n ↔ ∀ x ∈ xs.drop n, p x = true := by
  have hsplit : xs.rdropWhile p ++ xs.rtakeWhile p = xs := List.rdropWhile_append_rtakeWhile
  constructor
  · intro hle x hx
    rw [← hsplit, List.drop_append, List.drop_eq_nil_of_le hle, List.nil_append] at hx
    exact List.mem_rtakeWhile_imp (List.mem_of_mem_drop hx)
  · intro hall
    by_contra hlong
    have hne : xs.rdropWhile p ≠ [] := by
      intro hnil
      rw [hnil] at hlong
      exact hlong (Nat.zero_le n)
    -- The last element that is kept stands behind the first `n`.
    have hxs : (xs.rdropWhile p).dropLast ++
        ((xs.rdropWhile p).getLast hne :: xs.rtakeWhile p) = xs := by
      rw [List.append_cons, List.dropLast_append_getLast hne, hsplit]
    have hfront : n ≤ (xs.rdropWhile p).dropLast.length := by
      rw [List.length_dropLast]
      omega
    have hmem : (xs.rdropWhile p).getLast hne ∈ ((xs.rdropWhile p).dropLast ++
        ((xs.rdropWhile p).getLast hne :: xs.rtakeWhile p)).drop n := by
      rw [List.drop_append_of_le_length hfront]
      exact List.mem_append_right _ (List.mem_cons_self ..)
    rw [hxs] at hmem
    exact List.rdropWhile_last_not p xs hne (hall _ hmem)

theorem length_keptLines_le {buffer : Bytes} {height : Nat} :
    (keptLines buffer).length ≤ height ↔ FitsLines buffer height := by
  rw [keptLines, length_rdropWhile_le, ← List.map_drop, List.forall_mem_map]
  simp only [decide_eq_true_eq, trimTrailingCarriageReturn_eq_nil]
  rfl

theorem length_keptLines_le_length (buffer : Bytes) :
    (keptLines buffer).length ≤ (buffer.splitOn newline).length := by
  have hprefix := (List.rdropWhile_prefix (fun line : Bytes => decide (line = []))
    (l := (buffer.splitOn newline).map trimTrailingCarriageReturn)).length_le
  rwa [List.length_map] at hprefix

/-- A newline at the end makes the loop count back to zero; otherwise it does not run. -/
theorem uncountNewlines_eq (buffer : Bytes) (count : Nat) :
    uncountNewlines buffer count = if buffer.getLast? = some newline then 0 else count := by
  induction count with
  | zero => simp [uncountNewlines]
  | succ count ih =>
      rw [uncountNewlines]
      by_cases hlast : buffer.getLast? = some newline
      · have hne : buffer ≠ [] := by
          rintro rfl
          cases hlast
        rw [if_pos ⟨hne, hlast⟩, ih, if_pos hlast, if_pos hlast]
      · rw [if_neg fun h => hlast h.2, if_neg hlast]

theorem countRenderedScrollMax_eq {buffer : Bytes} {height : Nat} (h : 0 < height) :
    countRenderedScrollMax buffer height =
      if buffer.getLast? = some newline then 0
      else (buffer.splitOn newline).length - height := by
  have hsome : (buffer.splitOn newline).length ≠ 0 :=
    fun hzero => List.splitOn_ne_nil newline buffer (List.length_eq_zero_iff.mp hzero)
  rw [countRenderedScrollMax, if_neg (by omega)]
  simp only [if_neg hsome, uncountNewlines_eq]
  split
  · exact if_neg (by omega)
  · split <;> omega

/-- The last line is what follows the last newline. -/
theorem getLast?_splitOn (buffer : Bytes) :
    (buffer.splitOn newline).getLast? = some ((cutLast newline buffer).elim buffer Prod.snd) := by
  cases hcut : cutLast newline buffer with
  | none => rw [List.splitOn_eq_singleton (cutLast_eq_none.mp hcut)]; rfl
  | some p =>
      obtain ⟨before, after⟩ := p
      obtain ⟨rfl, hafter⟩ := cutLast_eq_some.mp hcut
      rw [List.splitOn_append_cons_self, List.splitOn_eq_singleton hafter, List.getLast?_concat]
      rfl

/-- Only a buffer that is empty, or ends in a newline, has an empty last line. -/
theorem getLast?_splitOn_eq_nil {buffer : Bytes}
    (h : (buffer.splitOn newline).getLast? = some []) :
    buffer = [] ∨ buffer.getLast? = some newline := by
  rw [getLast?_splitOn] at h
  cases hcut : cutLast newline buffer with
  | none =>
      rw [hcut] at h
      exact .inl (Option.some.inj h)
  | some p =>
      obtain ⟨before, after⟩ := p
      obtain ⟨rfl, -⟩ := cutLast_eq_some.mp hcut
      rw [hcut] at h
      obtain rfl : after = [] := Option.some.inj h
      exact .inr List.getLast?_concat

/-- A last line that is a carriage return is not kept. -/
theorem length_keptLines_of_return {buffer : Bytes}
    (h : (buffer.splitOn newline).getLast? = some [13]) :
    (keptLines buffer).length ≤ (buffer.splitOn newline).length - 1 := by
  rw [length_keptLines_le]
  intro line hline
  obtain ⟨front, hfront⟩ := List.getLast?_eq_some_iff.mp h
  rw [hfront, List.length_append, List.length_singleton, Nat.add_sub_cancel,
    List.drop_left, List.mem_singleton] at hline
  exact .inr hline

/-- If the last line shows something, every line is kept. -/
theorem keptLines_eq_map {buffer : Bytes} (hne : buffer ≠ [])
    (hnewline : buffer.getLast? ≠ some newline)
    (hreturn : (buffer.splitOn newline).getLast? ≠ some [13]) :
    keptLines buffer = (buffer.splitOn newline).map trimTrailingCarriageReturn := by
  rw [keptLines, List.rdropWhile_eq_self_iff]
  intro hmap
  obtain ⟨front, last, hfront⟩ : ∃ front last, buffer.splitOn newline = front ++ [last] :=
    ⟨_, _, (List.dropLast_append_getLast (List.splitOn_ne_nil newline buffer)).symm⟩
  have hlast : (buffer.splitOn newline).getLast? = some last := by
    rw [hfront, List.getLast?_concat]
  intro hblank
  have htrim : trimTrailingCarriageReturn last = [] := by simpa [hfront] using hblank
  rcases trimTrailingCarriageReturn_eq_nil.mp htrim with rfl | rfl
  · exact (getLast?_splitOn_eq_nil hlast).elim hne hnewline
  · exact hreturn hlast

/-- For every buffer and every height, the count agrees with the lines that are kept exactly when a
newline at the end, or a last line that is a carriage return, comes with lines that fit anyway. Where
it agrees, the lines shown are those from the scroll position on. -/
theorem scrollMax_iff (buffer : Bytes) {height : Nat} (h : 0 < height) :
    (countRenderedScrollMax buffer height = (keptLines buffer).length - height ↔
        CountsLines buffer height) ∧
      (countRenderedScrollMax buffer height = (keptLines buffer).length - height →
        renderTtyLines buffer height =
          (keptLines buffer).drop (countRenderedScrollMax buffer height)) := by
  constructor
  · rw [countRenderedScrollMax_eq h]
    by_cases hnewline : buffer.getLast? = some newline
    · -- The count is zero, and the last line is empty.
      rw [if_pos hnewline]
      have hlast : (buffer.splitOn newline).getLast? ≠ some [13] := by
        obtain ⟨front, rfl⟩ := List.getLast?_eq_some_iff.mp hnewline
        rw [getLast?_splitOn, cutLast_append List.not_mem_nil]
        exact nofun
      constructor
      · intro heq
        exact ⟨fun _ => length_keptLines_le.mp (by omega), fun hreturn => absurd hreturn hlast⟩
      · intro hcounts
        have hle := length_keptLines_le.mpr (hcounts.newline hnewline)
        omega
    · rw [if_neg hnewline]
      have hle := length_keptLines_le_length buffer
      by_cases hreturn : (buffer.splitOn newline).getLast? = some [13]
      · -- One line at least is dropped from the lines that are counted.
        have hless := length_keptLines_of_return hreturn
        have hsome : (buffer.splitOn newline).length ≠ 0 :=
          fun hzero => List.splitOn_ne_nil newline buffer (List.length_eq_zero_iff.mp hzero)
        constructor
        · intro heq
          exact ⟨fun hlast => absurd hlast hnewline, fun _ => by omega⟩
        · intro hcounts
          have hfits := hcounts.carriageReturn hreturn
          omega
      · refine ⟨fun _ => ⟨fun hlast => absurd hlast hnewline,
          fun hlast => absurd hlast hreturn⟩, fun _ => ?_⟩
        by_cases hempty : buffer = []
        · subst hempty
          rw [List.splitOn_nil, List.length_singleton]
          have hnone : keptLines [] = [] := by decide
          rw [hnone, List.length_nil]
          omega
        · rw [keptLines_eq_map hempty hnewline hreturn, List.length_map]
  · intro heq
    rw [heq, renderTtyLines]
    split
    · rfl
    · rw [Nat.sub_eq_zero_of_le (by omega)]

theorem scrollMax_iff_prompt :
    (countRenderedScrollMax (ascii "one\ntwo\n$ ") 2 = (keptLines (ascii "one\ntwo\n$ ")).length - 2 ↔
        CountsLines (ascii "one\ntwo\n$ ") 2) ∧
      (countRenderedScrollMax (ascii "one\ntwo\n$ ") 2 =
          (keptLines (ascii "one\ntwo\n$ ")).length - 2 →
        renderTtyLines (ascii "one\ntwo\n$ ") 2 = (keptLines (ascii "one\ntwo\n$ ")).drop
          (countRenderedScrollMax (ascii "one\ntwo\n$ ") 2)) :=
  scrollMax_iff (ascii "one\ntwo\n$ ") (by decide)

/-- Three lines, each ended by a newline, in a region with room for one: two are scrolled away, and
the region says that none is. -/
theorem newline_hides_scroll :
    keptLines (ascii "one\ntwo\nthree\n") = [ascii "one", ascii "two", ascii "three"] ∧
      renderTtyLines (ascii "one\ntwo\nthree\n") 1 = [ascii "three"] ∧
      countRenderedScrollMax (ascii "one\ntwo\nthree\n") 1 = 0 ∧
      ¬ ∀ buffer height, 0 < height →
        countRenderedScrollMax buffer height = (keptLines buffer).length - height := by
  refine ⟨by decide, by decide, by decide, fun h => ?_⟩
  have hthree := h (ascii "one\ntwo\nthree\n") 1 (by decide)
  revert hthree
  decide

end Muxly.Viewer
