/-
# Muxly.Data.Lines -- a list as ended lines and an unfinished one

Every list falls in one way into lines that a separator ends and a rest that lacks it. A reader that
takes the list in pieces carries the rest from one piece to the next, so `unfinished` and how it
grows (`unfinished_append`) is all that a statement about the cutting needs.
-/
import Muxly.Data.Cut

namespace Muxly.Data

variable {α : Type} {sep : α} {xs rest line tail : List α} {lines : List (List α)}

/-- `xs` consists of `lines`, which `sep` ends, and of the unfinished `tail`. -/
structure Lines (sep : α) (xs : List α) (lines : List (List α)) (tail : List α) : Prop where
  whole : xs = lines.flatMap (· ++ [sep]) ++ tail
  line : ∀ line ∈ lines, sep ∉ line
  tail : sep ∉ tail

namespace Lines

theorem nil_iff : Lines sep xs [] tail ↔ xs = tail ∧ sep ∉ xs := by
  constructor
  · intro h
    have hxs : xs = tail := h.whole
    exact ⟨hxs, hxs ▸ h.tail⟩
  · rintro ⟨rfl, h⟩
    exact ⟨rfl, fun _ hline => absurd hline List.not_mem_nil, h⟩

theorem cons (hline : sep ∉ line) (h : Lines sep rest lines tail) :
    Lines sep (line ++ sep :: rest) (line :: lines) tail := by
  refine ⟨by simp [h.whole], fun other hmem => ?_, h.tail⟩
  rcases List.mem_cons.mp hmem with rfl | hmem
  · exact hline
  · exact h.line other hmem

theorem of_cons (h : Lines sep xs (line :: lines) tail) :
    ∃ rest, xs = line ++ sep :: rest ∧ sep ∉ line ∧ Lines sep rest lines tail :=
  ⟨lines.flatMap (· ++ [sep]) ++ tail, by simp [h.whole], h.line line (List.mem_cons_self ..),
    rfl, fun other hmem => h.line other (List.mem_cons_of_mem _ hmem), h.tail⟩

theorem sep_mem (h : Lines sep xs (line :: lines) tail) : sep ∈ xs := by
  obtain ⟨rest, rfl, -⟩ := h.of_cons
  simp

variable [DecidableEq α]

/-- The first line of a list is the first of its lines. -/
theorem tail_of_cons (h : Lines sep (line ++ sep :: rest) lines tail) (hline : sep ∉ line) :
    ∃ lines', lines = line :: lines' ∧ Lines sep rest lines' tail := by
  cases lines with
  | nil =>
      have hnot := (nil_iff.mp h).2
      simp at hnot
  | cons first lines =>
      obtain ⟨rest', hxs, hfirst, hrest⟩ := h.of_cons
      have hcut : cut sep (line ++ sep :: rest) = some (line, rest) := cut_append hline
      rw [hxs, cut_append hfirst] at hcut
      cases hcut
      exact ⟨lines, rfl, hrest⟩

/-- The lines of a beginning are the first lines. -/
theorem tail_of_append {ys tail' : List α} {lines' : List (List α)}
    (h : Lines sep (xs ++ ys) lines tail) (hfirst : Lines sep xs lines' tail') :
    ∃ lines'', lines = lines' ++ lines'' ∧ Lines sep (tail' ++ ys) lines'' tail := by
  induction lines' generalizing xs lines with
  | nil =>
      obtain ⟨rfl, -⟩ := nil_iff.mp hfirst
      exact ⟨lines, rfl, h⟩
  | cons line lines' ih =>
      obtain ⟨rest, rfl, hline, hrest⟩ := hfirst.of_cons
      rw [List.append_assoc, List.cons_append] at h
      obtain ⟨lines₀, rfl, hmore⟩ := h.tail_of_cons hline
      obtain ⟨lines'', rfl, hlast⟩ := ih hmore hrest
      exact ⟨lines'', rfl, hlast⟩

omit [DecidableEq α] in
theorem length_lt (h : Lines sep xs lines tail) (hmem : line ∈ lines) :
    line.length < xs.length := by
  induction lines generalizing xs with
  | nil => exact absurd hmem List.not_mem_nil
  | cons first lines ih =>
      obtain ⟨rest, rfl, -, hrest⟩ := h.of_cons
      rw [List.length_append, List.length_cons]
      rcases List.mem_cons.mp hmem with rfl | hmem
      · omega
      · have hless := ih hrest hmem
        omega

omit [DecidableEq α] in
theorem length_tail_le (h : Lines sep xs lines tail) : tail.length ≤ xs.length := by
  rw [h.whole, List.length_append]
  exact Nat.le_add_left ..

/-- Every separator ends a line. -/
theorem count_eq (h : Lines sep xs lines tail) : xs.count sep = lines.length := by
  induction lines generalizing xs with
  | nil => exact List.count_eq_zero.mpr (nil_iff.mp h).2
  | cons line lines ih =>
      obtain ⟨rest, rfl, hline, hrest⟩ := h.of_cons
      rw [List.count_append, List.count_cons_self, List.count_eq_zero.mpr hline, ih hrest,
        Nat.zero_add, List.length_cons]

omit [DecidableEq α] in
theorem exists_lines (sep : α) (xs : List α) : ∃ lines tail, Lines sep xs lines tail := by
  classical
  induction hlength : xs.length using Nat.strong_induction_on generalizing xs with
  | _ n ih =>
      cases hcut : cut sep xs with
      | none => exact ⟨[], xs, nil_iff.mpr ⟨rfl, cut_eq_none.mp hcut⟩⟩
      | some parts =>
          obtain ⟨line, rest⟩ := parts
          obtain ⟨rfl, hline⟩ := cut_eq_some.mp hcut
          have hless : rest.length < n := by
            rw [← hlength, List.length_append, List.length_cons]
            omega
          obtain ⟨lines, tail, h⟩ := ih rest.length hless rest rfl
          exact ⟨line :: lines, tail, h.cons hline⟩

end Lines

/-- A separator among the first elements ends a first line there. -/
theorem exists_line_of_mem_take {n : Nat} (h : sep ∈ xs.take n) :
    ∃ line rest, xs = line ++ sep :: rest ∧ sep ∉ line ∧ line.length < n := by
  classical
  obtain ⟨⟨line, rest⟩, hcut⟩ := Option.ne_none_iff_exists'.mp (mt cut_eq_none.mp (not_not.mpr h))
  obtain ⟨htake, hline⟩ := cut_eq_some.mp hcut
  refine ⟨line, rest ++ xs.drop n, ?_, hline, ?_⟩
  · rw [← List.cons_append, ← List.append_assoc, ← htake, List.take_append_drop]
  · have hlength := congrArg List.length htake
    rw [List.length_take, List.length_append, List.length_cons] at hlength
    omega

variable [DecidableEq α]

/-- Ended pieces hold a separator each, and no more exactly when each of them is one line. -/
theorem count_flatMap_ended (sep : α) (pieces : List (List α)) :
    pieces.length ≤ (pieces.flatMap (· ++ [sep])).count sep ∧
      ((pieces.flatMap (· ++ [sep])).count sep = pieces.length ↔ ∀ piece ∈ pieces, sep ∉ piece) := by
  induction pieces with
  | nil => simp
  | cons piece rest ih =>
      obtain ⟨hle, hiff⟩ := ih
      have hcount : ((piece :: rest).flatMap (· ++ [sep])).count sep
          = piece.count sep + 1 + (rest.flatMap (· ++ [sep])).count sep := by
        rw [List.flatMap_cons, List.count_append, List.count_append, List.count_singleton_self]
      rw [hcount, List.length_cons, List.forall_mem_cons, ← hiff, ← List.count_eq_zero]
      omega

/-- What stands after the last `sep`. -/
def unfinished (sep : α) (xs : List α) : List α :=
  match cutLast sep xs with
  | some (_, after) => after
  | none => xs

theorem unfinished_append_cons (before : List α) (h : sep ∉ tail) :
    unfinished sep (before ++ sep :: tail) = tail := by
  rw [unfinished, cutLast_append h]

theorem unfinished_eq_self (h : sep ∉ xs) : unfinished sep xs = xs := by
  rw [unfinished, cutLast_eq_none.mpr h]

@[simp]
theorem unfinished_nil : unfinished sep [] = [] := unfinished_eq_self List.not_mem_nil

theorem sep_notMem_unfinished (sep : α) (xs : List α) : sep ∉ unfinished sep xs := by
  rw [unfinished]
  split
  · rename_i before after h
    exact (cutLast_eq_some.mp h).2
  · rename_i h
    exact cutLast_eq_none.mp h

theorem length_unfinished_le (sep : α) (xs : List α) : (unfinished sep xs).length ≤ xs.length := by
  rw [unfinished]
  split
  · rename_i before after h
    rw [(cutLast_eq_some.mp h).1, List.length_append, List.length_cons]
    omega
  · exact Nat.le_refl _

/-- A list without its first line has the same rest. -/
theorem unfinished_cons_line (line rest : List α) :
    unfinished sep (line ++ sep :: rest) = unfinished sep rest := by
  cases hcut : cutLast sep rest with
  | none =>
      have hrest := cutLast_eq_none.mp hcut
      rw [unfinished_append_cons line hrest, unfinished_eq_self hrest]
  | some parts =>
      obtain ⟨before, after⟩ := parts
      obtain ⟨rfl, hafter⟩ := cutLast_eq_some.mp hcut
      have hwhole : line ++ sep :: (before ++ sep :: after) =
          (line ++ sep :: before) ++ sep :: after := by simp
      rw [hwhole, unfinished_append_cons _ hafter, unfinished_append_cons _ hafter]

/-- What follows meets the rest only. -/
theorem unfinished_append (xs ys : List α) :
    unfinished sep (unfinished sep xs ++ ys) = unfinished sep (xs ++ ys) := by
  cases hcut : cutLast sep xs with
  | none => rw [unfinished_eq_self (cutLast_eq_none.mp hcut)]
  | some parts =>
      obtain ⟨before, after⟩ := parts
      obtain ⟨rfl, hafter⟩ := cutLast_eq_some.mp hcut
      rw [unfinished_append_cons _ hafter, List.append_assoc, List.cons_append,
        unfinished_cons_line]

theorem Lines.unfinished_eq (h : Lines sep xs lines tail) : unfinished sep xs = tail := by
  induction lines generalizing xs with
  | nil =>
      obtain ⟨rfl, hxs⟩ := Lines.nil_iff.mp h
      exact unfinished_eq_self hxs
  | cons line lines ih =>
      obtain ⟨rest, rfl, -, hrest⟩ := h.of_cons
      rw [unfinished_cons_line, ih hrest]

end Muxly.Data
