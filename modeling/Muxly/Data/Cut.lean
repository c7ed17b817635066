/-
# Muxly.Data.Cut -- a list cut at a separator

The searches for the first and the last occurrence of an element, and for the first occurrence of a
list, with what stands before and after it. Each search is characterised by the decomposition that it
finds, so that a reader of texts can be compared with the writer that put the separator there.
-/
import Mathlib.Algebra.BigOperators.Ring.List
import Mathlib.Algebra.Order.Ring.Nat
import Mathlib.Data.List.Basic
import Mathlib.Data.List.Infix

namespace Muxly.Data

variable {α : Type} [DecidableEq α] {sep : α} {xs before after : List α}

/-! ## The first occurrence -/

/-- What stands before and after the first `sep`. -/
def cut (sep : α) : List α → Option (List α × List α)
  | [] => none
  | x :: xs => if x = sep then some ([], xs) else (cut sep xs).map fun p => (x :: p.1, p.2)

theorem cut_eq_some :
    cut sep xs = some (before, after) ↔ xs = before ++ sep :: after ∧ sep ∉ before := by
  induction xs generalizing before with
  | nil => simp [cut]
  | cons x xs ih =>
      rw [cut]
      by_cases hx : x = sep
      · subst hx
        rw [if_pos rfl]
        constructor
        · intro h
          cases h
          exact ⟨rfl, List.not_mem_nil⟩
        · rintro ⟨heq, hnot⟩
          cases before with
          | nil =>
              cases heq
              rfl
          | cons b before =>
              cases heq
              exact absurd (List.mem_cons_self ..) hnot
      · rw [if_neg hx, Option.map_eq_some_iff]
        constructor
        · rintro ⟨⟨before', after'⟩, hcut, heq⟩
          cases heq
          obtain ⟨rfl, hnot⟩ := ih.mp hcut
          exact ⟨rfl, by simp [Ne.symm hx, hnot]⟩
        · rintro ⟨heq, hnot⟩
          cases before with
          | nil =>
              cases heq
              exact absurd rfl hx
          | cons b before =>
              cases heq
              exact ⟨(before, after), ih.mpr ⟨rfl, fun h => hnot (List.mem_cons_of_mem _ h)⟩, rfl⟩

theorem cut_append (h : sep ∉ before) : cut sep (before ++ sep :: after) = some (before, after) :=
  cut_eq_some.mpr ⟨rfl, h⟩

theorem cut_eq_none : cut sep xs = none ↔ sep ∉ xs := by
  induction xs with
  | nil => simp [cut]
  | cons x xs ih =>
      rw [cut]
      by_cases hx : x = sep
      · simp [hx]
      · rw [if_neg hx, Option.map_eq_none_iff, ih]
        simp [Ne.symm hx]

/-- What precedes a `sep`-free prefix is cut with it. -/
theorem cut_append_left (h : sep ∉ before) :
    cut sep (before ++ xs) = (cut sep xs).map fun p => (before ++ p.1, p.2) := by
  induction before with
  | nil => simp
  | cons b before ih =>
      have hb : b ≠ sep := fun heq => h (heq ▸ List.mem_cons_self ..)
      rw [List.cons_append, cut, if_neg hb, ih fun hmem => h (List.mem_cons_of_mem _ hmem),
        Option.map_map]
      rfl

/-! ## The last occurrence -/

/-- What stands before and after the last `sep`. -/
def cutLast (sep : α) (xs : List α) : Option (List α × List α) :=
  (cut sep xs.reverse).map fun p => (p.2.reverse, p.1.reverse)

theorem cutLast_eq_some :
    cutLast sep xs = some (before, after) ↔ xs = before ++ sep :: after ∧ sep ∉ after := by
  rw [cutLast, Option.map_eq_some_iff]
  constructor
  · rintro ⟨⟨after', before'⟩, hcut, heq⟩
    cases heq
    obtain ⟨hxs, hnot⟩ := cut_eq_some.mp hcut
    refine ⟨?_, by simpa using hnot⟩
    rw [← List.reverse_reverse xs, hxs]
    simp
  · rintro ⟨rfl, hnot⟩
    refine ⟨(after.reverse, before.reverse), cut_eq_some.mpr ⟨by simp, by simpa using hnot⟩, ?_⟩
    simp

theorem cutLast_append (h : sep ∉ after) :
    cutLast sep (before ++ sep :: after) = some (before, after) :=
  cutLast_eq_some.mpr ⟨rfl, h⟩

theorem cutLast_eq_none : cutLast sep xs = none ↔ sep ∉ xs := by
  rw [cutLast, Option.map_eq_none_iff, cut_eq_none, List.mem_reverse]

/-! ## The first occurrence of a list -/

/-- What stands before and after the first occurrence of the list `sep`. -/
def cutSeq (sep : List α) : List α → Option (List α × List α)
  | [] => if sep = [] then some ([], []) else none
  | x :: xs =>
    if sep.isPrefixOf (x :: xs) then some ([], (x :: xs).drop sep.length)
    else (cutSeq sep xs).map fun p => (x :: p.1, p.2)

/-- A list is found where it is put, if it does not begin earlier. -/
theorem cutSeq_append {sep : List α} (hsep : sep ≠ []) (h : ¬sep <:+: before ++ sep.dropLast) :
    cutSeq sep (before ++ (sep ++ after)) = some (before, after) := by
  induction before with
  | nil =>
      obtain ⟨c, rest, rfl⟩ := List.exists_cons_of_ne_nil hsep
      rw [List.nil_append, List.cons_append, cutSeq, if_pos]
      · simp
      · rw [List.isPrefixOf_iff_prefix, ← List.cons_append]
        exact List.prefix_append ..
  | cons b before ih =>
      have hlater : ¬sep <:+: before ++ sep.dropLast := fun hpart =>
        h (hpart.trans (List.suffix_cons ..).isInfix)
      have hnow : ¬sep <+: b :: (before ++ (sep ++ after)) := by
        intro hprefix
        apply h
        have hwhole : (b :: before) ++ sep.dropLast <+: b :: (before ++ (sep ++ after)) := by
          refine ⟨sep.getLast hsep :: after, ?_⟩
          conv_rhs => rw [← List.dropLast_append_getLast hsep]
          simp
        have hlength : sep.length ≤ ((b :: before) ++ sep.dropLast).length := by
          simp only [List.length_append, List.length_cons, List.length_dropLast]
          omega
        exact (List.prefix_of_prefix_length_le hprefix hwhole hlength).isInfix
      rw [List.cons_append, cutSeq, if_neg (by rwa [List.isPrefixOf_iff_prefix]), ih hlater]
      rfl

theorem eq_of_cutSeq {sep : List α} (h : cutSeq sep xs = some (before, after)) :
    xs = before ++ (sep ++ after) := by
  induction xs generalizing before with
  | nil =>
      rw [cutSeq] at h
      split at h
      · rename_i hsep
        cases h
        simp [hsep]
      · cases h
  | cons x xs ih =>
      rw [cutSeq] at h
      split at h
      · rename_i hprefix
        cases h
        obtain ⟨t, ht⟩ := List.isPrefixOf_iff_prefix.mp hprefix
        rw [← ht]
        simp
      · obtain ⟨⟨before', after'⟩, hcut, heq⟩ := Option.map_eq_some_iff.mp h
        cases heq
        rw [ih hcut, List.cons_append]

/-- It does not occur before the place where it is found. -/
theorem not_infix_of_cutSeq {sep : List α} (hsep : sep ≠ [])
    (h : cutSeq sep xs = some (before, after)) : ¬sep <:+: before := by
  induction xs generalizing before with
  | nil =>
      rw [cutSeq, if_neg hsep] at h
      cases h
  | cons x xs ih =>
      rw [cutSeq] at h
      split at h
      · cases h
        exact fun hpart => hsep (List.infix_nil.mp hpart)
      · rename_i hnow
        obtain ⟨⟨before', after'⟩, hcut, heq⟩ := Option.map_eq_some_iff.mp h
        cases heq
        rw [List.infix_cons_iff]
        rintro (hfront | hpart)
        · rw [eq_of_cutSeq hcut, List.isPrefixOf_iff_prefix, ← List.cons_append] at hnow
          exact hnow (hfront.trans (List.prefix_append ..))
        · exact ih hcut hpart

theorem cutSeq_eq_none {sep : List α} : cutSeq sep xs = none ↔ ¬sep <:+: xs := by
  induction xs with
  | nil =>
      rw [cutSeq]
      by_cases hsep : sep = [] <;> simp [hsep]
  | cons x xs ih =>
      rw [cutSeq, List.infix_cons_iff]
      by_cases hprefix : sep <+: x :: xs
      · simp [List.isPrefixOf_iff_prefix, hprefix]
      · simp [List.isPrefixOf_iff_prefix, hprefix, ih]

/-- What precedes an element that `sep` lacks is passed over with it. -/
theorem cutSeq_append_cons {sep ys : List α} {c : α} (hsep : sep ≠ []) (hc : c ∉ sep)
    (h : ¬sep <:+: xs) :
    cutSeq sep (xs ++ c :: ys) = (cutSeq sep ys).map fun p => (xs ++ c :: p.1, p.2) := by
  induction xs with
  | nil =>
      obtain ⟨d, rest, rfl⟩ := List.exists_cons_of_ne_nil hsep
      have hd : d ≠ c := fun heq => hc (heq ▸ List.mem_cons_self ..)
      rw [List.nil_append, cutSeq, if_neg (by simp [hd])]
      rfl
  | cons x xs ih =>
      have hlater : ¬sep <:+: xs := fun hpart => h (hpart.trans (List.suffix_cons ..).isInfix)
      have hnow : ¬sep <+: x :: (xs ++ c :: ys) := by
        rintro ⟨t, ht⟩
        rcases List.append_eq_append_iff.mp (ht.trans (List.cons_append ..).symm) with
          ⟨middle, hxs, -⟩ | ⟨middle, heq, hrest⟩
        · exact h (hxs ▸ (List.prefix_append ..).isInfix)
        · cases middle with
          | nil =>
              rw [List.append_nil] at heq
              exact h (heq ▸ List.infix_rfl)
          | cons d middle =>
              obtain ⟨rfl, -⟩ := List.cons_eq_cons.mp hrest
              exact hc (heq ▸ List.mem_append_right _ (List.mem_cons_self ..))
      rw [List.cons_append, cutSeq, if_neg (by rwa [List.isPrefixOf_iff_prefix]), ih hlater,
        Option.map_map]
      rfl

/-- A list lies on one side of an element that it lacks. -/
theorem infix_append_cons {sep ys : List α} {c : α} (hc : c ∉ sep) (h : sep <:+: xs ++ c :: ys) :
    sep <:+: xs ∨ sep <:+: ys := by
  by_cases hsep : sep = []
  · exact .inl (hsep ▸ List.nil_infix)
  · by_contra hneither
    obtain ⟨hxs, hys⟩ := not_or.mp hneither
    refine cutSeq_eq_none.mp ?_ h
    rw [cutSeq_append_cons hsep hc hxs, cutSeq_eq_none.mpr hys]
    rfl

omit [DecidableEq α] in
/-- A list that ends with an element that the rest lacks lies before the rest. -/
theorem infix_of_infix_append {u rest : List α} {c : α} (hc : c ∉ rest)
    (h : u ++ [c] <:+: before ++ rest) : u ++ [c] <:+: before := by
  obtain ⟨s, t, heq⟩ := h
  have hsplit : (s ++ u) ++ c :: t = before ++ rest := by
    rw [← heq]
    simp
  obtain ⟨middle, hbefore, hrest⟩ | ⟨middle, hprefix, hrest⟩ :=
    List.append_eq_append_iff.mp hsplit
  · cases middle with
    | nil =>
        rw [List.nil_append] at hrest
        exact absurd (hrest ▸ List.mem_cons_self ..) hc
    | cons d middle =>
        obtain ⟨rfl, -⟩ := List.cons_eq_cons.mp hrest
        exact ⟨s, middle, by simp [hbefore]⟩
  · exact absurd (hrest ▸ List.mem_append_right _ (List.mem_cons_self ..)) hc

/-! ## The pieces between separators -/

theorem notMem_of_mem_splitOn {piece : List α} (h : piece ∈ xs.splitOn sep) : sep ∉ piece := by
  induction xs generalizing piece with
  | nil =>
      rw [List.splitOn_nil, List.mem_singleton] at h
      simp [h]
  | cons x xs ih =>
      rw [List.splitOn_cons_eq_if_modifyHead] at h
      split at h
      · rcases List.mem_cons.mp h with rfl | h
        · exact List.not_mem_nil
        · exact ih h
      · rename_i hx
        cases hpieces : xs.splitOn sep with
        | nil => exact absurd hpieces (List.splitOn_ne_nil sep xs)
        | cons first pieces =>
            rw [hpieces] at h ih
            rcases List.mem_cons.mp h with rfl | h
            · have hne : sep ≠ x := fun heq => hx (by simp [heq])
              simp [hne, ih (List.mem_cons_self ..)]
            · exact ih (List.mem_cons_of_mem _ h)

omit [DecidableEq α] in
theorem infix_intercalate {piece : List α} {pieces : List (List α)} (h : piece ∈ pieces) :
    piece <:+: [sep].intercalate pieces := by
  induction pieces with
  | nil => cases h
  | cons first pieces ih =>
      cases pieces with
      | nil =>
          rw [List.mem_singleton.mp h]
          simp
      | cons second pieces =>
          rw [List.intercalate_cons_cons]
          rcases List.mem_cons.mp h with rfl | h
          · exact (List.prefix_append ..).isInfix.trans (List.prefix_append ..).isInfix
          · exact (ih h).trans (List.suffix_append ..).isInfix

/-- A piece is a part of the list. -/
theorem infix_of_mem_splitOn {piece : List α} (h : piece ∈ xs.splitOn sep) : piece <:+: xs := by
  have hwhole : piece <:+: [sep].intercalate (xs.splitOn sep) := infix_intercalate h
  rwa [List.intercalate_splitOn] at hwhole

/-- Between two separators stands an empty piece. -/
theorem nil_mem_splitOn (before after : List α) :
    [] ∈ (before ++ sep :: sep :: after).splitOn sep := by
  rw [List.splitOn_append_cons_self]
  have hnil := List.splitOn_append_cons_self (a := sep) [] after
  rw [List.nil_append, List.splitOn_nil] at hnil
  rw [hnil]
  simp

omit [DecidableEq α] in
/-- With a separator in front, a list is its pieces with a separator before each. -/
theorem cons_intercalate {pieces : List (List α)} (h : pieces ≠ []) :
    sep :: [sep].intercalate pieces = pieces.flatMap (sep :: ·) := by
  induction pieces with
  | nil => exact absurd rfl h
  | cons first pieces ih =>
      cases pieces with
      | nil => simp
      | cons second pieces =>
          rw [List.intercalate_cons_cons, List.flatMap_cons, ← ih (List.cons_ne_nil _ _)]
          simp

/-- An empty piece stands at the end, or behind a separator or the start and before a separator. -/
theorem nil_mem_splitOn_iff (hxs : xs ≠ []) :
    [] ∈ xs.splitOn sep ↔ xs.getLast? = some sep ∨ [sep, sep] <:+: sep :: xs := by
  constructor
  · intro hnil
    obtain ⟨front, back, hpieces⟩ := List.append_of_mem hnil
    have hwhole := @cons_intercalate _ sep _ (List.splitOn_ne_nil sep xs)
    rw [List.intercalate_splitOn, hpieces, List.flatMap_append, List.flatMap_cons] at hwhole
    cases back with
    | nil =>
        refine .inl ?_
        have hlast := congrArg List.getLast? hwhole
        obtain ⟨x, rest, rfl⟩ := List.exists_cons_of_ne_nil hxs
        simpa [List.getLast?_cons_cons] using hlast
    | cons second back =>
        refine .inr ⟨front.flatMap (sep :: ·), second ++ back.flatMap (sep :: ·), ?_⟩
        rw [hwhole]
        simp
  · rintro (hlast | ⟨front, back, heq⟩)
    · obtain ⟨front, rfl⟩ := List.getLast?_eq_some_iff.mp hlast
      rw [List.splitOn_append_cons_self]
      simp
    · simp only [List.append_assoc, List.cons_append, List.nil_append] at heq
      cases front with
      | nil =>
          obtain ⟨-, rfl⟩ := List.cons.inj heq
          rw [List.splitOn_cons_eq_if_modifyHead, if_pos (by simp)]
          exact List.mem_cons_self ..
      | cons c front =>
          obtain ⟨-, rfl⟩ := List.cons.inj heq
          exact nil_mem_splitOn front back

/-- Nothing but separators is lost between the pieces. -/
theorem sum_countP_splitOn (sep : α) (xs : List α) :
    ((xs.splitOn sep).map fun piece => piece.countP (· ≠ sep)).sum = xs.countP (· ≠ sep) := by
  induction xs with
  | nil => simp
  | cons x xs ih =>
      rw [List.splitOn_cons_eq_if_modifyHead, List.countP_cons]
      by_cases hx : x = sep
      · subst hx
        rw [if_pos (by simp), List.map_cons, List.sum_cons, ih]
        simp
      · rw [if_neg (by simpa using hx)]
        cases hpieces : xs.splitOn sep with
        | nil => exact absurd hpieces (List.splitOn_ne_nil sep xs)
        | cons first pieces =>
            rw [hpieces, List.map_cons, List.sum_cons] at ih
            simp only [List.modifyHead_cons, List.map_cons, List.sum_cons, List.countP_cons, ← ih]
            omega

end Muxly.Data
