/-
# Muxly.Data.Pieces -- a list cut into pieces of one size

The loop that hands out a list in pieces of `size` elements, the last one shorter. A property that
goes on from a list to a longer one exactly by what is appended holds of all pieces when it holds at
every cut.
-/
import Mathlib.Init

namespace Muxly.Data

variable {α : Type}

/-- The pieces of `xs`, in at most `turns` turns of the loop. -/
def piecesLoop (size : Nat) : Nat → List α → List (List α)
  | 0, _ => []
  | turns + 1, xs => if xs = [] then [] else xs.take size :: piecesLoop size turns (xs.drop size)

/-- The pieces of `xs`: every turn takes at least one element. -/
def pieces (size : Nat) (xs : List α) : List (List α) := piecesLoop size xs.length xs

theorem piecesLoop_take {size : Nat} (hsize : 0 < size) {turns : Nat} {xs : List α}
    (hturns : xs.length ≤ turns) (k : Nat) :
    ((piecesLoop size turns xs).take k).flatten = xs.take (k * size) := by
  induction turns generalizing xs k with
  | zero =>
      obtain rfl := List.length_eq_zero_iff.mp (Nat.le_zero.mp hturns)
      simp [piecesLoop]
  | succ turns ih =>
      by_cases hxs : xs = []
      · simp [piecesLoop, hxs]
      · have hpos := List.length_pos_iff.mpr hxs
        cases k with
        | zero => simp
        | succ k =>
            rw [piecesLoop, if_neg hxs, List.take_succ_cons, List.flatten_cons,
              ih (by rw [List.length_drop]; omega), Nat.add_mul, Nat.one_mul, Nat.add_comm,
              List.take_add]

/-- The first pieces together. -/
theorem pieces_take {size : Nat} (hsize : 0 < size) (xs : List α) (k : Nat) :
    ((pieces size xs).take k).flatten = xs.take (k * size) :=
  piecesLoop_take hsize (Nat.le_refl _) k

theorem length_piecesLoop_le (size turns : Nat) (xs : List α) :
    (piecesLoop size turns xs).length ≤ turns := by
  induction turns generalizing xs with
  | zero => simp [piecesLoop]
  | succ turns ih =>
      unfold piecesLoop
      split
      · simp
      · simpa using ih (xs.drop size)

/-- A piece has at least one element and at most `size`. -/
theorem length_of_mem_pieces {size : Nat} (hsize : 0 < size) {xs piece : List α}
    (h : piece ∈ pieces size xs) : piece ≠ [] ∧ piece.length ≤ size := by
  have hloop (turns : Nat) (xs : List α) (h : piece ∈ piecesLoop size turns xs) :
      piece ≠ [] ∧ piece.length ≤ size := by
    induction turns generalizing xs with
    | zero => cases h
    | succ turns ih =>
        rw [piecesLoop] at h
        split at h
        · cases h
        · rename_i hxs
          rcases List.mem_cons.mp h with rfl | h
          · have hpos := List.length_pos_iff.mpr hxs
            refine ⟨List.ne_nil_of_length_pos ?_, List.length_take_le ..⟩
            rw [List.length_take]
            omega
          · exact ih _ h
  exact hloop _ _ h

/-- A list that is short enough is one piece. -/
theorem pieces_of_length_le {size : Nat} {xs : List α} (hne : xs ≠ []) (h : xs.length ≤ size) :
    pieces size xs = [xs] := by
  obtain ⟨x, rest, rfl⟩ := List.exists_cons_of_ne_nil hne
  have hnil (turns : Nat) : piecesLoop size turns ([] : List α) = [] := by
    cases turns <;> simp [piecesLoop]
  rw [pieces, List.length_cons, piecesLoop, if_neg hne, List.take_of_length_le h,
    List.drop_eq_nil_of_le h, hnil]

/-- Nothing is lost. -/
theorem pieces_flatten {size : Nat} (hsize : 0 < size) (xs : List α) :
    (pieces size xs).flatten = xs := by
  have h := pieces_take hsize xs xs.length
  have hlength : (pieces size xs).length ≤ xs.length := length_piecesLoop_le ..
  rwa [List.take_of_length_le hlength,
    List.take_of_length_le (Nat.le_mul_of_pos_right _ hsize)] at h

/-- A property that goes on from a list to a longer one exactly by what is appended. -/
structure Extends (P : List α → Prop) : Prop where
  nil : P []
  append : ∀ xs ys, P xs → (P (xs ++ ys) ↔ P ys)

/-- It holds of all lists of a sequence when it holds of the sequence up to every point. -/
theorem Extends.forall_iff {P : List α → Prop} (hP : Extends P) (xss : List (List α)) :
    (∀ xs ∈ xss, P xs) ↔ ∀ k, P (xss.take k).flatten := by
  constructor
  · intro h k
    induction k with
    | zero => exact hP.nil
    | succ k ih =>
        by_cases hk : k < xss.length
        · rw [List.take_succ_eq_append_getElem hk, List.flatten_append, List.flatten_singleton,
            hP.append _ _ ih]
          exact h _ (List.getElem_mem hk)
        · rw [List.take_of_length_le (by omega)]
          rwa [List.take_of_length_le (by omega)] at ih
  · intro h xs hxs
    obtain ⟨k, hk, rfl⟩ := List.mem_iff_getElem.mp hxs
    have hnext := h (k + 1)
    rwa [List.take_succ_eq_append_getElem hk, List.flatten_append, List.flatten_singleton,
      hP.append _ _ (h k)] at hnext

/-- It holds of all pieces of a list when it holds at every cut. -/
theorem Extends.pieces_iff {P : List α → Prop} (hP : Extends P) {size : Nat} (hsize : 0 < size)
    (xs : List α) : (∀ piece ∈ pieces size xs, P piece) ↔ ∀ k, P (xs.take (k * size)) := by
  rw [hP.forall_iff]
  simp only [pieces_take hsize]

/-- The pieces of several lists, when what comes before a list is taken with it. -/
theorem Extends.flatMap_pieces_iff {P : List α → Prop} (hP : Extends P) {size : Nat}
    (hsize : 0 < size) (xss : List (List α)) :
    (∀ piece ∈ xss.flatMap (pieces size), P piece) ↔
      ∀ before xs rest, xss = before ++ xs :: rest →
        ∀ k, P (before.flatten ++ xs.take (k * size)) := by
  have hall : (∀ piece ∈ xss.flatMap (pieces size), P piece) ↔
      ∀ xs ∈ xss, ∀ k, P (xs.take (k * size)) := by
    simp only [← hP.pieces_iff hsize, List.mem_flatMap]
    exact ⟨fun h xs hxs piece hp => h piece ⟨xs, hxs, hp⟩, fun h piece ⟨xs, hxs, hp⟩ =>
      h xs hxs piece hp⟩
  have hwhole (xs : List α) (h : ∀ k, P (xs.take (k * size))) : P xs := by
    have := h xs.length
    rwa [List.take_of_length_le (Nat.le_mul_of_pos_right _ hsize)] at this
  rw [hall]
  constructor
  · rintro h before xs rest rfl k
    have hbefore : P before.flatten := by
      have := (hP.forall_iff before).mp
        (fun ys hys => hwhole ys (h ys (List.mem_append_left _ hys))) before.length
      rwa [List.take_length] at this
    rw [hP.append _ _ hbefore]
    exact h xs (by simp) k
  · clear hall
    intro h
    induction xss with
    | nil => simp
    | cons xs rest ih =>
        have hfirst (k : Nat) : P (xs.take (k * size)) := by simpa using h [] xs rest rfl k
        intro ys hys
        obtain rfl | hys := List.mem_cons.mp hys
        · exact hfirst
        · refine ih (fun before zs rest' heq k => ?_) ys hys
          have := h (xs :: before) zs rest' (by rw [heq]; rfl) k
          rwa [List.flatten_cons, List.append_assoc, hP.append _ _ (hwhole xs hfirst)] at this

end Muxly.Data
