/-
# Muxly.Data.SwapRemove -- removal from an array list that moves the last element into the gap

`swapRemove` does not keep the order, but up to order it is removal. Everything else about it
follows from that.
-/
import Mathlib.Data.List.Nodup
import Mathlib.Data.List.Perm.Basic

namespace Muxly.Data

variable {α : Type} [DecidableEq α]

/-- `ArrayList.swapRemove`: the last element takes the place of the one at `i`. -/
def swapRemove (xs : List α) (i : Nat) : List α :=
  match xs.getLast? with
  | some last => (xs.set i last).dropLast
  | none => []

/-- Scan for the first `x` and swap-remove it. -/
def swapRemoveFirst (x : α) (xs : List α) : List α :=
  match xs.idxOf? x with
  | some i => swapRemove xs i
  | none => xs

omit [DecidableEq α] in
theorem swapRemove_last (as : List α) (x : α) : swapRemove (as ++ [x]) as.length = as := by
  simp [swapRemove]

omit [DecidableEq α] in
theorem swapRemove_inner (as bs : List α) (x last : α) :
    swapRemove (as ++ x :: (bs ++ [last])) as.length = as ++ last :: bs := by
  have hlast : (as ++ x :: (bs ++ [last])).getLast? = some last := by
    rw [show as ++ x :: (bs ++ [last]) = (as ++ x :: bs) ++ [last] by simp,
      List.getLast?_concat]
  have hset : (as ++ x :: (bs ++ [last])).set as.length last
      = (as ++ last :: bs) ++ [last] := by simp
  rw [swapRemove, hlast]
  simp only [hset, List.dropLast_concat]

omit [DecidableEq α] in
theorem swapRemove_append (as bs : List α) (x : α) :
    (swapRemove (as ++ x :: bs) as.length).Perm (as ++ bs) := by
  rcases List.eq_nil_or_concat bs with rfl | ⟨bs', last, rfl⟩
  · rw [swapRemove_last, List.append_nil]
  · rw [List.concat_eq_append, swapRemove_inner]
    exact (List.perm_append_singleton last bs').symm.append_left as

theorem idxOf?_append_cons {x : α} {as bs : List α} (h : x ∉ as) :
    (as ++ x :: bs).idxOf? x = some as.length := by
  induction as with
  | nil => simp [List.idxOf?_cons]
  | cons a as ih =>
      simp only [List.mem_cons, not_or] at h
      have ha : (a == x) = false := by simpa using Ne.symm h.1
      simp [List.idxOf?_cons, ha, ih h.2]

/-- Up to order, swap-removal is removal. -/
theorem swapRemoveFirst_perm (x : α) (xs : List α) : (swapRemoveFirst x xs).Perm (xs.erase x) := by
  unfold swapRemoveFirst
  by_cases hx : x ∈ xs
  · obtain ⟨as, bs, rfl, hfresh⟩ := List.eq_append_cons_of_mem hx
    rw [idxOf?_append_cons hfresh, List.erase_append_right _ hfresh, List.erase_cons_head]
    exact swapRemove_append as bs x
  · have hnone : xs.idxOf? x = none := by simpa [List.idxOf?_eq_none_iff] using hx
    rw [hnone, List.erase_of_not_mem hx]

/-- The order stays when the element that moves into the gap comes right after it, or none moves. -/
theorem swapRemoveFirst_ordered {x : α} {as bs : List α} (hx : x ∉ as) (hnodup : bs.Nodup) :
    swapRemoveFirst x (as ++ x :: bs) = as ++ bs ↔ bs.length ≤ 1 := by
  rw [swapRemoveFirst, idxOf?_append_cons hx]
  rcases List.eq_nil_or_concat bs with rfl | ⟨bs', last, rfl⟩
  · simp [swapRemove_last]
  · show swapRemove (as ++ x :: bs'.concat last) as.length = _ ↔ _
    rw [List.concat_eq_append] at hnodup ⊢
    rw [swapRemove_inner, List.append_cancel_left_eq, List.length_append, List.length_singleton]
    cases bs' with
    | nil => simp
    | cons b rest =>
        have hb : last ≠ b := fun h => by simp [h] at hnodup
        simp [hb]

theorem swapRemoveFirst_of_not_mem {x : α} {xs : List α} (h : x ∉ xs) :
    swapRemoveFirst x xs = xs := by
  have hnone : xs.idxOf? x = none := by simpa [List.idxOf?_eq_none_iff] using h
  rw [swapRemoveFirst, hnone]

theorem nodup_swapRemoveFirst {x : α} {xs : List α} (h : xs.Nodup) :
    (swapRemoveFirst x xs).Nodup :=
  (swapRemoveFirst_perm x xs).nodup_iff.mpr (h.erase x)

theorem mem_swapRemoveFirst {x y : α} {xs : List α} (h : xs.Nodup) :
    y ∈ swapRemoveFirst x xs ↔ y ≠ x ∧ y ∈ xs :=
  (swapRemoveFirst_perm x xs).mem_iff.trans h.mem_erase_iff

theorem subset_of_swapRemoveFirst {x y : α} {xs : List α} (h : y ∈ swapRemoveFirst x xs) :
    y ∈ xs :=
  List.mem_of_mem_erase ((swapRemoveFirst_perm x xs).mem_iff.mp h)

end Muxly.Data
