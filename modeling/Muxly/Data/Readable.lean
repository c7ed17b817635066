/-
# Muxly.Data.Readable -- texts that tell what was written

A writer is `Readable` when its text tells the value and where it ends, whatever follows. A writer
whose texts all avoid a delimiter is readable up to it, and readable pieces that follow each other
are read one after the other.
-/
import Mathlib.Init

namespace Muxly.Data

variable {α β : Type}

/-- The text tells the value, whatever follows. -/
def Readable (write : α → List β) : Prop :=
  ∀ ⦃a b : α⦄ ⦃s t : List β⦄, write a ++ s = write b ++ t → a = b ∧ s = t

/-- The text tells what `key` sees of the value, whatever follows. -/
def Tells {γ : Type} (key : α → γ) (write : α → List β) : Prop :=
  ∀ ⦃a b : α⦄ ⦃s t : List β⦄, write a ++ s = write b ++ t → key a = key b ∧ s = t

/-- The text tells the value, and has no `delimiter` in it. -/
structure Delimited (delimiter : β) (write : α → List β) : Prop where
  injective : ∀ ⦃a b : α⦄, write a = write b → a = b
  free : ∀ a, delimiter ∉ write a

/-- Two texts that are followed by a delimiter. -/
theorem eq_of_append_delimiter {delimiter : β} {u v s t : List β} (hu : delimiter ∉ u)
    (hv : delimiter ∉ v) (h : u ++ delimiter :: s = v ++ delimiter :: t) : u = v ∧ s = t := by
  induction u generalizing v with
  | nil =>
      cases v with
      | nil => exact ⟨rfl, List.tail_eq_of_cons_eq h⟩
      | cons c v => exact absurd (List.head_eq_of_cons_eq h ▸ List.mem_cons_self ..) hv
  | cons c u ih =>
      cases v with
      | nil => exact absurd ((List.head_eq_of_cons_eq h).symm ▸ List.mem_cons_self ..) hu
      | cons c' v =>
          obtain ⟨rfl, hrest⟩ := List.cons_eq_cons.mp h
          obtain ⟨rfl, hst⟩ := ih (fun hmem => hu (List.mem_cons_of_mem _ hmem))
            (fun hmem => hv (List.mem_cons_of_mem _ hmem)) hrest
          exact ⟨rfl, hst⟩

/-- A delimited text is read up to what starts with the delimiter. -/
theorem Delimited.read_until {delimiter : β} {write : α → List β} (h : Delimited delimiter write)
    {a b : α} {s t : List β} (hs : s.head? = some delimiter) (ht : t.head? = some delimiter)
    (heq : write a ++ s = write b ++ t) : a = b ∧ s = t := by
  cases s with
  | nil => cases hs
  | cons c s =>
      cases t with
      | nil => cases ht
      | cons c' t =>
          obtain rfl := Option.some.inj hs
          obtain rfl := Option.some.inj ht
          obtain ⟨hwrite, hst⟩ := eq_of_append_delimiter (h.free a) (h.free b) heq
          exact ⟨h.injective hwrite, by rw [hst]⟩

/-- The same, where a fixed text comes next. -/
theorem Delimited.read {delimiter : β} {write : α → List β} (h : Delimited delimiter write) {a b : α}
    {stop s t : List β} (hstop : stop.head? = some delimiter)
    (heq : write a ++ (stop ++ s) = write b ++ (stop ++ t)) : a = b ∧ s = t := by
  have hhead (u : List β) : (stop ++ u).head? = some delimiter := by
    rw [List.head?_append, hstop, Option.some_or]
  obtain ⟨rfl, hst⟩ := h.read_until (hhead s) (hhead t) heq
  exact ⟨rfl, List.append_cancel_left hst⟩

/-- The texts of a family none of which starts another. -/
theorem readable_of_prefix {write : α → List β} (h : ∀ a b, write a <+: write b → a = b) :
    Readable write := by
  intro a b s t heq
  have hab : a = b := by
    rcases List.prefix_or_prefix_of_prefix (List.prefix_append (write a) s)
      (heq ▸ List.prefix_append (write b) t) with hprefix | hprefix
    · exact h a b hprefix
    · exact (h b a hprefix).symm
  subst hab
  exact ⟨rfl, List.append_cancel_left heq⟩

/-- A text that may be left out, before what it cannot be taken for. -/
def optional (write : α → List β) : Option α → List β
  | none => []
  | some a => write a

theorem Readable.optional {write : α → List β} (h : Readable write) {o p : Option α} {s t : List β}
    (hs : ∀ a u, s ≠ write a ++ u) (ht : ∀ a u, t ≠ write a ++ u)
    (heq : optional write o ++ s = optional write p ++ t) : o = p ∧ s = t := by
  cases o with
  | none =>
      cases p with
      | none => exact ⟨rfl, heq⟩
      | some b => exact absurd heq (hs b t)
  | some a =>
      cases p with
      | none => exact absurd heq.symm (ht a s)
      | some b =>
          obtain ⟨rfl, hst⟩ := h heq
          exact ⟨rfl, hst⟩

/-- Several texts, up to one that starts none of them. -/
theorem Tells.flatMap {γ : Type} {key : α → γ} {write : α → List β} (h : Tells key write)
    {stop s t : List β} (hstop : ∀ a u v, stop ++ u ≠ write a ++ v) {xs ys : List α}
    (heq : xs.flatMap write ++ (stop ++ s) = ys.flatMap write ++ (stop ++ t)) :
    xs.map key = ys.map key ∧ s = t := by
  induction xs generalizing ys with
  | nil =>
      cases ys with
      | nil => exact ⟨rfl, List.append_cancel_left heq⟩
      | cons y ys =>
          rw [List.flatMap_cons, List.append_assoc] at heq
          exact absurd heq (hstop y s _)
  | cons x xs ih =>
      rw [List.flatMap_cons, List.append_assoc] at heq
      cases ys with
      | nil => exact absurd heq.symm (hstop x t _)
      | cons y ys =>
          rw [List.flatMap_cons, List.append_assoc] at heq
          obtain ⟨hkey, hrest⟩ := h heq
          obtain ⟨hkeys, hst⟩ := ih hrest
          exact ⟨by rw [List.map_cons, List.map_cons, hkey, hkeys], hst⟩

/-- A text that is written element by element. -/
theorem Readable.flatMap_injective {write : α → List β} (h : Readable write)
    (hne : ∀ a, write a ≠ []) {xs ys : List α} (heq : xs.flatMap write = ys.flatMap write) :
    xs = ys := by
  induction xs generalizing ys with
  | nil =>
      cases ys with
      | nil => rfl
      | cons y ys => exact absurd (List.append_eq_nil_iff.mp heq.symm).1 (hne y)
  | cons x xs ih =>
      cases ys with
      | nil => exact absurd (List.append_eq_nil_iff.mp heq).1 (hne x)
      | cons y ys =>
          rw [List.flatMap_cons, List.flatMap_cons] at heq
          obtain ⟨rfl, hrest⟩ := h heq
          rw [ih hrest]

end Muxly.Data
