/-
# Muxly.Data.JsonWrite -- the text of a JSON value

A value as it is written without spaces. How a number is written is a parameter, since a reader keeps
only its text: what is read back is the value with its numbers as they were written (`renumber`).

A value that was read from a text is `Sound`, and a sound value is read back (`reads_write`). Members
are looked up from the front or from the back; for a name that is given once both find the same.
-/
import Muxly.Data.JsonText

namespace Muxly.Data.Json

/-! ## Writing -/

section Writer

variable (numberText : List UInt8 → List UInt8)

mutual

/-- A value, as it is written. -/
def write : Json → List UInt8
  | .null => [110, 117, 108, 108]
  | .bool value => if value then [116, 114, 117, 101] else [102, 97, 108, 115, 101]
  | .number text => numberText text
  | .string text => stringText text
  | .array [] => [openBracket, closeBracket]
  | .array (v :: items) => arrayText (write v) (writeItems items)
  | .object [] => [openBrace, closeBrace]
  | .object ((name, v) :: ms) => objectText (name, write v) (writeMembers ms)

/-- `write` of every item. -/
def writeItems : List Json → List (List UInt8)
  | [] => []
  | v :: items => write v :: writeItems items

/-- `write` of every member. -/
def writeMembers : List (List UInt8 × Json) → List (List UInt8 × List UInt8)
  | [] => []
  | (name, v) :: ms => (name, write v) :: writeMembers ms

end

mutual

/-- The value with every number as it is written. -/
def renumber : Json → Json
  | .null => .null
  | .bool value => .bool value
  | .number text => .number (numberText text)
  | .string text => .string text
  | .array items => .array (renumberItems items)
  | .object ms => .object (renumberMembers ms)

/-- `renumber` of every item. -/
def renumberItems : List Json → List Json
  | [] => []
  | v :: items => renumber v :: renumberItems items

/-- `renumber` of every member. -/
def renumberMembers : List (List UInt8 × Json) → List (List UInt8 × Json)
  | [] => []
  | (name, v) :: ms => (name, renumber v) :: renumberMembers ms

end

end Writer

/-! ## Sound values -/

/-- The text of a number. -/
def IsNumber (text : List UInt8) : Prop := scanNumber .start text = some (text, [])

instance (text : List UInt8) : Decidable (IsNumber text) :=
  inferInstanceAs (Decidable (_ = _))

mutual

/-- A value whose numbers are numbers, and whose strings are valid. -/
def Sound (validText : List UInt8 → Bool) : Json → Prop
  | .number text => IsNumber text
  | .string text => validText text = true
  | .array items => SoundItems validText items
  | .object ms => SoundMembers validText ms
  | _ => True

/-- `Sound` for every item. -/
def SoundItems (validText : List UInt8 → Bool) : List Json → Prop
  | [] => True
  | v :: items => v.Sound validText ∧ SoundItems validText items

/-- `Sound` for every member. -/
def SoundMembers (validText : List UInt8 → Bool) : List (List UInt8 × Json) → Prop
  | [] => True
  | (name, v) :: ms => validText name = true ∧ v.Sound validText ∧ SoundMembers validText ms

end

section Sound

variable {validText : List UInt8 → Bool} {text rest : List UInt8} {v : Json}

/-- The number that is found is a number by itself. -/
theorem scanNumber_self {s : NumberState} {number : List UInt8}
    (h : scanNumber s text = some (number, rest)) : scanNumber s number = some (number, []) := by
  induction text generalizing s number with
  | nil =>
      rw [scanNumber] at h
      split at h
      · rename_i haccepts
        cases h
        rw [scanNumber, if_pos haccepts]
      · cases h
  | cons c text ih =>
      rw [scanNumber] at h
      split at h
      · rename_i s' hstep
        obtain ⟨⟨number', rest'⟩, hscan, heq⟩ := Option.map_eq_some_iff.mp h
        cases heq
        rw [scanNumber, hstep]
        simp [ih hscan]
      · split at h
        · rename_i haccepts
          cases h
          rw [scanNumber, if_pos haccepts]
        · cases h

theorem literal_eq_some {word : List UInt8} {w : Json} (h : literal word w text = some (v, rest)) :
    v = w := by
  unfold literal at h
  split at h <;> cases h
  rfl

theorem sound_value_succ {fuel : Nat}
    (hmembers : ∀ text ms rest, members validText fuel text = some (ms, rest) →
      SoundMembers validText ms)
    (hitems : ∀ text is rest, items validText fuel text = some (is, rest) →
      SoundItems validText is)
    (h : value validText (fuel + 1) text = some (v, rest)) : v.Sound validText := by
  rw [value] at h
  simp only [Option.bind_eq_bind, Option.bind_eq_some_iff, Prod.exists] at h
  obtain ⟨c, after, -, h⟩ := h
  split at h
  · obtain ⟨⟨d, inner⟩, -, h⟩ := Option.bind_eq_some_iff.mp h
    dsimp only at h
    split at h
    · cases h
      trivial
    · obtain ⟨⟨ms, left⟩, hread, h⟩ := Option.bind_eq_some_iff.mp h
      cases h
      exact hmembers _ _ _ hread
  split at h
  · obtain ⟨⟨d, inner⟩, -, h⟩ := Option.bind_eq_some_iff.mp h
    dsimp only at h
    split at h
    · cases h
      trivial
    · obtain ⟨⟨is, left⟩, hread, h⟩ := Option.bind_eq_some_iff.mp h
      cases h
      exact hitems _ _ _ hread
  split at h
  · obtain ⟨⟨string, left⟩, hread, h⟩ := Option.bind_eq_some_iff.mp h
    cases h
    exact (Option.filter_eq_some_iff.mp hread).2
  split at h
  · rw [literal_eq_some h]
    trivial
  split at h
  · rw [literal_eq_some h]
    trivial
  split at h
  · rw [literal_eq_some h]
    trivial
  obtain ⟨⟨number, left⟩, hread, h⟩ := Option.bind_eq_some_iff.mp h
  cases h
  exact scanNumber_self hread

theorem sound_members_succ {fuel : Nat}
    (hvalue : ∀ text v rest, value validText fuel text = some (v, rest) → v.Sound validText)
    (hmembers : ∀ text ms rest, members validText fuel text = some (ms, rest) →
      SoundMembers validText ms) {ms : List (List UInt8 × Json)}
    (h : members validText (fuel + 1) text = some (ms, rest)) : SoundMembers validText ms := by
  rw [members] at h
  simp only [Option.bind_eq_bind, Option.bind_eq_some_iff, Prod.exists] at h
  obtain ⟨c, after, -, h⟩ := h
  split at h
  swap
  · cases h
  obtain ⟨⟨name, afterName⟩, hname, h⟩ := Option.bind_eq_some_iff.mp h
  have hvalid := (Option.filter_eq_some_iff.mp hname).2
  obtain ⟨⟨d, afterColon⟩, -, h⟩ := Option.bind_eq_some_iff.mp h
  dsimp only at h
  split at h
  swap
  · cases h
  obtain ⟨⟨v, afterValue⟩, hread, h⟩ := Option.bind_eq_some_iff.mp h
  have hsound := hvalue _ _ _ hread
  obtain ⟨⟨e, afterSeparator⟩, -, h⟩ := Option.bind_eq_some_iff.mp h
  dsimp only at h
  split at h
  · obtain ⟨⟨ms', left⟩, hms, h⟩ := Option.bind_eq_some_iff.mp h
    cases h
    exact ⟨hvalid, hsound, hmembers _ _ _ hms⟩
  · split at h <;> cases h
    exact ⟨hvalid, hsound, trivial⟩

theorem sound_items_succ {fuel : Nat}
    (hvalue : ∀ text v rest, value validText fuel text = some (v, rest) → v.Sound validText)
    (hitems : ∀ text is rest, items validText fuel text = some (is, rest) →
      SoundItems validText is) {is : List Json}
    (h : items validText (fuel + 1) text = some (is, rest)) : SoundItems validText is := by
  rw [items] at h
  simp only [Option.bind_eq_bind, Option.bind_eq_some_iff, Prod.exists] at h
  obtain ⟨v, afterValue, hread, e, afterSeparator, -, h⟩ := h
  have hsound := hvalue _ _ _ hread
  split at h
  · obtain ⟨⟨is', left⟩, his, h⟩ := Option.bind_eq_some_iff.mp h
    cases h
    exact ⟨hsound, hitems _ _ _ his⟩
  · split at h <;> cases h
    exact ⟨hsound, trivial⟩

/-- What the reader returns is sound. -/
theorem sound_read (validText : List UInt8 → Bool) (fuel : Nat) :
    (∀ text v rest, value validText fuel text = some (v, rest) → v.Sound validText) ∧
      (∀ text ms rest, members validText fuel text = some (ms, rest) →
        SoundMembers validText ms) ∧
      ∀ text is rest, items validText fuel text = some (is, rest) → SoundItems validText is := by
  induction fuel with
  | zero =>
      refine ⟨?_, ?_, ?_⟩
      · rintro text v rest ⟨⟩
      · rintro text ms rest ⟨⟩
      · rintro text is rest ⟨⟩
  | succ fuel ih =>
      obtain ⟨hvalue, hmembers, hitems⟩ := ih
      exact ⟨fun _ _ _ h => sound_value_succ hmembers hitems h,
        fun _ _ _ h => sound_members_succ hvalue hmembers h,
        fun _ _ _ h => sound_items_succ hvalue hitems h⟩

theorem sound_of_parse (h : parse validText text = some v) : v.Sound validText := by
  unfold parse at h
  split at h
  · rename_i w rest hvalue
    split at h <;> cases h
    exact (sound_read validText _).1 _ _ _ hvalue
  · cases h

end Sound

/-! ## What is written is read back -/

section ReadBack

variable {validText : List UInt8 → Bool} {numberText : List UInt8 → List UInt8}

theorem reads_isNumber {text : List UInt8} (h : IsNumber text) : Reads validText text (.number text) := by
  cases text with
  | nil => cases h
  | cons c digits =>
      refine reads_of_scanNumber ?_ h
      by_cases hminus : c = 45
      · exact .inr hminus
      · left
        by_contra hdigit
        have hfirst : NumberState.start.step c = none := by
          have hzero : c ≠ 48 := by
            rintro rfl
            exact hdigit rfl
          rw [NumberState.step, if_neg hminus, NumberState.firstDigit, if_neg hzero, if_neg hdigit]
        rw [IsNumber, scanNumber, hfirst] at h
        cases h

mutual

/-- A sound value is read back, with its numbers as they were written. -/
theorem reads_write (hnumber : ∀ text, IsNumber text → IsNumber (numberText text)) :
    ∀ {v : Json}, v.Sound validText → Reads validText (v.write numberText) (v.renumber numberText)
  | .null, _ => reads_null
  | .bool true, _ => reads_true
  | .bool false, _ => reads_false
  | .number text, h => reads_isNumber (hnumber text h)
  | .string _, h => reads_stringText h
  | .array [], _ => reads_of_parse rfl
  | .array (_ :: _), h => reads_arrayText (reads_write hnumber h.1) (reads_writeItems hnumber h.2)
  | .object [], _ => reads_of_parse rfl
  | .object ((_, _) :: _), h =>
      reads_objectText (.cons ⟨rfl, h.1, reads_write hnumber h.2.1⟩
        (reads_writeMembers hnumber h.2.2))

theorem reads_writeItems (hnumber : ∀ text, IsNumber text → IsNumber (numberText text)) :
    ∀ {items : List Json}, SoundItems validText items →
      List.Forall₂ (Reads validText) (writeItems numberText items) (renumberItems numberText items)
  | [], _ => .nil
  | _ :: _, h => .cons (reads_write hnumber h.1) (reads_writeItems hnumber h.2)

theorem reads_writeMembers (hnumber : ∀ text, IsNumber text → IsNumber (numberText text)) :
    ∀ {ms : List (List UInt8 × Json)}, SoundMembers validText ms →
      ReadsMembers validText (writeMembers numberText ms) (renumberMembers numberText ms)
  | [], _ => .nil
  | (_, _) :: _, h =>
      .cons ⟨rfl, h.1, reads_write hnumber h.2.1⟩ (reads_writeMembers hnumber h.2.2)

end

end ReadBack

/-! ## Members -/

section Members

variable {numberText : List UInt8 → List UInt8} {name : List UInt8}

theorem lookup_renumberMembers (ms : List (List UInt8 × Json)) :
    (renumberMembers numberText ms).lookup name = (ms.lookup name).map (renumber numberText) := by
  induction ms with
  | nil => rfl
  | cons m ms ih =>
      rw [renumberMembers, List.lookup_cons, List.lookup_cons]
      split
      · rfl
      · exact ih

theorem renumberMembers_append (ms ms' : List (List UInt8 × Json)) :
    renumberMembers numberText (ms ++ ms') =
      renumberMembers numberText ms ++ renumberMembers numberText ms' := by
  induction ms with
  | nil => rfl
  | cons m ms ih => rw [List.cons_append, renumberMembers, renumberMembers, ih, List.cons_append]

theorem renumberMembers_reverse (ms : List (List UInt8 × Json)) :
    (renumberMembers numberText ms).reverse = renumberMembers numberText ms.reverse := by
  induction ms with
  | nil => rfl
  | cons m ms ih =>
      rw [renumberMembers, List.reverse_cons, ih, List.reverse_cons, renumberMembers_append]
      rfl

/-- A member of a sound object is sound. -/
theorem sound_of_lookup {validText : List UInt8 → Bool} {ms : List (List UInt8 × Json)} {v : Json}
    (hsound : SoundMembers validText ms) (h : ms.lookup name = some v) : v.Sound validText := by
  induction ms with
  | nil => cases h
  | cons m ms ih =>
      rw [List.lookup_cons] at h
      split at h
      · cases h
        exact hsound.2.1
      · exact ih hsound.2.2 h

theorem names_renumberMembers (ms : List (List UInt8 × Json)) :
    (renumberMembers numberText ms).map Prod.fst = ms.map Prod.fst := by
  induction ms with
  | nil => rfl
  | cons m ms ih => rw [renumberMembers, List.map_cons, List.map_cons, ih]

/-- A name that is given at most once is found from either end. -/
theorem lookup_reverse {ms : List (List UInt8 × Json)} (h : (ms.map Prod.fst).count name ≤ 1) :
    ms.reverse.lookup name = ms.lookup name := by
  induction ms with
  | nil => rfl
  | cons m ms ih =>
      obtain ⟨other, v⟩ := m
      rw [List.map_cons, List.count_cons] at h
      rw [List.reverse_cons, List.lookup_append, ih (by omega), List.lookup_cons, List.lookup_cons,
        List.lookup_nil]
      by_cases heq : name = other
      · subst heq
        have hnone : ms.lookup name = none := by
          rw [List.lookup_eq_none_iff]
          intro p hp
          have hcount : (ms.map Prod.fst).count name = 0 := by
            simp only [beq_self_eq_true, if_true] at h
            omega
          have hne : name ≠ p.1 := by
            rintro rfl
            exact List.count_eq_zero.mp hcount (List.mem_map_of_mem hp)
          simpa using hne
        rw [hnone, beq_self_eq_true]
        rfl
      · rw [beq_eq_false_iff_ne.mpr heq, Option.or_none]

end Members

end Muxly.Data.Json
