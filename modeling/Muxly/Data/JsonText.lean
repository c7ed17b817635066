/-
# Muxly.Data.JsonText -- JSON text

A recursive-descent reader of JSON text. Which bytes a string may hold is a parameter. A number stays
the text that it is written as, and an object keeps all its members in order, so that what a value is
good for is decided by whoever reads it.

`value_append` is what the rest rests on: what the reader makes of a text does not depend on what
follows it, nor on how much fuel is left over. `Reads` is that fact as a property of a text, and the
lemmas after it build texts that have it.
-/
import Mathlib.Data.List.Basic
import Mathlib.Data.List.TakeWhile

namespace Muxly.Data

/-- A JSON value. -/
inductive Json where
  | null
  | bool (value : Bool)
  | number (text : List UInt8)
  | string (text : List UInt8)
  | array (items : List Json)
  | object (members : List (List UInt8 × Json))

namespace Json

/-! ## Bytes -/

/-- `'"'`. -/
def quote : UInt8 := 34

/-- `'\\'`. -/
def backslash : UInt8 := 92

/-- `','`. -/
def comma : UInt8 := 44

/-- `':'`. -/
def colon : UInt8 := 58

/-- `'{'`. -/
def openBrace : UInt8 := 123

/-- The closing brace. -/
def closeBrace : UInt8 := 125

/-- `'['`. -/
def openBracket : UInt8 := 91

/-- `']'`. -/
def closeBracket : UInt8 := 93

/-- The four bytes that may stand between tokens. -/
def isSpace (c : UInt8) : Bool := c = 32 || c = 9 || c = 10 || c = 13

/-- A decimal digit. -/
def isDigit (c : UInt8) : Bool := 48 ≤ c && c ≤ 57

/-- The first byte that is no space, and what follows it. -/
def next (text : List UInt8) : Option (UInt8 × List UInt8) :=
  match text.dropWhile isSpace with
  | [] => none
  | c :: rest => some (c, rest)

/-! ## Numbers -/

/-- Where the text of a number stands. -/
inductive NumberState where
  | start
  | minus
  | zero
  | integer
  | point
  | fraction
  | exponent
  | exponentSign
  | exponentDigits
  deriving DecidableEq

namespace NumberState

/-- A text that ends here is a number. -/
def accepts : NumberState → Bool
  | .zero | .integer | .fraction | .exponentDigits => true
  | _ => false

/-- The first digit, after a sign or none. -/
def firstDigit (c : UInt8) : Option NumberState :=
  if c = 48 then some .zero else if isDigit c then some .integer else none

/-- What may follow the integer part. -/
def afterInteger (c : UInt8) : Option NumberState :=
  if c = 46 then some .point else if c = 101 ∨ c = 69 then some .exponent else none

/-- One more byte. -/
def step : NumberState → UInt8 → Option NumberState
  | .start, c => if c = 45 then some .minus else firstDigit c
  | .minus, c => firstDigit c
  | .zero, c => afterInteger c
  | .integer, c => if isDigit c then some .integer else afterInteger c
  | .point, c => if isDigit c then some .fraction else none
  | .fraction, c =>
    if isDigit c then some .fraction else if c = 101 ∨ c = 69 then some .exponent else none
  | .exponent, c =>
    if c = 43 ∨ c = 45 then some .exponentSign
    else if isDigit c then some .exponentDigits else none
  | .exponentSign, c | .exponentDigits, c => if isDigit c then some .exponentDigits else none

end NumberState

/-- The longest number at the front of a text. -/
def scanNumber : NumberState → List UInt8 → Option (List UInt8 × List UInt8)
  | s, [] => if s.accepts then some ([], []) else none
  | s, c :: rest =>
    match s.step c with
    | some s' => (scanNumber s' rest).map fun (text, rest) => (c :: text, rest)
    | none => if s.accepts then some ([], c :: rest) else none

/-! ## Strings -/

/-- Where the text of a string stands. -/
inductive StringState where
  | plain
  | escape
  /-- In a `\u` escape, after the first half of a pair if there is one. -/
  | unit (high : Option Nat) (left : Nat) (value : Nat)
  | afterHigh (high : Nat)
  | afterHighEscape (high : Nat)
  deriving DecidableEq

/-- The value of a hexadecimal digit. -/
def hexValue (c : UInt8) : Option Nat :=
  if isDigit c then some (c.toNat - 48)
  else if 97 ≤ c ∧ c ≤ 102 then some (c.toNat - 87)
  else if 65 ≤ c ∧ c ≤ 70 then some (c.toNat - 55)
  else none

/-- A code point in UTF-8. -/
def utf8Encode (code : Nat) : List UInt8 :=
  if code < 0x80 then [UInt8.ofNat code]
  else if code < 0x800 then [UInt8.ofNat (0xC0 + code / 64), UInt8.ofNat (0x80 + code % 64)]
  else if code < 0x10000 then
    [UInt8.ofNat (0xE0 + code / 4096), UInt8.ofNat (0x80 + code / 64 % 64),
      UInt8.ofNat (0x80 + code % 64)]
  else
    [UInt8.ofNat (0xF0 + code / 262144), UInt8.ofNat (0x80 + code / 4096 % 64),
      UInt8.ofNat (0x80 + code / 64 % 64), UInt8.ofNat (0x80 + code % 64)]

/-- What the byte after a backslash stands for. -/
def simpleEscape (c : UInt8) : Option UInt8 :=
  if c = quote ∨ c = backslash ∨ c = 47 then some c
  else if c = 98 then some 8
  else if c = 102 then some 12
  else if c = 110 then some 10
  else if c = 114 then some 13
  else if c = 116 then some 9
  else none

/-- A complete `\u` escape. Halves of a pair stand only next to each other. -/
def finishUnit (high : Option Nat) (value : Nat) : Option (StringState × List UInt8) :=
  match high with
  | none =>
    if 0xD800 ≤ value ∧ value < 0xDC00 then some (.afterHigh value, [])
    else if 0xDC00 ≤ value ∧ value < 0xE000 then none
    else some (.plain, utf8Encode value)
  | some high =>
    if 0xDC00 ≤ value ∧ value < 0xE000 then
      some (.plain, utf8Encode (0x10000 + (high - 0xD800) * 1024 + (value - 0xDC00)))
    else none

/-- One more byte of a string, other than the quote that ends it, and what the string gains. -/
def StringState.step : StringState → UInt8 → Option (StringState × List UInt8)
  | .plain, c =>
    if c = quote ∨ c < 32 then none
    else if c = backslash then some (.escape, [])
    else some (.plain, [c])
  | .escape, c =>
    if c = 117 then some (StringState.unit none 3 0, []) else (simpleEscape c).map fun b => (.plain, [b])
  | .unit high left value, c =>
    (hexValue c).bind fun digit =>
      match left with
      | 0 => finishUnit high (value * 16 + digit)
      | left + 1 => some (.unit high left (value * 16 + digit), [])
  | .afterHigh high, c => if c = backslash then some (.afterHighEscape high, []) else none
  | .afterHighEscape high, c => if c = 117 then some (.unit (some high) 3 0, []) else none

/-- A string up to its closing quote. -/
def scanString : StringState → List UInt8 → Option (List UInt8 × List UInt8)
  | _, [] => none
  | s, c :: rest =>
    if s = .plain ∧ c = quote then some ([], rest)
    else
      match s.step c with
      | none => none
      | some (s', gained) => (scanString s' rest).map fun (text, rest) => (gained ++ text, rest)

/-! ## Values -/

section Reader

variable (validText : List UInt8 → Bool)

/-- A string after its opening quote. -/
def string? (text : List UInt8) : Option (List UInt8 × List UInt8) :=
  (scanString .plain text).filter fun (text, _) => validText text

/-- The rest of a word. -/
def literal (word : List UInt8) (v : Json) (text : List UInt8) : Option (Json × List UInt8) :=
  if word.isPrefixOf text then some (v, text.drop word.length) else none

mutual

/-- A value, after any space, and what follows it. -/
def value : Nat → List UInt8 → Option (Json × List UInt8)
  | 0, _ => none
  | fuel + 1, text => do
    let (c, rest) ← next text
    if c = openBrace then
      let (d, after) ← next rest
      if d = closeBrace then some (.object [], after)
      else
        let (members, rest) ← members fuel rest
        some (.object members, rest)
    else if c = openBracket then
      let (d, after) ← next rest
      if d = closeBracket then some (.array [], after)
      else
        let (items, rest) ← items fuel rest
        some (.array items, rest)
    else if c = quote then
      let (text, rest) ← string? validText rest
      some (.string text, rest)
    else if c = 116 then literal [114, 117, 101] (.bool true) rest
    else if c = 102 then literal [97, 108, 115, 101] (.bool false) rest
    else if c = 110 then literal [117, 108, 108] .null rest
    else
      let (text, rest) ← scanNumber .start (c :: rest)
      some (.number text, rest)

/-- The members of an object, of which there is at least one, up to its brace. -/
def members : Nat → List UInt8 → Option (List (List UInt8 × Json) × List UInt8)
  | 0, _ => none
  | fuel + 1, text => do
    let (c, rest) ← next text
    if c = quote then
      let (name, rest) ← string? validText rest
      let (c, rest) ← next rest
      if c = colon then
        let (v, rest) ← value fuel rest
        let (c, rest) ← next rest
        if c = comma then
          let (members, rest) ← members fuel rest
          some ((name, v) :: members, rest)
        else if c = closeBrace then some ([(name, v)], rest)
        else none
      else none
    else none

/-- The items of an array, of which there is at least one, up to its bracket. -/
def items : Nat → List UInt8 → Option (List Json × List UInt8)
  | 0, _ => none
  | fuel + 1, text => do
    let (v, rest) ← value fuel text
    let (c, rest) ← next rest
    if c = comma then
      let (items, rest) ← items fuel rest
      some (v :: items, rest)
    else if c = closeBracket then some ([v], rest)
    else none

end

/-- A text that is one value, with any space around it. -/
def parse (text : List UInt8) : Option Json :=
  match value validText (2 * text.length) text with
  | some (v, rest) => if next rest = none then some v else none
  | none => none

end Reader

/-! ## Distinct names -/

mutual

/-- No object in the value names a member twice. -/
def distinct : Json → Bool
  | .array items => distinctItems items
  | .object ms => decide (ms.map Prod.fst).Nodup && distinctMembers ms
  | _ => true

/-- `distinct` of every item. -/
def distinctItems : List Json → Bool
  | [] => true
  | v :: items => v.distinct && distinctItems items

/-- `distinct` of every member. -/
def distinctMembers : List (List UInt8 × Json) → Bool
  | [] => true
  | (_, v) :: ms => v.distinct && distinctMembers ms

end

/-! ## What follows a text does not matter -/

section Append

variable {text rest more : List UInt8} {c : UInt8}

theorem next_append (h : next text = some (c, rest)) : next (text ++ more) = some (c, rest ++ more) := by
  unfold next at h ⊢
  split at h
  · cases h
  · rename_i d after heq
    cases h
    have hne : text.dropWhile isSpace ≠ [] := by simp [heq]
    rw [List.dropWhile_append, if_neg (by simp [heq]), heq]
    rfl

theorem next_length (h : next text = some (c, rest)) : rest.length < text.length := by
  unfold next at h
  split at h
  · cases h
  · rename_i d after heq
    cases h
    have hle := (List.dropWhile_suffix (l := text) isSpace).length_le
    rw [heq] at hle
    exact hle

/-- No number goes on with what follows. -/
def Stops (more : List UInt8) : Prop :=
  ∀ c rest, more = c :: rest → ∀ s : NumberState, s.step c = none

theorem stops_nil : Stops [] := by
  rintro c rest ⟨⟩

/-- A number is the front of the text, and reading it does not depend on what stops it. -/
theorem scanNumber_append {s : NumberState} {number : List UInt8}
    (h : scanNumber s text = some (number, rest)) :
    text = number ++ rest ∧ (s.accepts = false → number ≠ []) ∧
      ∀ more, Stops more → scanNumber s (text ++ more) = some (number, rest ++ more) := by
  induction text generalizing s number with
  | nil =>
      rw [scanNumber] at h
      split at h
      · rename_i haccepts
        cases h
        refine ⟨rfl, fun hnot => by simp [haccepts] at hnot, fun more hmore => ?_⟩
        cases more with
        | nil => simp [scanNumber, haccepts]
        | cons c rest => simp [scanNumber, hmore c rest rfl s, haccepts]
      · cases h
  | cons c text ih =>
      rw [scanNumber] at h
      split at h
      · rename_i s' hstep
        obtain ⟨⟨number', rest'⟩, hscan, heq⟩ := Option.map_eq_some_iff.mp h
        cases heq
        obtain ⟨htext, -, happend⟩ := ih hscan
        refine ⟨by rw [htext]; rfl, fun _ => List.cons_ne_nil _ _, fun more hmore => ?_⟩
        rw [List.cons_append, scanNumber, hstep]
        simp [happend more hmore]
      · rename_i hstep
        split at h
        · rename_i haccepts
          cases h
          refine ⟨rfl, fun hnot => by simp [haccepts] at hnot, fun more hmore => ?_⟩
          rw [List.cons_append, scanNumber, hstep]
          simp [haccepts]
        · cases h

theorem scanString_append {s : StringState} {string : List UInt8}
    (h : scanString s text = some (string, rest)) :
    rest.length < text.length ∧
      ∀ more, scanString s (text ++ more) = some (string, rest ++ more) := by
  induction text generalizing s string with
  | nil => cases h
  | cons c text ih =>
      rw [scanString] at h
      split at h
      · rename_i hend
        cases h
        refine ⟨Nat.lt_succ_self _, fun more => ?_⟩
        rw [List.cons_append, scanString, if_pos hend]
      · rename_i hend
        split at h
        · cases h
        · rename_i s' gained hstep
          obtain ⟨⟨string', rest'⟩, hscan, heq⟩ := Option.map_eq_some_iff.mp h
          cases heq
          obtain ⟨hlength, happend⟩ := ih hscan
          refine ⟨Nat.lt_succ_of_lt hlength, fun more => ?_⟩
          rw [List.cons_append, scanString, if_neg hend, hstep]
          simp [happend more]

theorem literal_append {word : List UInt8} {v w : Json} (h : literal word v text = some (w, rest)) :
    rest.length ≤ text.length ∧ literal word v (text ++ more) = some (w, rest ++ more) := by
  unfold literal at h
  split at h
  · rename_i hpre
    cases h
    obtain ⟨after, rfl⟩ := List.isPrefixOf_iff_prefix.mp hpre
    simp [literal]
  · cases h

variable {validText : List UInt8 → Bool}

theorem string?_append {string : List UInt8} (h : string? validText text = some (string, rest)) :
    rest.length < text.length ∧
      ∀ more, string? validText (text ++ more) = some (string, rest ++ more) := by
  obtain ⟨hscan, hvalid⟩ := Option.filter_eq_some_iff.mp h
  obtain ⟨hlength, happend⟩ := scanString_append hscan
  exact ⟨hlength, fun more => by rw [string?, happend, Option.filter_some, if_pos hvalid]⟩

/-- Reading leaves less text, and comes out the same with more text behind it and with any fuel that
covers the text. -/
def Local {α : Type} (read : Nat → List UInt8 → Option (α × List UInt8)) (slack fuel : Nat) : Prop :=
  ∀ text a rest, read fuel text = some (a, rest) → rest.length < text.length ∧
    ∀ fuel' more, 2 * text.length + slack ≤ fuel' → Stops more →
      read fuel' (text ++ more) = some (a, rest ++ more)

theorem value_local_succ {fuel : Nat} (hmembers : Local (members validText) 0 fuel)
    (hitems : Local (items validText) 1 fuel) : Local (value validText) 0 (fuel + 1) := by
  intro text v rest h
  rw [value] at h
  simp only [Option.bind_eq_bind, Option.bind_eq_some_iff, Prod.exists] at h
  obtain ⟨c, after, hnext, h⟩ := h
  have hafter := next_length hnext
  suffices hrest : rest.length < text.length ∧ ∀ fuel' more, 2 * text.length ≤ fuel' + 1 →
      Stops more → value validText (fuel' + 1) (text ++ more) = some (v, rest ++ more) by
    refine ⟨hrest.1, fun fuel' more hfuel hmore => ?_⟩
    obtain ⟨fuel', rfl⟩ : ∃ k, fuel' = k + 1 := Nat.exists_eq_succ_of_ne_zero (by omega)
    exact hrest.2 fuel' more hfuel hmore
  -- What is read after the first byte, and how the text goes on, by what that byte is.
  by_cases hbrace : c = openBrace
  · rw [if_pos hbrace] at h
    obtain ⟨⟨d, inner⟩, hinner, h⟩ := Option.bind_eq_some_iff.mp h
    have hlength := next_length hinner
    by_cases hd : d = closeBrace
    · rw [if_pos hd] at h
      dsimp only at h
      cases h
      refine ⟨by omega, fun fuel' more hfuel hmore => ?_⟩
      simp only [value, next_append hnext, next_append hinner, Option.bind_eq_bind,
        Option.bind_some, if_pos hbrace, if_pos hd]
    · rw [if_neg hd] at h
      obtain ⟨⟨ms, left⟩, hread, h⟩ := Option.bind_eq_some_iff.mp h
      dsimp only at h
      cases h
      obtain ⟨hleft, happend⟩ := hmembers _ _ _ hread
      refine ⟨by omega, fun fuel' more hfuel hmore => ?_⟩
      simp only [value, next_append hnext, next_append hinner, Option.bind_eq_bind,
        Option.bind_some, if_pos hbrace, if_neg hd, happend fuel' more (by omega) hmore]
  rw [if_neg hbrace] at h
  by_cases hbracket : c = openBracket
  · rw [if_pos hbracket] at h
    obtain ⟨⟨d, inner⟩, hinner, h⟩ := Option.bind_eq_some_iff.mp h
    have hlength := next_length hinner
    by_cases hd : d = closeBracket
    · rw [if_pos hd] at h
      dsimp only at h
      cases h
      refine ⟨by omega, fun fuel' more hfuel hmore => ?_⟩
      simp only [value, next_append hnext, next_append hinner, Option.bind_eq_bind,
        Option.bind_some, if_neg hbrace, if_pos hbracket, if_pos hd]
    · rw [if_neg hd] at h
      obtain ⟨⟨is, left⟩, hread, h⟩ := Option.bind_eq_some_iff.mp h
      dsimp only at h
      cases h
      obtain ⟨hleft, happend⟩ := hitems _ _ _ hread
      refine ⟨by omega, fun fuel' more hfuel hmore => ?_⟩
      simp only [value, next_append hnext, next_append hinner, Option.bind_eq_bind,
        Option.bind_some, if_neg hbrace, if_pos hbracket, if_neg hd,
        happend fuel' more (by omega) hmore]
  rw [if_neg hbracket] at h
  by_cases hquote : c = quote
  · rw [if_pos hquote] at h
    obtain ⟨⟨string, left⟩, hread, h⟩ := Option.bind_eq_some_iff.mp h
    dsimp only at h
    cases h
    obtain ⟨hleft, happend⟩ := string?_append hread
    refine ⟨by omega, fun fuel' more hfuel hmore => ?_⟩
    simp only [value, next_append hnext, Option.bind_eq_bind, Option.bind_some, if_neg hbrace,
      if_neg hbracket, if_pos hquote, happend more]
  rw [if_neg hquote] at h
  have hword : ∀ (word : List UInt8) (w : Json), literal word w after = some (v, rest) →
      rest.length < text.length ∧
        ∀ more, literal word w (after ++ more) = some (v, rest ++ more) := fun word w hread =>
    ⟨Nat.lt_of_le_of_lt (@literal_append after rest [] _ _ _ hread).1 hafter, fun more =>
      (literal_append hread).2⟩
  by_cases htrue : c = 116
  · rw [if_pos htrue] at h
    obtain ⟨hleft, happend⟩ := hword _ _ h
    refine ⟨hleft, fun fuel' more hfuel hmore => ?_⟩
    simp only [value, next_append hnext, Option.bind_eq_bind, Option.bind_some, if_neg hbrace,
      if_neg hbracket, if_neg hquote, if_pos htrue, happend more]
  rw [if_neg htrue] at h
  by_cases hfalse : c = 102
  · rw [if_pos hfalse] at h
    obtain ⟨hleft, happend⟩ := hword _ _ h
    refine ⟨hleft, fun fuel' more hfuel hmore => ?_⟩
    simp only [value, next_append hnext, Option.bind_eq_bind, Option.bind_some, if_neg hbrace,
      if_neg hbracket, if_neg hquote, if_neg htrue, if_pos hfalse, happend more]
  rw [if_neg hfalse] at h
  by_cases hnull : c = 110
  · rw [if_pos hnull] at h
    obtain ⟨hleft, happend⟩ := hword _ _ h
    refine ⟨hleft, fun fuel' more hfuel hmore => ?_⟩
    simp only [value, next_append hnext, Option.bind_eq_bind, Option.bind_some, if_neg hbrace,
      if_neg hbracket, if_neg hquote, if_neg htrue, if_neg hfalse, if_pos hnull, happend more]
  rw [if_neg hnull] at h
  obtain ⟨⟨number, left⟩, hread, h⟩ := Option.bind_eq_some_iff.mp h
  dsimp only at h
  cases h
  obtain ⟨htext, hnonempty, happend⟩ := scanNumber_append hread
  have hleft : rest.length ≤ after.length := by
    have hlength := congrArg List.length htext
    have hpos := List.length_pos_iff.mpr (hnonempty rfl)
    simp only [List.length_cons, List.length_append] at hlength
    omega
  refine ⟨by omega, fun fuel' more hfuel hmore => ?_⟩
  have hscan := happend more hmore
  rw [List.cons_append] at hscan
  simp only [value, next_append hnext, Option.bind_eq_bind, Option.bind_some, if_neg hbrace,
    if_neg hbracket, if_neg hquote, if_neg htrue, if_neg hfalse, if_neg hnull, hscan]

theorem stops_cons {c : UInt8} {more : List UInt8} (h : ∀ s : NumberState, s.step c = none) :
    Stops (c :: more) := by
  rintro d rest heq
  cases heq
  exact h

/-- No number goes on with a separator. -/
theorem step_separator {c : UInt8} (h : c = comma ∨ c = closeBrace ∨ c = closeBracket)
    (s : NumberState) : s.step c = none := by
  rcases h with rfl | rfl | rfl <;> cases s <;> decide

theorem members_local_succ {fuel : Nat} (hvalue : Local (value validText) 0 fuel)
    (hmembers : Local (members validText) 0 fuel) : Local (members validText) 0 (fuel + 1) := by
  intro text ms rest h
  rw [members] at h
  simp only [Option.bind_eq_bind, Option.bind_eq_some_iff, Prod.exists] at h
  obtain ⟨c, after, hnext, h⟩ := h
  have hafter := next_length hnext
  suffices hrest : rest.length < text.length ∧ ∀ fuel' more, 2 * text.length ≤ fuel' + 1 →
      Stops more → members validText (fuel' + 1) (text ++ more) = some (ms, rest ++ more) by
    refine ⟨hrest.1, fun fuel' more hfuel hmore => ?_⟩
    obtain ⟨fuel', rfl⟩ : ∃ k, fuel' = k + 1 := Nat.exists_eq_succ_of_ne_zero (by omega)
    exact hrest.2 fuel' more hfuel hmore
  split at h
  swap
  · cases h
  rename_i hquote
  obtain ⟨⟨name, afterName⟩, hname, h⟩ := Option.bind_eq_some_iff.mp h
  dsimp only at h
  obtain ⟨hnameLength, hnameAppend⟩ := string?_append hname
  obtain ⟨⟨d, afterColon⟩, hcolon, h⟩ := Option.bind_eq_some_iff.mp h
  dsimp only at h
  have hcolonLength := next_length hcolon
  split at h
  swap
  · cases h
  rename_i hd
  obtain ⟨⟨v, afterValue⟩, hread, h⟩ := Option.bind_eq_some_iff.mp h
  dsimp only at h
  obtain ⟨hvalueLength, hvalueAppend⟩ := hvalue _ _ _ hread
  obtain ⟨⟨e, afterSeparator⟩, hseparator, h⟩ := Option.bind_eq_some_iff.mp h
  dsimp only at h
  have hseparatorLength := next_length hseparator
  split at h
  · rename_i he
    obtain ⟨⟨ms', left⟩, hms, h⟩ := Option.bind_eq_some_iff.mp h
    dsimp only at h
    cases h
    obtain ⟨hleft, happend⟩ := hmembers _ _ _ hms
    refine ⟨by omega, fun fuel' more hfuel hmore => ?_⟩
    simp only [members, next_append hnext, hnameAppend more, next_append hcolon,
      hvalueAppend fuel' more (by omega) hmore, next_append hseparator,
      happend fuel' more (by omega) hmore, Option.bind_eq_bind, Option.bind_some, if_pos hquote,
      if_pos hd, if_pos he]
  split at h
  · rename_i hcomma he
    cases h
    refine ⟨by omega, fun fuel' more hfuel hmore => ?_⟩
    simp only [members, next_append hnext, hnameAppend more, next_append hcolon,
      hvalueAppend fuel' more (by omega) hmore, next_append hseparator, Option.bind_eq_bind,
      Option.bind_some, if_pos hquote, if_pos hd, if_neg hcomma, if_pos he]
  · cases h

theorem items_local_succ {fuel : Nat} (hvalue : Local (value validText) 0 fuel)
    (hitems : Local (items validText) 1 fuel) : Local (items validText) 1 (fuel + 1) := by
  intro text is rest h
  rw [items] at h
  simp only [Option.bind_eq_bind, Option.bind_eq_some_iff, Prod.exists] at h
  obtain ⟨v, afterValue, hread, h⟩ := h
  obtain ⟨hvalueLength, hvalueAppend⟩ := hvalue _ _ _ hread
  suffices hrest : rest.length < text.length ∧ ∀ fuel' more, 2 * text.length ≤ fuel' →
      Stops more → items validText (fuel' + 1) (text ++ more) = some (is, rest ++ more) by
    refine ⟨hrest.1, fun fuel' more hfuel hmore => ?_⟩
    obtain ⟨fuel', rfl⟩ : ∃ k, fuel' = k + 1 := Nat.exists_eq_succ_of_ne_zero (by omega)
    exact hrest.2 fuel' more (by omega) hmore
  obtain ⟨c, afterSeparator, hseparator, h⟩ := h
  have hseparatorLength := next_length hseparator
  split at h
  · rename_i hc
    obtain ⟨⟨is', left⟩, his, h⟩ := Option.bind_eq_some_iff.mp h
    dsimp only at h
    cases h
    obtain ⟨hleft, happend⟩ := hitems _ _ _ his
    refine ⟨by omega, fun fuel' more hfuel hmore => ?_⟩
    simp only [items, hvalueAppend fuel' more (by omega) hmore, next_append hseparator,
      happend fuel' more (by omega) hmore, Option.bind_eq_bind, Option.bind_some, if_pos hc]
  split at h
  · rename_i hcomma hc
    cases h
    refine ⟨by omega, fun fuel' more hfuel hmore => ?_⟩
    simp only [items, hvalueAppend fuel' more (by omega) hmore, next_append hseparator,
      Option.bind_eq_bind, Option.bind_some, if_neg hcomma, if_pos hc]
  · cases h

/-- What the reader makes of a text does not depend on what follows it. -/
theorem value_local (validText : List UInt8 → Bool) (fuel : Nat) :
    Local (value validText) 0 fuel ∧ Local (members validText) 0 fuel ∧
      Local (items validText) 1 fuel := by
  induction fuel with
  | zero =>
      refine ⟨?_, ?_, ?_⟩
      · rintro text v rest ⟨⟩
      · rintro text v rest ⟨⟩
      · rintro text v rest ⟨⟩
  | succ fuel ih =>
      obtain ⟨hvalue, hmembers, hitems⟩ := ih
      exact ⟨value_local_succ hmembers hitems, members_local_succ hvalue hmembers,
        items_local_succ hvalue hitems⟩

/-- The fuel that `parse` gives is enough: with more, no more texts are read. -/
theorem value_of_fuel {fuel : Nat} {v : Json} (h : value validText fuel text = some (v, rest)) :
    value validText (2 * text.length) text = some (v, rest) := by
  have happend := ((value_local validText fuel).1 _ _ _ h).2 (2 * text.length) [] (Nat.le_refl _)
    stops_nil
  simpa using happend

end Append

/-! ## Texts that are read as a value -/

section Reads

variable {validText : List UInt8 → Bool} {text rest : List UInt8} {v : Json}

/-- In front of anything that stops a number, the text is read as the value. -/
def Reads (validText : List UInt8 → Bool) (text : List UInt8) (v : Json) : Prop :=
  ∃ space, (∀ c ∈ space, isSpace c = true) ∧ ∀ fuel more, 2 * text.length ≤ fuel → Stops more →
    value validText fuel (text ++ more) = some (v, space ++ more)

theorem next_eq_none : next text = none ↔ ∀ c ∈ text, isSpace c = true := by
  unfold next
  rw [← List.dropWhile_eq_nil_iff]
  split <;> simp_all

theorem reads_of_parse (h : parse validText text = some v) : Reads validText text v := by
  unfold parse at h
  split at h
  · rename_i w rest hvalue
    split at h
    · rename_i hspace
      cases h
      refine ⟨rest, next_eq_none.mp hspace, fun fuel more hfuel hmore => ?_⟩
      exact ((value_local validText _).1 _ _ _ hvalue).2 fuel more hfuel hmore
    · cases h
  · cases h

theorem parse_of_reads (h : Reads validText text v) : parse validText text = some v := by
  obtain ⟨space, hspace, hreads⟩ := h
  have hvalue := hreads (2 * text.length) [] (Nat.le_refl _) stops_nil
  rw [List.append_nil, List.append_nil] at hvalue
  rw [parse, hvalue]
  exact if_pos (next_eq_none.mpr hspace)

/-- A text is read as a value exactly when it parses as that value. -/
theorem parse_eq_some : parse validText text = some v ↔ Reads validText text v :=
  ⟨reads_of_parse, parse_of_reads⟩

theorem next_cons_of_not_space {c : UInt8} (h : isSpace c = false) : next (c :: rest) = some (c, rest) := by
  rw [next, List.dropWhile_cons, if_neg (by simp [h])]

/-- After a value and the space behind it, the next byte is the one that follows. -/
theorem next_space_append {space : List UInt8} (hspace : ∀ c ∈ space, isSpace c = true) {c : UInt8}
    (h : isSpace c = false) : next (space ++ c :: rest) = some (c, rest) := by
  rw [next, List.dropWhile_append_of_pos hspace]
  exact next_cons_of_not_space h

/-- No byte that starts a value or separates two is a space. -/
theorem isSpace_of_token {c : UInt8} (h : c = quote ∨ c = colon ∨ c = comma ∨ c = openBrace ∨
    c = closeBrace) : isSpace c = false := by
  rcases h with rfl | rfl | rfl | rfl | rfl <;> rfl

/-! ## Strings -/

/-- One byte of a string, as it is written. -/
def escapeByte (c : UInt8) : List UInt8 :=
  let hexByte (n : Nat) : UInt8 := if n < 10 then UInt8.ofNat (48 + n) else UInt8.ofNat (87 + n)
  if c = quote ∨ c = backslash then [backslash, c]
  else if c = 8 then [backslash, 98]
  else if c = 12 then [backslash, 102]
  else if c = 10 then [backslash, 110]
  else if c = 13 then [backslash, 114]
  else if c = 9 then [backslash, 116]
  else if c < 32 then [backslash, 117, 48, 48, hexByte (c.toNat / 16), hexByte (c.toNat % 16)]
  else [c]

/-- A string, as it is written. -/
def stringText (string : List UInt8) : List UInt8 := quote :: string.flatMap escapeByte ++ [quote]

/-- The states of a string that `bytes` leads through, and what it gains. -/
def StringState.run (s : StringState) : List UInt8 → Option (StringState × List UInt8)
  | [] => some (s, [])
  | c :: rest =>
    (s.step c).bind fun (s', gained) => (s'.run rest).map fun (s'', more) => (s'', gained ++ more)

theorem StringState.step_plain_quote : StringState.plain.step quote = none := rfl

theorem scanString_append_of_run {s s' : StringState} {bytes gained : List UInt8}
    (h : s.run bytes = some (s', gained)) (rest : List UInt8) :
    scanString s (bytes ++ rest) =
      (scanString s' rest).map fun (chars, rest) => (gained ++ chars, rest) := by
  induction bytes generalizing s gained with
  | nil =>
      cases h
      simp
  | cons c bytes ih =>
      rw [StringState.run] at h
      obtain ⟨⟨t, now⟩, hstep, h⟩ := Option.bind_eq_some_iff.mp h
      obtain ⟨⟨u, later⟩, hrun, heq⟩ := Option.map_eq_some_iff.mp h
      cases heq
      rw [List.cons_append, scanString, if_neg, hstep]
      · simp only [ih hrun, Option.map_map]
        congr 1
        funext ⟨chars, rest⟩
        simp
      · rintro ⟨rfl, rfl⟩
        rw [StringState.step_plain_quote] at hstep
        cases hstep

/-- What stands for a byte is read as that byte. -/
theorem run_escapeByte (c : UInt8) : StringState.plain.run (escapeByte c) = some (.plain, [c]) := by
  have hall : ∀ n : Fin 256,
      StringState.plain.run (escapeByte (UInt8.ofNat n)) = some (.plain, [UInt8.ofNat n]) := by
    decide +kernel
  have hc := hall ⟨c.toNat, c.toNat_lt⟩
  rwa [UInt8.ofNat_toNat] at hc

theorem scanString_escape (string rest : List UInt8) :
    scanString .plain (string.flatMap escapeByte ++ quote :: rest) = some (string, rest) := by
  induction string with
  | nil => rfl
  | cons c string ih =>
      rw [List.flatMap_cons, List.append_assoc, scanString_append_of_run (run_escapeByte c), ih]
      rfl

theorem string?_escape {string : List UInt8} (h : validText string = true) (rest : List UInt8) :
    string? validText (string.flatMap escapeByte ++ quote :: rest) = some (string, rest) := by
  rw [string?, scanString_escape, Option.filter_some, if_pos h]

/-- A string that is written is read as that string. -/
theorem reads_stringText {string : List UInt8} (h : validText string = true) :
    Reads validText (stringText string) (.string string) := by
  refine ⟨[], by simp, fun fuel more hfuel _ => ?_⟩
  obtain ⟨fuel, rfl⟩ : ∃ k, fuel = k + 1 :=
    Nat.exists_eq_succ_of_ne_zero (by simp [stringText] at hfuel; omega)
  have hstring := string?_escape h more
  simp only [stringText, List.cons_append, List.append_assoc, List.nil_append, value,
    next_cons_of_not_space (isSpace_of_token (.inl rfl)), Option.bind_eq_bind, Option.bind_some,
    hstring]
  rfl

/-! ## Words and numbers -/

theorem reads_true : Reads validText [116, 114, 117, 101] (.bool true) :=
  reads_of_parse rfl

theorem reads_false : Reads validText [102, 97, 108, 115, 101] (.bool false) :=
  reads_of_parse rfl

theorem reads_null : Reads validText [110, 117, 108, 108] .null :=
  reads_of_parse rfl

theorem scanNumber_digits {digits : List UInt8} (h : ∀ c ∈ digits, isDigit c = true) :
    scanNumber .integer digits = some (digits, []) := by
  induction digits with
  | nil => rfl
  | cons c digits ih =>
      have hstep : NumberState.integer.step c = some .integer := by
        rw [NumberState.step, if_pos (h c (List.mem_cons_self ..))]
      rw [scanNumber, hstep]
      simp [ih fun b hb => h b (List.mem_cons_of_mem _ hb)]

/-- A number without a fraction or an exponent: digits, with no zero in front of others. -/
structure Whole (digits : List UInt8) : Prop where
  allDigits : ∀ c ∈ digits, isDigit c = true
  nonempty : digits ≠ []
  leading : digits.head? = some 48 → digits = [48]

theorem Whole.scanNumber_minus {digits : List UInt8} (h : Whole digits) :
    scanNumber .minus digits = some (digits, []) := by
  obtain ⟨hdigits, hnonempty, hleading⟩ := h
  cases digits with
  | nil => exact absurd rfl hnonempty
  | cons c digits =>
      by_cases hc : c = 48
      · cases hleading (by rw [hc]; rfl)
        rfl
      · have hstep : NumberState.minus.step c = some .integer := by
          rw [NumberState.step, NumberState.firstDigit, if_neg hc,
            if_pos (hdigits c (List.mem_cons_self ..))]
        rw [scanNumber, hstep]
        simp [scanNumber_digits fun b hb => hdigits b (List.mem_cons_of_mem _ hb)]

/-- The first byte of a number starts nothing else. -/
theorem reads_of_scanNumber {c : UInt8} {digits : List UInt8}
    (hc : isDigit c = true ∨ c = 45)
    (h : scanNumber .start (c :: digits) = some (c :: digits, [])) :
    Reads validText (c :: digits) (.number (c :: digits)) := by
  refine ⟨[], by simp, fun fuel more hfuel hmore => ?_⟩
  obtain ⟨fuel, rfl⟩ : ∃ k, fuel = k + 1 :=
    Nat.exists_eq_succ_of_ne_zero (by simp at hfuel; omega)
  have hother : ∀ b : UInt8, isDigit b = false → b ≠ 45 → c ≠ b := by
    rintro b hdigit hminus rfl
    rcases hc with hc | hc
    · simp [hdigit] at hc
    · exact hminus hc
  have hspace : isSpace c = false := by
    simp only [isSpace, Bool.or_eq_false_iff, decide_eq_false_iff_not]
    exact ⟨⟨⟨hother _ rfl (by decide), hother _ rfl (by decide)⟩, hother _ rfl (by decide)⟩,
      hother _ rfl (by decide)⟩
  have hscan := (scanNumber_append h).2.2 more hmore
  rw [List.cons_append] at hscan
  simp only [List.cons_append, value, next_cons_of_not_space hspace, Option.bind_eq_bind,
    Option.bind_some, if_neg (hother openBrace rfl (by decide)),
    if_neg (hother openBracket rfl (by decide)), if_neg (hother quote rfl (by decide)),
    if_neg (hother 116 rfl (by decide)), if_neg (hother 102 rfl (by decide)),
    if_neg (hother 110 rfl (by decide)), hscan]

theorem Whole.reads {digits : List UInt8} (h : Whole digits) :
    Reads validText digits (.number digits) := by
  have hscan := h.scanNumber_minus
  obtain ⟨hdigits, hnonempty, -⟩ := h
  cases digits with
  | nil => exact absurd rfl hnonempty
  | cons c digits =>
      have hc := hdigits c (List.mem_cons_self ..)
      have hminus : c ≠ 45 := by
        rintro rfl
        exact absurd hc (by decide)
      refine reads_of_scanNumber (.inl hc) ?_
      rw [scanNumber] at hscan ⊢
      rwa [NumberState.step, if_neg hminus]

theorem Whole.reads_neg {digits : List UInt8} (h : Whole digits) :
    Reads validText (45 :: digits) (.number (45 :: digits)) := by
  refine reads_of_scanNumber (.inr rfl) ?_
  have hstep : NumberState.start.step 45 = some .minus := rfl
  rw [scanNumber, hstep]
  simp [h.scanNumber_minus]

/-! ## Objects -/

/-- A member as it is written. -/
def memberText (name value : List UInt8) : List UInt8 := stringText name ++ colon :: value

/-- The members after the first, and the brace. -/
def moreMembers (ms : List (List UInt8 × List UInt8)) : List UInt8 :=
  ms.flatMap (fun m => comma :: memberText m.1 m.2) ++ [closeBrace]

/-- An object with a member, as it is written. -/
def objectText (m : List UInt8 × List UInt8) (ms : List (List UInt8 × List UInt8)) : List UInt8 :=
  openBrace :: (memberText m.1 m.2 ++ moreMembers ms)

/-- The texts of members, and the values that they are read as. -/
def ReadsMembers (validText : List UInt8 → Bool) (ms : List (List UInt8 × List UInt8))
    (vs : List (List UInt8 × Json)) : Prop :=
  List.Forall₂ (fun m v => m.1 = v.1 ∧ validText m.1 = true ∧ Reads validText m.2 v.2) ms vs

/-- One member that is written, and the separator behind it. -/
theorem members_memberText_cons {name valueText : List UInt8} (hname : validText name = true)
    (hreads : Reads validText valueText v) {fuel : Nat} (hfuel : 2 * valueText.length ≤ fuel)
    {c : UInt8} (hc : c = comma ∨ c = closeBrace) (rest : List UInt8) :
    members validText (fuel + 1) (memberText name valueText ++ c :: rest) =
      if c = comma then (members validText fuel rest).map fun (ms, rest) => ((name, v) :: ms, rest)
      else some ([(name, v)], rest) := by
  obtain ⟨space, hspace, hvalue⟩ := hreads
  have htext : memberText name valueText ++ c :: rest =
      quote :: (name.flatMap escapeByte ++ quote :: (colon :: (valueText ++ c :: rest))) := by
    simp [memberText, stringText]
  have hstops : Stops (c :: rest) := stops_cons fun s => step_separator (by tauto) s
  have hnext : next (space ++ c :: rest) = some (c, rest) :=
    next_space_append hspace (isSpace_of_token (by tauto))
  rw [htext]
  simp only [members, next_cons_of_not_space (isSpace_of_token (.inl rfl : quote = quote ∨ _)),
    next_cons_of_not_space (isSpace_of_token (.inr (.inl rfl) : colon = quote ∨ _)),
    string?_escape hname, hvalue fuel _ hfuel hstops, hnext, Option.bind_eq_bind,
    Option.bind_some, if_true]
  rcases hc with rfl | rfl
  · rw [if_pos rfl, if_pos rfl, Option.map_eq_bind]
    rfl
  · have hne : ¬closeBrace = comma := by decide
    rw [if_neg hne, if_neg hne, if_pos rfl]

/-- Members that are written are read as members. -/
theorem members_memberText {name valueText : List UInt8} (hname : validText name = true)
    (hreads : Reads validText valueText v) {ms : List (List UInt8 × List UInt8)}
    {vs : List (List UInt8 × Json)} (hms : ReadsMembers validText ms vs) {fuel : Nat}
    (hfuel : 2 * (memberText name valueText ++ moreMembers ms).length ≤ fuel) (more : List UInt8) :
    members validText fuel (memberText name valueText ++ (moreMembers ms ++ more)) =
      some ((name, v) :: vs, more) := by
  obtain ⟨fuel, rfl⟩ : ∃ k, fuel = k + 1 :=
    Nat.exists_eq_succ_of_ne_zero (by simp [memberText] at hfuel; omega)
  induction hms generalizing name valueText v fuel with
  | nil =>
      rw [show moreMembers [] ++ more = closeBrace :: more from rfl,
        members_memberText_cons hname hreads (by simp [memberText] at hfuel; omega) (.inr rfl),
        if_neg (by decide)]
  | @cons m w ms vs hm hms ih =>
      obtain ⟨hkey, hvalid, hvalue⟩ := hm
      have hmore : moreMembers (m :: ms) ++ more =
          comma :: (memberText m.1 m.2 ++ (moreMembers ms ++ more)) := by
        simp [moreMembers]
      have hlength : 2 * (memberText m.1 m.2 ++ moreMembers ms).length + 1 ≤ fuel := by
        simp [moreMembers, memberText, stringText] at hfuel ⊢
        omega
      obtain ⟨fuel, rfl⟩ : ∃ k, fuel = k + 1 := Nat.exists_eq_succ_of_ne_zero (by omega)
      rw [hmore, members_memberText_cons hname hreads ?_ (.inl rfl), if_pos rfl,
        ih hvalid hvalue fuel (by omega), hkey]
      · rfl
      · simp [memberText] at hfuel
        omega

/-- An object that is written is read as that object. -/
theorem reads_objectText {m : List UInt8 × List UInt8} {w : List UInt8 × Json}
    {ms : List (List UInt8 × List UInt8)} {vs : List (List UInt8 × Json)}
    (h : ReadsMembers validText (m :: ms) (w :: vs)) :
    Reads validText (objectText m ms) (.object (w :: vs)) := by
  obtain ⟨⟨hkey, hvalid, hvalue⟩, hms⟩ := List.forall₂_cons.mp h
  obtain ⟨name, valueText⟩ := m
  obtain ⟨name', v⟩ := w
  obtain rfl : name = name' := hkey
  refine ⟨[], by simp, fun fuel more hfuel _ => ?_⟩
  obtain ⟨fuel, rfl⟩ : ∃ k, fuel = k + 1 :=
    Nat.exists_eq_succ_of_ne_zero (by simp [objectText] at hfuel; omega)
  have hroom : 2 * (memberText name valueText ++ moreMembers ms).length ≤ fuel := by
    simp [objectText] at hfuel ⊢
    omega
  have hmembers := members_memberText hvalid hvalue hms hroom more
  have htext : objectText (name, valueText) ms ++ more =
      openBrace :: (memberText name valueText ++ (moreMembers ms ++ more)) := by
    simp [objectText]
  have hquote : next (memberText name valueText ++ (moreMembers ms ++ more)) =
      some (quote, name.flatMap escapeByte ++
        ([quote] ++ (colon :: (valueText ++ (moreMembers ms ++ more))))) := by
    simp only [memberText, stringText, List.cons_append, List.append_assoc]
    exact next_cons_of_not_space (isSpace_of_token (.inl rfl))
  rw [htext]
  simp only [value, next_cons_of_not_space (isSpace_of_token (.inr (.inr (.inr (.inl rfl))) :
    openBrace = quote ∨ _)), hquote, hmembers, Option.bind_eq_bind, Option.bind_some,
    if_true, if_neg (show quote ≠ closeBrace by decide)]
  rfl

/-! ## Arrays -/

/-- The items after the first, and the bracket. -/
def moreItems (texts : List (List UInt8)) : List UInt8 :=
  texts.flatMap (fun text => comma :: text) ++ [closeBracket]

/-- An array with an item, as it is written. -/
def arrayText (text : List UInt8) (texts : List (List UInt8)) : List UInt8 :=
  openBracket :: (text ++ moreItems texts)

/-- A value does not start with a bracket that closes. -/
theorem next_of_value {fuel : Nat} (h : value validText fuel text = some (v, rest)) :
    ∃ c after, next text = some (c, after) ∧ c ≠ closeBracket := by
  cases fuel with
  | zero => cases h
  | succ fuel =>
      rw [value] at h
      obtain ⟨⟨c, after⟩, hnext, h⟩ := Option.bind_eq_some_iff.mp h
      refine ⟨c, after, hnext, ?_⟩
      rintro rfl
      cases h

/-- Items that are written are read as items. -/
theorem items_moreItems (hreads : Reads validText text v) {texts : List (List UInt8)}
    {vs : List Json} (hitems : List.Forall₂ (Reads validText) texts vs) {fuel : Nat}
    (hfuel : 2 * (text ++ moreItems texts).length ≤ fuel) (more : List UInt8) :
    items validText fuel (text ++ (moreItems texts ++ more)) = some (v :: vs, more) := by
  obtain ⟨fuel, rfl⟩ : ∃ k, fuel = k + 1 :=
    Nat.exists_eq_succ_of_ne_zero (by simp [moreItems] at hfuel; omega)
  induction hitems generalizing text v fuel with
  | nil =>
      obtain ⟨space, hspace, hvalue⟩ := hreads
      have hstops : Stops (closeBracket :: more) :=
        stops_cons fun s => step_separator (.inr (.inr rfl)) s
      have hne : ¬closeBracket = comma := by decide
      have hbracket : next (space ++ closeBracket :: more) = some (closeBracket, more) :=
        next_space_append hspace rfl
      rw [show moreItems [] ++ more = closeBracket :: more from rfl]
      simp only [items, hvalue fuel _ (by simp [moreItems] at hfuel; omega) hstops, hbracket,
        Option.bind_eq_bind, Option.bind_some, if_neg hne, if_true]
  | @cons next_text w texts vs hw hitems ih =>
      obtain ⟨space, hspace, hvalue⟩ := hreads
      have hmore : moreItems (next_text :: texts) ++ more =
          comma :: (next_text ++ (moreItems texts ++ more)) := by simp [moreItems]
      have hstops : Stops (comma :: (next_text ++ (moreItems texts ++ more))) :=
        stops_cons fun s => step_separator (.inl rfl) s
      have hcomma : next (space ++ comma :: (next_text ++ (moreItems texts ++ more))) =
          some (comma, next_text ++ (moreItems texts ++ more)) := next_space_append hspace rfl
      have hlength : 2 * (next_text ++ moreItems texts).length + 1 ≤ fuel := by
        simp [moreItems] at hfuel ⊢
        omega
      obtain ⟨fuel, rfl⟩ : ∃ k, fuel = k + 1 := Nat.exists_eq_succ_of_ne_zero (by omega)
      rw [hmore]
      simp only [items, hvalue (fuel + 1) _ (by simp [moreItems] at hfuel; omega) hstops, hcomma,
        Option.bind_eq_bind, Option.bind_some, if_true]
      have hrest := ih hw fuel (by omega)
      simp only [items, Option.bind_eq_bind] at hrest
      rw [hrest]
      rfl

/-- An array that is written is read as that array. -/
theorem reads_arrayText (hreads : Reads validText text v) {texts : List (List UInt8)}
    {vs : List Json} (hitems : List.Forall₂ (Reads validText) texts vs) :
    Reads validText (arrayText text texts) (.array (v :: vs)) := by
  refine ⟨[], by simp, fun fuel more hfuel _ => ?_⟩
  obtain ⟨fuel, rfl⟩ : ∃ k, fuel = k + 1 :=
    Nat.exists_eq_succ_of_ne_zero (by simp [arrayText] at hfuel; omega)
  have hroom : 2 * (text ++ moreItems texts).length ≤ fuel := by
    simp [arrayText] at hfuel ⊢
    omega
  have hall := items_moreItems hreads hitems hroom more
  have hfirst : ∃ c after, next (text ++ (moreItems texts ++ more)) = some (c, after) ∧
      c ≠ closeBracket := by
    obtain ⟨space, -, hvalue⟩ := hreads
    refine next_of_value (hvalue (2 * text.length) (moreItems texts ++ more) (Nat.le_refl _) ?_)
    cases texts with
    | nil => exact stops_cons fun s => step_separator (.inr (.inr rfl)) s
    | cons t ts => exact stops_cons fun s => step_separator (.inl rfl) s
  obtain ⟨c, after, hnext, hne⟩ := hfirst
  have htext : arrayText text texts ++ more =
      openBracket :: (text ++ (moreItems texts ++ more)) := by simp [arrayText]
  have hbracket : next (openBracket :: (text ++ (moreItems texts ++ more))) =
      some (openBracket, text ++ (moreItems texts ++ more)) := next_cons_of_not_space rfl
  have hbrace : ¬openBracket = openBrace := by decide
  rw [htext]
  simp only [value, hbracket, hnext, hall, Option.bind_eq_bind, Option.bind_some, if_neg hbrace,
    if_true, if_neg hne]
  rfl

end Reads

end Json

end Muxly.Data
