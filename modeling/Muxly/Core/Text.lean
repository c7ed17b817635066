/-
# Muxly.Core.Text -- bytes as text: decimal numbers, segments, generated node names

The standard-library functions that the source calls on byte strings, then the node names of
`muxml.zig`.
-/
import Mathlib.Init
import Muxly.Core.Types

namespace Muxly.Core

/-! ## Characters -/

/-- `std.ascii.isDigit`. -/
def isDigit (c : UInt8) : Bool := 48 ≤ c.toNat && c.toNat ≤ 57

/-- `std.ascii.isUpper`. -/
def isUpper (c : UInt8) : Bool := 65 ≤ c.toNat && c.toNat ≤ 90

/-- `std.ascii.isLower`. -/
def isLower (c : UInt8) : Bool := 97 ≤ c.toNat && c.toNat ≤ 122

/-- `std.ascii.isAlphanumeric`. -/
def isAlphanumeric (c : UInt8) : Bool := isDigit c || isUpper c || isLower c

/-- `std.ascii.toLower`. -/
def toLower (c : UInt8) : UInt8 := if isUpper c then c + 32 else c

/-- `'-'`. -/
def dash : UInt8 := 45

/-- `'/'`. -/
def slash : UInt8 := 47

/-- `'@'`. -/
def atSign : UInt8 := 64

/-- `'_'`. -/
def underscore : UInt8 := 95

/-! ## Numbers -/

/-- `std.fmt` of a number with `{d}`. -/
def decimal (n : Nat) : Bytes := (Nat.toDigits 10 n).map fun c => UInt8.ofNat c.toNat

/-- The digits of `std.fmt.parseInt(u64, _, 10)` after the sign. Underscores are skipped. After a
minus sign only zeros fit. -/
def parseDigits (negative : Bool) : Bytes → Nat → Option Nat
  | [], acc => some acc
  | c :: rest, acc =>
    if c = underscore then parseDigits negative rest acc
    else if isDigit c then
      let next := acc * 10 + (c.toNat - 48)
      if next < u64Limit ∧ (negative → next = 0) then parseDigits negative rest next else none
    else none

/-- The part of `std.fmt.parseInt(u64, _, 10)` after the sign. -/
def parseUnsignedBody (negative : Bool) (text : Bytes) : Option Nat :=
  if text = [] ∨ text.head? = some underscore ∨ text.getLast? = some underscore then none
  else parseDigits negative text 0

/-- `std.fmt.parseInt(u64, _, 10)`. -/
def parseUnsigned : Bytes → Option Nat
  | [] => none
  | c :: rest =>
    if c = 43 then parseUnsignedBody false rest
    else if c = 45 then parseUnsignedBody true rest
    else parseUnsignedBody false (c :: rest)

/-- `std.mem.startsWith`, with what follows the prefix. -/
def afterPrefix (pre text : Bytes) : Option Bytes :=
  if pre.isPrefixOf text then some (text.drop pre.length) else none

theorem afterPrefix_append (pre rest : Bytes) : afterPrefix pre (pre ++ rest) = some rest := by
  simp [afterPrefix]

theorem afterPrefix_eq_some {pre text rest : Bytes} (h : afterPrefix pre text = some rest) :
    text = pre ++ rest := by
  unfold afterPrefix at h
  split at h
  · rename_i hpre
    cases h
    obtain ⟨t, rfl⟩ := List.isPrefixOf_iff_prefix.mp hpre
    simp
  · cases h

/-! ## Node names -/

/-- `"node-"`. -/
def nodePrefix : Bytes := ascii "node-"

/-- `looksLikeDirectNodeReference`. -/
def looksLikeDirectNodeReference (name : Bytes) : Bool :=
  match name with
  | [] => false
  | c :: rest =>
    if isDigit c then (parseUnsigned name).isSome
    else if c = atSign ∧ rest ≠ [] then (parseUnsigned rest).isSome
    else
      match afterPrefix nodePrefix name with
      | some number => number ≠ [] && (parseUnsigned number).isSome
      | none => false

/-- `isValidNodeNameByte`. -/
def isValidNodeNameByte (c : UInt8) : Bool :=
  isAlphanumeric c || (ascii "-._~!$&'()*+,;=:@").contains c

/-- `isValidNodeName`. -/
def isValidNodeName (name : Bytes) : Bool :=
  name ≠ [] && name ≠ ascii "." && name ≠ ascii ".." && !looksLikeDirectNodeReference name &&
    name.all isValidNodeNameByte

/-- The buffer and the flag of the loop in `defaultNodeName`. -/
structure SlugState where
  buffer : Bytes
  needsSeparator : Bool

/-- Put a pending separator in front of the next kept character. -/
def SlugState.keep (s : SlugState) (c : UInt8) : SlugState where
  buffer :=
    (if s.needsSeparator && s.buffer ≠ [] && s.buffer.getLast? ≠ some dash then s.buffer ++ [dash]
      else s.buffer) ++ [c]
  needsSeparator := false

/-- One character of the title in `defaultNodeName`. -/
def SlugState.next (s : SlugState) (c : UInt8) : SlugState :=
  if isAlphanumeric c then s.keep (toLower c)
  else if (ascii "._~").contains c then s.keep c
  else if c = dash then
    if s.buffer = [] ∨ s.buffer.getLast? = some dash then s
    else { buffer := s.buffer ++ [dash], needsSeparator := false }
  else if s.buffer ≠ [] then { s with needsSeparator := true }
  else s

/-- Drop the separators at the end. -/
def trimDashes (text : Bytes) : Bytes := (text.reverse.dropWhile (· = dash)).reverse

/-- `defaultNodeName`: the slug of a title, or nothing when the slug is empty. -/
def defaultNodeName (title : Bytes) : Option Bytes :=
  let slug := trimDashes (title.foldl SlugState.next ⟨[], false⟩).buffer
  if slug = [] then none
  else if isValidNodeName slug then some slug
  else some (ascii "n-" ++ slug)

/-! ## Decimal texts differ for different numbers -/

theorem char_of_digit_byte {c : Char} (h : c.isDigit) :
    Char.ofNat (UInt8.ofNat c.toNat).toNat = c := by
  have hle : c.toNat ≤ 57 := by
    simp only [Char.isDigit, Bool.and_eq_true, decide_eq_true_eq] at h
    exact UInt32.le_iff_toNat_le.mp h.2
  rw [UInt8.toNat_ofNat_of_lt' (by unfold UInt8.size; omega), Char.ofNat_toNat]

theorem toDigits_of_decimal (n : Nat) :
    (decimal n).map (fun b => Char.ofNat b.toNat) = Nat.toDigits 10 n := by
  rw [decimal, List.map_map]
  calc (Nat.toDigits 10 n).map _ = (Nat.toDigits 10 n).map id :=
        List.map_congr_left fun c hc => char_of_digit_byte
          (Nat.isDigit_of_mem_toDigits (by omega) (by omega) hc)
    _ = Nat.toDigits 10 n := List.map_id _

theorem decimal_injective {m n : Nat} (h : decimal m = decimal n) : m = n := by
  have hdigits : Nat.toDigits 10 m = Nat.toDigits 10 n := by
    rw [← toDigits_of_decimal m, ← toDigits_of_decimal n, h]
  calc m = Nat.ofDigitChars 10 (Nat.toDigits 10 m) 0 := Nat.ofDigitChars_ten_toDigits.symm
    _ = Nat.ofDigitChars 10 (Nat.toDigits 10 n) 0 := by rw [hdigits]
    _ = n := Nat.ofDigitChars_ten_toDigits

end Muxly.Core
