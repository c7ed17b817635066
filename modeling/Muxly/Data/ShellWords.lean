/-
# Muxly.Data.ShellWords -- a command as a POSIX shell splits it

The quoting rules of the POSIX shell, for commands that leave nothing else to the shell: no operator,
no expansion, no pattern, no comment. `splitWords` reads a text as the words of one simple command, or
refuses it. What stands between single quotes stands for itself.
-/
import Mathlib.Init

namespace Muxly.Data.ShellWords

/-! ## Characters -/

/-- The single quote. -/
def singleQuote : UInt8 := 39

/-- The double quote. -/
def doubleQuote : UInt8 := 34

/-- A space. -/
def space : UInt8 := 32

/-- A `<blank>`: a space or a tab. -/
def isBlank (c : UInt8) : Bool := c = space || c = 9

/-- What begins an expansion, or escapes the next character: the dollar sign, the backquote and the
backslash. Double quotes do not take that meaning away. -/
def expanding : List UInt8 := [36, 96, 92]

/-- What has to be quoted to stand for itself, beside blanks and quotes: operators, the line end, and
what begins an expansion, a pattern, a comment or an assignment. -/
def special : List UInt8 :=
  [124, 38, 59, 60, 62, 40, 41, 10] ++ expanding ++ [42, 63, 91, 35, 126, 61, 37]

/-! ## The reader -/

/-- Where the reader stands. -/
inductive Mode where
  /-- Between two words. -/
  | blank
  /-- In a word, outside quotes. -/
  | bare
  | single
  | double
  deriving DecidableEq

/-- The words of a text, after what has been read of a word. A text is refused where the shell would
do more than split it, and where a quote is left open. -/
def readWords : Mode → List UInt8 → List UInt8 → Option (List (List UInt8))
  | .blank, _, [] => some []
  | .bare, word, [] => some [word]
  | .single, _, [] => none
  | .double, _, [] => none
  | .blank, _, c :: rest =>
    if isBlank c then readWords .blank [] rest
    else if c = singleQuote then readWords .single [] rest
    else if c = doubleQuote then readWords .double [] rest
    else if c ∈ special then none
    else readWords .bare [c] rest
  | .bare, word, c :: rest =>
    if isBlank c then (readWords .blank [] rest).map (word :: ·)
    else if c = singleQuote then readWords .single word rest
    else if c = doubleQuote then readWords .double word rest
    else if c ∈ special then none
    else readWords .bare (word ++ [c]) rest
  | .single, word, c :: rest =>
    if c = singleQuote then readWords .bare word rest else readWords .single (word ++ [c]) rest
  | .double, word, c :: rest =>
    if c = doubleQuote then readWords .bare word rest
    else if c ∈ expanding then none
    else readWords .double (word ++ [c]) rest

/-- The words of a command. -/
def splitWords (text : List UInt8) : Option (List (List UInt8)) := readWords .blank [] text

/-! ## Words without quotes -/

/-- The character stands for itself without quotes. -/
def isPlain (c : UInt8) : Bool :=
  !isBlank c && !(c = singleQuote) && !(c = doubleQuote) && !(c ∈ special)

theorem of_isPlain {c : UInt8} (h : isPlain c = true) :
    isBlank c = false ∧ c ≠ singleQuote ∧ c ≠ doubleQuote ∧ c ∉ special := by
  simpa [isPlain, and_assoc] using h

variable {word text rest : List UInt8}

theorem readWords_bare_append (h : text.all isPlain = true) :
    readWords .bare word (text ++ rest) = readWords .bare (word ++ text) rest := by
  induction text generalizing word with
  | nil => simp
  | cons c text ih =>
      rw [List.all_cons, Bool.and_eq_true] at h
      obtain ⟨hblank, hsingle, hdouble, hspecial⟩ := of_isPlain h.1
      rw [List.cons_append, readWords, if_neg (by simp [hblank]), if_neg hsingle, if_neg hdouble,
        if_neg hspecial, ih h.2, List.append_assoc, List.singleton_append]

/-- A word begins where blanks end. -/
theorem readWords_blank_append (hne : text ≠ []) (h : text.all isPlain = true) :
    readWords .blank word (text ++ rest) = readWords .bare text rest := by
  obtain ⟨c, text, rfl⟩ := List.exists_cons_of_ne_nil hne
  rw [List.all_cons, Bool.and_eq_true] at h
  obtain ⟨hblank, hsingle, hdouble, hspecial⟩ := of_isPlain h.1
  rw [List.cons_append, readWords, if_neg (by simp [hblank]), if_neg hsingle, if_neg hdouble,
    if_neg hspecial, readWords_bare_append h.2, List.singleton_append]

theorem readWords_bare_space :
    readWords .bare word (space :: rest) = (splitWords rest).map (word :: ·) := rfl

/-- The first word of a command. -/
theorem splitWords_cons (hne : text ≠ []) (h : text.all isPlain = true) :
    splitWords (text ++ space :: rest) = (splitWords rest).map (text :: ·) := by
  rw [splitWords, readWords_blank_append hne h, readWords_bare_space]

/-- The last word of a command. -/
theorem splitWords_last (hne : text ≠ []) (h : text.all isPlain = true) :
    splitWords text = some [text] := by
  have hread : readWords .blank [] (text ++ []) = readWords .bare text [] :=
    readWords_blank_append hne h
  rw [List.append_nil] at hread
  exact hread

/-! ## Quotes -/

/-- Between single quotes everything else stands for itself. -/
theorem readWords_single_cons {c : UInt8} (hc : c ≠ singleQuote) :
    readWords .single word (c :: rest) = readWords .single (word ++ [c]) rest := by
  rw [readWords, if_neg hc]

/-- A single quote inside single quotes: the quotes are closed, it stands between double quotes, and
the quotes are opened again. -/
theorem readWords_single_quote :
    readWords .single word
        (singleQuote :: doubleQuote :: singleQuote :: doubleQuote :: singleQuote :: rest) =
      readWords .single (word ++ [singleQuote]) rest := rfl

theorem readWords_single_close :
    readWords .single word (singleQuote :: rest) = readWords .bare word rest := rfl

theorem splitWords_open :
    splitWords (singleQuote :: rest) = readWords .single [] rest := rfl

end Muxly.Data.ShellWords
