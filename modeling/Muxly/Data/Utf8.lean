/-
# Muxly.Data.Utf8 -- text and its bytes

Text is a list of Unicode scalar values, and `encodeUtf8` its encoding. `decodeUtf8` accepts exactly
the encodings, so a reader of bytes gets back the text that a writer encoded. A byte below 128 is
always the encoding of a character of its own, which is why a reader may look for a newline before
it decodes.

White space is that of the Unicode property, which is what trimming and splitting go by.
-/
import Mathlib.Data.List.DropRight

namespace Muxly.Data

variable {text text' word : List Char} {c : Char}

/-! ## The encoding -/

/-- The UTF-8 encoding. -/
def encodeUtf8 (text : List Char) : List UInt8 := text.flatMap String.utf8EncodeChar

/-- The text that the bytes encode, if they do. -/
def decodeUtf8 (bytes : List UInt8) : Option (List Char) :=
  bytes.toByteArray.utf8Decode?.map Array.toList

theorem decodeUtf8_encodeUtf8 (text : List Char) : decodeUtf8 (encodeUtf8 text) = some text := by
  have h : (encodeUtf8 text).toByteArray.utf8Decode? = some text.toArray :=
    List.utf8Decode?_utf8Encode
  rw [decodeUtf8, h]
  rfl

@[simp]
theorem encodeUtf8_append : encodeUtf8 (text ++ text') = encodeUtf8 text ++ encodeUtf8 text' :=
  List.flatMap_append

/-- A byte below 128 is a character. -/
theorem toNat_of_mem_utf8EncodeChar {b : UInt8} (hb : b.toNat < 128)
    (h : b ∈ String.utf8EncodeChar c) : c.toNat = b.toNat := by
  have hlead : ∀ n : Nat, 128 ≤ n → n < 256 → b ≠ UInt8.ofNat n := by
    rintro n hlow hhigh rfl
    rw [UInt8.toNat_ofNat_of_lt' hhigh] at hb
    omega
  rw [String.utf8EncodeChar] at h
  split at h
  · rename_i hsmall
    rw [List.mem_singleton] at h
    rw [h, UInt8.toNat_ofNat_of_lt' (show c.val.toNat < 256 by omega)]
    rfl
  · repeat' split at h
    all_goals simp only [List.mem_cons, List.not_mem_nil, or_false] at h
    -- Two, three or four bytes, each with a lead or a continuation mark.
    · rcases h with h | h
      all_goals exact absurd h (hlead _ (by omega) (by omega))
    · rcases h with h | h | h
      all_goals exact absurd h (hlead _ (by omega) (by omega))
    · rcases h with h | h | h | h
      all_goals exact absurd h (hlead _ (by omega) (by omega))

/-- A byte below 128 stands for a character of the text. -/
theorem mem_of_mem_encodeUtf8 {b : UInt8} (hb : b.toNat < 128) (h : b ∈ encodeUtf8 text) :
    Char.ofNat b.toNat ∈ text := by
  obtain ⟨c, hc, hmem⟩ := List.mem_flatMap.mp h
  rw [← toNat_of_mem_utf8EncodeChar hb hmem, Char.ofNat_toNat]
  exact hc

/-! ## White space -/

/-- The property `White_Space`. -/
def isWhiteSpace (c : Char) : Bool :=
  let n := c.toNat
  (9 ≤ n && n ≤ 13) || n = 0x20 || n = 0x85 || n = 0xa0 || n = 0x1680 ||
    (0x2000 ≤ n && n ≤ 0x200a) || n = 0x2028 || n = 0x2029 || n = 0x202f || n = 0x205f || n = 0x3000

/-- The text without the white space at its end. -/
def trimEnd (text : List Char) : List Char := text.rdropWhile isWhiteSpace

/-- The text without the white space around it. -/
def trim (text : List Char) : List Char := trimEnd (text.dropWhile isWhiteSpace)

/-- The words between white space. -/
def splitWhitespace (text : List Char) : List (List Char) :=
  (text.splitOnP isWhiteSpace).filter (· ≠ [])

theorem trimEnd_append (hne : word ≠ []) (hword : ∀ c ∈ word, isWhiteSpace c = false)
    (hspace : ∀ c ∈ text', isWhiteSpace c = true) :
    trimEnd (text ++ (word ++ text')) = text ++ word := by
  induction text' using List.reverseRecOn with
  | nil =>
      rw [List.append_nil, trimEnd, List.rdropWhile_eq_self_iff]
      intro hl
      rw [List.getLast_append_of_ne_nil _ hne, hword _ (List.getLast_mem hne)]
      exact Bool.false_ne_true
  | append_singleton text' c ih =>
      have hc := hspace c (by simp)
      rw [trimEnd, ← List.append_assoc, ← List.append_assoc, List.rdropWhile_concat_pos _ _ _ hc]
      rw [List.append_assoc]
      exact ih fun d hd => hspace d (List.mem_append_left _ hd)

/-- A word between white space stays. -/
theorem trim_append (hne : word ≠ []) (hword : ∀ c ∈ word, isWhiteSpace c = false)
    (hbefore : ∀ c ∈ text, isWhiteSpace c = true) (hafter : ∀ c ∈ text', isWhiteSpace c = true) :
    trim (text ++ (word ++ text')) = word := by
  obtain ⟨c, rest, rfl⟩ := List.exists_cons_of_ne_nil hne
  have hdrop : (text ++ (c :: rest ++ text')).dropWhile isWhiteSpace = c :: rest ++ text' := by
    rw [List.dropWhile_append_of_pos hbefore, List.cons_append,
      List.dropWhile_cons_of_neg (by simp [hword c (List.mem_cons_self ..)])]
  have hend : trimEnd ([] ++ (c :: rest ++ text')) = [] ++ (c :: rest) :=
    trimEnd_append hne hword hafter
  rw [trim, hdrop]
  exact hend

theorem splitWhitespace_word (hne : word ≠ []) (hword : ∀ c ∈ word, isWhiteSpace c = false) :
    splitWhitespace word = [word] := by
  rw [splitWhitespace, List.splitOnP_eq_singleton hword]
  simp [hne]

theorem splitWhitespace_cons (hne : word ≠ []) (hword : ∀ c ∈ word, isWhiteSpace c = false)
    (hc : isWhiteSpace c = true) : splitWhitespace (word ++ c :: text) = word :: splitWhitespace text := by
  rw [splitWhitespace, List.splitOnP_append_cons_of_forall_mem hword c hc]
  simp [hne, splitWhitespace]

end Muxly.Data
