/-
# Muxly.Core.Names -- which names the resolver reads as ids

The resolver tries a segment as a direct node reference before it looks at names. `Direct name` says
that it succeeds. A slug is never direct; a numbered slug is direct exactly when its base is `node`.
A valid name is direct exactly when it is a number with a sign.
-/
import Mathlib.Init
import Muxly.Core.Shape

namespace Muxly.Core

open Muxly.Control Document

/-! ## Numbers -/

theorem parseDigits_of_mem_dash {negative : Bool} {text : Bytes} (h : dash ∈ text) (acc : Nat) :
    parseDigits negative text acc = none := by
  induction text generalizing acc with
  | nil => cases h
  | cons c rest ih =>
      have hne : ¬ dash = underscore := by decide
      have hdigit : isDigit dash = false := by decide
      rw [parseDigits]
      by_cases hc : c = dash
      · subst hc
        rw [if_neg hne, hdigit]
        rfl
      · have hrest : dash ∈ rest := (List.mem_cons.mp h).resolve_left fun h => hc h.symm
        split
        · exact ih hrest acc
        · split
          · show (if _ then parseDigits negative rest _ else none) = none
            split
            · exact ih hrest _
            · rfl
          · rfl

theorem parseUnsignedBody_of_mem_dash {negative : Bool} {text : Bytes} (h : dash ∈ text) :
    parseUnsignedBody negative text = none := by
  unfold parseUnsignedBody
  split
  · rfl
  · exact parseDigits_of_mem_dash h 0

/-- A dash after the first character ends a number. -/
theorem parseUnsigned_of_mem_dash {c : UInt8} {rest : Bytes} (h : dash ∈ rest) :
    parseUnsigned (c :: rest) = none := by
  rw [parseUnsigned]
  split
  · exact parseUnsignedBody_of_mem_dash h
  · split
    · exact parseUnsignedBody_of_mem_dash h
    · exact parseUnsignedBody_of_mem_dash (List.mem_cons_of_mem _ h)

/-- A number starts with a digit or a sign. -/
theorem parseUnsigned_of_head {c : UInt8} {rest : Bytes} (hdigit : isDigit c = false)
    (hplus : c ≠ 43) (hminus : c ≠ 45) : parseUnsigned (c :: rest) = none := by
  rw [parseUnsigned, if_neg hplus, if_neg hminus, parseUnsignedBody]
  split
  · rfl
  · rename_i hbody
    have hunder : ¬ c = underscore := fun h => hbody (.inr (.inl (by rw [h]; rfl)))
    rw [parseDigits, if_neg hunder, hdigit]
    rfl

/-- The byte of a digit character. -/
theorem digitByte {c : Char} (h : c.isDigit) :
    isDigit (UInt8.ofNat c.toNat) = true ∧ (UInt8.ofNat c.toNat).toNat = c.toNat ∧
      UInt8.ofNat c.toNat ≠ underscore := by
  have hle : 48 ≤ c.toNat ∧ c.toNat ≤ 57 := by
    simp only [Char.isDigit, Bool.and_eq_true, decide_eq_true_eq] at h
    exact ⟨UInt32.le_iff_toNat_le.mp h.1, UInt32.le_iff_toNat_le.mp h.2⟩
  have hnat : (UInt8.ofNat c.toNat).toNat = c.toNat :=
    UInt8.toNat_ofNat_of_lt' (by unfold UInt8.size; omega)
  refine ⟨?_, hnat, fun hu => ?_⟩
  · rw [isDigit, hnat]
    simp [hle.1, hle.2]
  · have := congrArg UInt8.toNat hu
    rw [hnat] at this
    have h95 : underscore.toNat = 95 := rfl
    omega

theorem le_ofDigitChars (cs : List Char) (acc : Nat) : acc ≤ Nat.ofDigitChars 10 cs acc := by
  induction cs generalizing acc with
  | nil => simp
  | cons c rest ih =>
      rw [Nat.ofDigitChars_cons]
      have := ih (10 * acc + (c.toNat - '0'.toNat))
      omega

/-- Digits that fit are read as the number they denote. -/
theorem parseDigits_digits {cs : List Char} (hcs : ∀ c ∈ cs, c.isDigit) {acc : Nat}
    (hfit : Nat.ofDigitChars 10 cs acc < u64Limit) :
    parseDigits false (cs.map fun c => UInt8.ofNat c.toNat) acc
      = some (Nat.ofDigitChars 10 cs acc) := by
  induction cs generalizing acc with
  | nil => simp [parseDigits]
  | cons c rest ih =>
      obtain ⟨hdigit, hnat, hunder⟩ := digitByte (hcs c (List.mem_cons_self ..))
      rw [Nat.ofDigitChars_cons] at hfit ⊢
      have hzero : '0'.toNat = 48 := rfl
      have hnext : acc * 10 + ((UInt8.ofNat c.toNat).toNat - 48)
          = 10 * acc + (c.toNat - '0'.toNat) := by
        rw [hnat, hzero]
        omega
      have hle := le_ofDigitChars rest (10 * acc + (c.toNat - '0'.toNat))
      rw [List.map_cons, parseDigits, if_neg hunder, hdigit, if_pos rfl, hnext,
        if_pos ⟨lt_of_le_of_lt hle hfit, fun h => by cases h⟩]
      exact ih (fun c hc => hcs c (List.mem_cons_of_mem _ hc)) hfit

theorem decimal_digits (n : Nat) : ∀ c ∈ Nat.toDigits 10 n, c.isDigit := fun _ hc =>
  Nat.isDigit_of_mem_toDigits (by omega) (by omega) hc

/-- A decimal starts with a digit. -/
theorem decimal_cons (n : Nat) : ∃ c rest, decimal n = c :: rest ∧ isDigit c = true := by
  cases hds : Nat.toDigits 10 n with
  | nil => exact absurd hds Nat.toDigits_ne_nil
  | cons c rest =>
      have hdigit := decimal_digits n c (by rw [hds]; exact List.mem_cons_self ..)
      exact ⟨UInt8.ofNat c.toNat, rest.map fun c => UInt8.ofNat c.toNat,
        by rw [decimal, hds, List.map_cons], (digitByte hdigit).1⟩

theorem mem_decimal {n : Nat} {b : UInt8} (h : b ∈ decimal n) :
    isDigit b = true ∧ b ≠ underscore := by
  obtain ⟨c, hc, rfl⟩ := List.mem_map.mp h
  obtain ⟨hdigit, -, hunder⟩ := digitByte (decimal_digits n c hc)
  exact ⟨hdigit, hunder⟩

/-- A decimal is read back. -/
theorem parseUnsigned_decimal {n : Nat} (h : n < u64Limit) : parseUnsigned (decimal n) = some n := by
  obtain ⟨c, rest, hds, hdigit⟩ := decimal_cons n
  have hplus : c ≠ 43 := by rintro rfl; exact absurd hdigit (by decide)
  have hminus : c ≠ 45 := by rintro rfl; exact absurd hdigit (by decide)
  have hbody : parseUnsignedBody false (decimal n) = some n := by
    have hhead : (decimal n).head? ≠ some underscore := by
      rw [hds]
      intro hu
      exact (mem_decimal (n := n) (by rw [hds]; exact List.mem_cons_self ..)).2
        (Option.some.inj hu)
    have hlast : (decimal n).getLast? ≠ some underscore := fun hu =>
      (mem_decimal (List.mem_of_getLast? hu)).2 rfl
    have hnil : decimal n ≠ [] := by rw [hds]; exact List.cons_ne_nil _ _
    rw [parseUnsignedBody, if_neg (by simp [hnil, hhead, hlast]), decimal,
      parseDigits_digits (decimal_digits n) (by rw [Nat.ofDigitChars_ten_toDigits]; exact h),
      Nat.ofDigitChars_ten_toDigits]
  rw [hds] at hbody ⊢
  rw [parseUnsigned, if_neg hplus, if_neg hminus]
  exact hbody

/-! ## Direct references -/

/-- The resolver reads the segment as a node id. -/
def Direct (name : Bytes) : Prop := (parseDirectNodeReference name).isSome = true

instance (name : Bytes) : Decidable (Direct name) := inferInstanceAs (Decidable (_ = true))

theorem nodePrefix_eq : nodePrefix = [110, 111, 100, 101, 45] := by decide

/-- The id of a node, spelled in the two ways that a child is matched by. -/
theorem direct_decimal {n : Nat} (h : n < u64Limit) :
    parseDirectNodeReference (decimal n) = some n := by
  obtain ⟨c, rest, hds, hdigit⟩ := decimal_cons n
  have hat : c ≠ atSign := by rintro rfl; exact absurd hdigit (by decide)
  have hnode : afterPrefix nodePrefix (c :: rest) = none := by
    cases hpre : afterPrefix nodePrefix (c :: rest) with
    | none => rfl
    | some number =>
        have := afterPrefix_eq_some hpre
        rw [nodePrefix_eq] at this
        cases this
        exact absurd hdigit (by decide)
  have hparse := parseUnsigned_decimal h
  rw [hds] at hparse ⊢
  simp only [parseDirectNodeReference, if_neg hat, hnode]
  exact hparse

theorem direct_nodePrefix {n : Nat} (h : n < u64Limit) :
    parseDirectNodeReference (nodePrefix ++ decimal n) = some n := by
  have hpre := afterPrefix_append nodePrefix (decimal n)
  have hat : ¬ (110 : UInt8) = atSign := by decide
  rw [nodePrefix_eq] at hpre ⊢
  simp only [List.cons_append, List.nil_append] at hpre ⊢
  rw [parseDirectNodeReference, if_neg hat, nodePrefix_eq, hpre]
  exact parseUnsigned_decimal h

/-- A name of more than the letters of `n-` that starts with them. -/
theorem parseDirect_nDash (rest : Bytes) :
    parseDirectNodeReference (110 :: dash :: rest) = none ∧
      looksLikeDirectNodeReference (110 :: dash :: rest) = false := by
  have hat : ¬ (110 : UInt8) = atSign := by decide
  have hnode : afterPrefix nodePrefix (110 :: dash :: rest) = none := by
    cases hpre : afterPrefix nodePrefix (110 :: dash :: rest) with
    | none => rfl
    | some number =>
        have := afterPrefix_eq_some hpre
        rw [nodePrefix_eq] at this
        have hsecond : dash = 111 := by
          injection this with _ htail
          injection htail
        exact absurd hsecond (by decide)
  have hnum : parseUnsigned (110 :: dash :: rest) = none :=
    parseUnsigned_of_mem_dash (List.mem_cons_self ..)
  have hdigit : isDigit 110 = false := by decide
  constructor
  · simp only [parseDirectNodeReference, if_neg hat, hnode, hnum]
  · simp only [looksLikeDirectNodeReference, hdigit, Bool.false_eq_true, if_false, hat, false_and,
      hnode]

/-! ## Slugs -/

/-- The characters of a slug. -/
def SlugChar (c : UInt8) : Prop :=
  isAlphanumeric c = true ∨ c ∈ ascii "._~" ∨ c = dash

/-- What a slug looks like: it is made of slug characters, and neither starts nor ends with a
separator. -/
structure Slug (text : Bytes) : Prop where
  chars : ∀ c ∈ text, SlugChar c
  head : text.head? ≠ some dash
  last : text.getLast? ≠ some dash

theorem slugChar_valid {c : UInt8} (h : SlugChar c) : isValidNodeNameByte c = true := by
  unfold isValidNodeNameByte
  rcases h with h | h | rfl
  · rw [h, Bool.true_or]
  · have hall : (ascii "._~").all (ascii "-._~!$&'()*+,;=:@").contains = true := by decide
    rw [List.all_eq_true.mp hall c h, Bool.or_true]
  · decide

/-- No slug character is a sign, an at sign or a slash. -/
theorem slugChar_ne {c : UInt8} (h : SlugChar c) : c ≠ 43 ∧ c ≠ atSign := by
  constructor
  · rintro rfl
    exact absurd h (by unfold SlugChar; decide)
  · rintro rfl
    exact absurd h (by unfold SlugChar; decide)

/-- What the loop of `defaultNodeName` keeps of its buffer. -/
structure Buffered (s : SlugState) : Prop where
  chars : ∀ c ∈ s.buffer, SlugChar c
  head : s.buffer.head? ≠ some dash

theorem head?_append_of_ne_nil {xs ys : Bytes} (h : xs ≠ []) : (xs ++ ys).head? = xs.head? := by
  cases xs with
  | nil => exact absurd rfl h
  | cons x rest => rfl

theorem Buffered.keep {s : SlugState} (h : Buffered s) {c : UInt8} (hc : SlugChar c)
    (hdash : c ≠ dash) : Buffered (s.keep c) := by
  have hdashChar : SlugChar dash := .inr (.inr rfl)
  unfold SlugState.keep
  split
  · rename_i hsep
    simp only [Bool.and_eq_true, decide_eq_true_eq] at hsep
    constructor
    · intro b hb
      rcases List.mem_append.mp hb with hb | hb
      · rcases List.mem_append.mp hb with hb | hb
        · exact h.chars b hb
        · exact List.mem_singleton.mp hb ▸ hdashChar
      · exact List.mem_singleton.mp hb ▸ hc
    · show (s.buffer ++ [dash] ++ [c]).head? ≠ _
      rw [List.append_assoc, head?_append_of_ne_nil hsep.1.2]
      exact h.head
  · constructor
    · intro b hb
      rcases List.mem_append.mp hb with hb | hb
      · exact h.chars b hb
      · exact List.mem_singleton.mp hb ▸ hc
    · show (s.buffer ++ [c]).head? ≠ _
      by_cases hnil : s.buffer = []
      · rw [hnil]
        exact fun h => hdash (Option.some.inj h)
      · rw [head?_append_of_ne_nil hnil]
        exact h.head

theorem isAlphanumeric_toLower {c : UInt8} (h : isAlphanumeric c = true) :
    isAlphanumeric (toLower c) = true := by
  unfold toLower
  split
  · rename_i hupper
    have hrange : 65 ≤ c.toNat ∧ c.toNat ≤ 90 := by
      simpa [isUpper] using hupper
    have hnat : (c + 32).toNat = c.toNat + 32 := by
      rw [UInt8.toNat_add]
      show (c.toNat + 32) % 256 = _
      omega
    have hlower : isLower (c + 32) = true := by
      rw [isLower, hnat]
      simp only [Bool.and_eq_true, decide_eq_true_eq]
      omega
    rw [isAlphanumeric, hlower, Bool.or_true]
  · exact h

theorem Buffered.next {s : SlugState} (h : Buffered s) (c : UInt8) : Buffered (s.next c) := by
  have hdashNot : isAlphanumeric dash = false := by decide
  unfold SlugState.next
  split
  · rename_i halpha
    have hlower := isAlphanumeric_toLower halpha
    refine h.keep (.inl hlower) fun hd => ?_
    rw [hd, hdashNot] at hlower
    cases hlower
  · split
    · rename_i hmark
      have hmem : c ∈ ascii "._~" := List.contains_iff_mem.mp hmark
      refine h.keep (.inr (.inl hmem)) ?_
      rintro rfl
      exact absurd hmem (by decide)
    · split
      · split
        · exact h
        · rename_i hnil
          constructor
          · intro b hb
            rcases List.mem_append.mp hb with hb | hb
            · exact h.chars b hb
            · exact List.mem_singleton.mp hb ▸ .inr (.inr rfl)
          · show (s.buffer ++ [dash]).head? ≠ _
            rw [head?_append_of_ne_nil (not_or.mp hnil).1]
            exact h.head
      · split
        · exact ⟨h.chars, h.head⟩
        · exact h

theorem Buffered.foldl {s : SlugState} (h : Buffered s) (title : Bytes) :
    Buffered (title.foldl SlugState.next s) := by
  induction title generalizing s with
  | nil => exact h
  | cons c rest ih => exact ih (h.next c)

/-- Trimming leaves a prefix that does not end with a separator. -/
theorem trimDashes_spec (text : Bytes) :
    trimDashes text <+: text ∧ (trimDashes text).getLast? ≠ some dash := by
  constructor
  · have hsuffix := List.dropWhile_suffix (l := text.reverse) (· = dash)
    have := List.reverse_prefix.mpr hsuffix
    rwa [List.reverse_reverse] at this
  · unfold trimDashes
    rw [List.getLast?_reverse]
    intro hhead
    have := List.head?_dropWhile_not (· = dash) text.reverse
    rw [hhead] at this
    simp at this

/-- The slug of a title. -/
theorem slug_trimDashes (title : Bytes) :
    Slug (trimDashes (title.foldl SlugState.next ⟨[], false⟩).buffer) := by
  have hbuffer : Buffered (title.foldl SlugState.next ⟨[], false⟩) :=
    Buffered.foldl ⟨fun c hc => (by cases hc), fun h => (by cases h)⟩ title
  obtain ⟨⟨rest, hrest⟩, hlast⟩ :=
    trimDashes_spec (title.foldl SlugState.next ⟨[], false⟩).buffer
  refine ⟨fun c hc => hbuffer.chars c ?_, fun hhead => ?_, hlast⟩
  · rw [← hrest]
    exact List.mem_append_left _ hc
  · have hne : trimDashes (title.foldl SlugState.next ⟨[], false⟩).buffer ≠ [] := by
      intro hnil
      rw [hnil] at hhead
      cases hhead
    apply hbuffer.head
    rw [← hrest, head?_append_of_ne_nil hne]
    exact hhead

/-! ## Generated names -/

theorem isValidNodeName_iff {name : Bytes} : isValidNodeName name = true ↔
    (name ≠ [] ∧ name ≠ ascii "." ∧ name ≠ ascii ".." ∧ looksLikeDirectNodeReference name = false ∧
      ∀ c ∈ name, isValidNodeNameByte c = true) := by
  unfold isValidNodeName
  simp only [Bool.and_eq_true, decide_eq_true_eq, Bool.not_eq_true', List.all_eq_true, and_assoc]

/-- `node`, the one base whose numbered names are ids. -/
def nodeWord : Bytes := ascii "node"

theorem nodePrefix_eq_word : nodePrefix = nodeWord ++ [dash] := by decide

/-- A valid slug is not direct: what the validator tests is what the resolver reads. -/
theorem Slug.not_direct {text : Bytes} (h : Slug text)
    (hlooks : looksLikeDirectNodeReference text = false) : ¬ Direct text := by
  unfold Direct
  cases text with
  | nil => decide
  | cons c rest =>
      obtain ⟨hplus, hat⟩ := slugChar_ne (h.chars c (List.mem_cons_self ..))
      have hminus : c ≠ 45 := fun hc => h.head (by rw [hc]; rfl)
      have hat' : ¬ (c = atSign ∧ rest ≠ []) := fun h => hat h.1
      rw [looksLikeDirectNodeReference] at hlooks
      rw [parseDirectNodeReference, if_neg hat]
      by_cases hdigit : isDigit c = true
      · -- A number would have been refused by the validator.
        rw [if_pos hdigit] at hlooks
        have hnode : afterPrefix nodePrefix (c :: rest) = none := by
          cases hpre : afterPrefix nodePrefix (c :: rest) with
          | none => rfl
          | some number =>
              have := afterPrefix_eq_some hpre
              rw [nodePrefix_eq] at this
              cases this
              exact absurd hdigit (by decide)
        rw [hnode]
        simp [hlooks]
      · rw [if_neg hdigit, if_neg hat'] at hlooks
        cases hpre : afterPrefix nodePrefix (c :: rest) with
        | none =>
            have hnum := @parseUnsigned_of_head c rest (by simpa using hdigit) hplus hminus
            simp [hnum]
        | some number =>
            rw [hpre] at hlooks
            by_cases hnil : number = []
            · subst hnil
              simp [parseUnsigned]
            · simpa [hnil] using hlooks

/-- A numbered slug is direct only over the base `node`. -/
theorem Slug.numbered {text : Bytes} (h : Slug text) (hnil : text ≠ []) (hnode : text ≠ nodeWord)
    (k : Nat) : parseDirectNodeReference (Shape.numberedName text k) = none ∧
      looksLikeDirectNodeReference (Shape.numberedName text k) = false := by
  cases text with
  | nil => exact absurd rfl hnil
  | cons c rest =>
      obtain ⟨-, hat⟩ := slugChar_ne (h.chars c (List.mem_cons_self ..))
      have hname : Shape.numberedName (c :: rest) k = c :: (rest ++ dash :: decimal k) := by
        simp [Shape.numberedName]
      have hnum : parseUnsigned (c :: (rest ++ dash :: decimal k)) = none :=
        parseUnsigned_of_mem_dash (by simp)
      have hleading : ∀ number, afterPrefix nodePrefix (c :: (rest ++ dash :: decimal k))
          = some number → parseUnsigned number = none := by
        intro number hpre
        have heq : (c :: rest) ++ (dash :: decimal k) = nodeWord ++ (dash :: number) := by
          have := afterPrefix_eq_some hpre
          rw [nodePrefix_eq_word, List.append_assoc] at this
          exact this
        -- The dash of the prefix is one of the slug: the one that the number follows would make
        -- the slug `node`.
        rcases List.append_eq_append_iff.mp heq with ⟨bs, hword, hrest⟩ | ⟨as, hslug, hrest⟩
        · cases bs with
          | nil => exact absurd (by rw [hword, List.append_nil]) hnode
          | cons b bs =>
              injection hrest with hb _
              subst hb
              have hmem : dash ∈ nodeWord := by rw [hword]; simp
              exact absurd hmem (by decide)
        · cases as with
          | nil => exact absurd (by rw [hslug, List.append_nil]) hnode
          | cons a as =>
              injection hrest with ha hnumber
              subst ha
              cases as with
              | nil => exact absurd (by rw [hslug]; simp) h.last
              | cons b as =>
                  rw [hnumber]
                  exact parseUnsigned_of_mem_dash (by simp)
      rw [hname]
      constructor
      · rw [parseDirectNodeReference, if_neg hat]
        cases hpre : afterPrefix nodePrefix (c :: (rest ++ dash :: decimal k)) with
        | none => exact hnum
        | some number => exact hleading number hpre
      · rw [looksLikeDirectNodeReference]
        split
        · rw [hnum]
          rfl
        · simp only [hat, false_and, if_false]
          cases hpre : afterPrefix nodePrefix (c :: (rest ++ dash :: decimal k)) with
          | none => rfl
          | some number => simp [hleading number hpre]

theorem numberedName_length {base : Bytes} (hnil : base ≠ []) (k : Nat) :
    3 ≤ (Shape.numberedName base k).length := by
  obtain ⟨c, rest, hds, -⟩ := decimal_cons k
  have hpos := List.length_pos_iff.mpr hnil
  simp only [Shape.numberedName, hds, List.length_append, List.length_cons, List.length_nil]
  omega

theorem numberedName_bytes {base : Bytes} (hbase : ∀ c ∈ base, isValidNodeNameByte c = true)
    (k : Nat) : ∀ c ∈ Shape.numberedName base k, isValidNodeNameByte c = true := by
  intro c hc
  rcases List.mem_append.mp hc with hc | hc
  · rcases List.mem_append.mp hc with hc | hc
    · exact hbase c hc
    · rw [List.mem_singleton.mp hc]
      decide
  · rw [isValidNodeNameByte, isAlphanumeric, (mem_decimal hc).1]
    rfl

/-- A name that the resolver looks up among the children. -/
structure SoundName (name : Bytes) : Prop where
  valid : isValidNodeName name = true
  notDirect : ¬ Direct name

theorem sound_numbered {base : Bytes} (hnil : base ≠ [])
    (hbytes : ∀ c ∈ base, isValidNodeNameByte c = true) (k : Nat)
    (h : parseDirectNodeReference (Shape.numberedName base k) = none ∧
      looksLikeDirectNodeReference (Shape.numberedName base k) = false) :
    SoundName (Shape.numberedName base k) := by
  have hlen := numberedName_length hnil k
  refine ⟨isValidNodeName_iff.mpr ⟨?_, ?_, ?_, h.2, numberedName_bytes hbytes k⟩, ?_⟩
  · intro heq
    rw [heq] at hlen
    exact absurd hlen (by decide)
  · intro heq
    rw [heq] at hlen
    exact absurd hlen (by decide)
  · intro heq
    rw [heq] at hlen
    exact absurd hlen (by decide)
  · rw [Direct, h.1]
    exact Bool.false_ne_true

/-- The name of a title is sound, and so is every numbered form of it unless it is `node`. -/
theorem defaultNodeName_sound {title base : Bytes} (h : defaultNodeName title = some base) :
    SoundName base ∧ (base ≠ nodeWord → ∀ k, SoundName (Shape.numberedName base k)) := by
  have hslug := slug_trimDashes title
  unfold defaultNodeName at h
  generalize trimDashes (title.foldl SlugState.next ⟨[], false⟩).buffer = slug at h hslug
  simp only at h
  split at h
  · cases h
  · rename_i hnil
    have hbytes : ∀ c ∈ slug, isValidNodeNameByte c = true := fun c hc =>
      slugChar_valid (hslug.chars c hc)
    split at h
    · rename_i hvalid
      cases h
      have hlooks := (isValidNodeName_iff.mp hvalid).2.2.2.1
      exact ⟨⟨hvalid, hslug.not_direct hlooks⟩, fun hnode k =>
        sound_numbered hnil hbytes k (hslug.numbered hnil hnode k)⟩
    · have hbase : base = 110 :: dash :: slug := (Option.some.inj h).symm
      subst hbase
      have hbytes' : ∀ c ∈ 110 :: dash :: slug, isValidNodeNameByte c = true := by
        intro c hc
        rcases List.mem_cons.mp hc with rfl | hc
        · decide
        · rcases List.mem_cons.mp hc with rfl | hc
          · decide
          · exact hbytes c hc
      obtain ⟨hdirect, hlooks⟩ := parseDirect_nDash slug
      refine ⟨⟨isValidNodeName_iff.mpr ⟨List.cons_ne_nil _ _, ?_, ?_, hlooks, hbytes'⟩, ?_⟩,
        fun _ k => sound_numbered (List.cons_ne_nil _ _) hbytes' k ?_⟩
      · intro heq
        have hhead : some (110 : UInt8) = (ascii ".").head? := congrArg List.head? heq
        exact absurd hhead (by decide)
      · intro heq
        have hhead : some (110 : UInt8) = (ascii "..").head? := congrArg List.head? heq
        exact absurd hhead (by decide)
      · rw [Direct, hdirect]
        exact Bool.false_ne_true
      · have hname : Shape.numberedName (110 :: dash :: slug) k
            = 110 :: dash :: (slug ++ dash :: decimal k) := by simp [Shape.numberedName]
        rw [hname]
        exact parseDirect_nDash _

/-- Every numbered form of `node` is an id. -/
theorem direct_nodeWord {k : Nat} (h : k < u64Limit) : Direct (Shape.numberedName nodeWord k) := by
  have hname : Shape.numberedName nodeWord k = nodePrefix ++ decimal k := by
    rw [nodePrefix_eq_word]
    rfl
  rw [Direct, hname, direct_nodePrefix h]
  rfl

/-! ## Names of new children -/

namespace Document

/-- The name of a new child: none without a slug, the slug, or a numbered form of it. -/
theorem defaultChildName_spec {d : Document} (h : Shape d) {p : Nat} {m : Node}
    (hp : d.lookup p = some m) {title : Bytes} {name : Option Bytes}
    (hrun : d.defaultChildName p title = .ok name) :
    name = none ∨ ∃ base free, defaultNodeName title = some base ∧ name = some free ∧
      free ∉ d.childNames p ∧ (free = base ∨ base ∈ d.childNames p ∧
        ∃ k < d.nodeSlots.length + 3, free = Shape.numberedName base k) := by
  rcases defaultChildName_cases (lookup_pos hp) (h.zero_notMem_childrenOf p) title with
    ⟨-, hok⟩ | ⟨base, hbase, ⟨hnew, hok⟩ | ⟨hused, k, -, hlt, hfree, -, hok⟩⟩
  · rw [hok] at hrun
    cases hrun
    exact .inl rfl
  · rw [hok] at hrun
    cases hrun
    exact .inr ⟨base, base, hbase, rfl, hnew, .inl rfl⟩
  · rw [hok] at hrun
    cases hrun
    exact .inr ⟨base, _, hbase, rfl, hfree, .inr ⟨hused, k, hlt, rfl⟩⟩

theorem defaultNodeName_eq_none {title : Bytes} : defaultNodeName title = none ↔
    trimDashes (title.foldl SlugState.next ⟨[], false⟩).buffer = [] := by
  unfold defaultNodeName
  by_cases hslug : trimDashes (title.foldl SlugState.next ⟨[], false⟩).buffer = []
  · simp only [hslug, if_true]
  · simp only [hslug, if_false, iff_false]
    split <;> simp

/-- A title gives a name made of name bytes. -/
theorem defaultNodeName_bytes {title name : Bytes} (h : defaultNodeName title = some name) :
    ∀ c ∈ name, isValidNodeNameByte c = true :=
  (isValidNodeName_iff.mp (defaultNodeName_sound h).1.valid).2.2.2.2

theorem defaultChildName_bytes {d : Document} (h : Shape d) {p : Nat} {m : Node}
    (hp : d.lookup p = some m) {title name : Bytes}
    (hrun : d.defaultChildName p title = .ok (some name)) :
    ∀ c ∈ name, isValidNodeNameByte c = true := by
  rcases defaultChildName_spec h hp hrun with hnone | ⟨base, free, hbase, hname, -, hfree⟩
  · cases hnone
  · cases hname
    rcases hfree with rfl | ⟨-, k, -, rfl⟩
    · exact defaultNodeName_bytes hbase
    · exact numberedName_bytes (defaultNodeName_bytes hbase) k

/-- For every title and whatever the children of the parent are named, a new child gets no name only
when the slug is empty. Otherwise its name is used by no sibling: the slug when that is free, and else
the slug with the least free number from two on. An id is not zero. -/
theorem defaultChildName_least {d : Document} {p : Nat} (hp : p ≠ 0) (hchildren : 0 ∉ d.childrenOf p)
    (title : Bytes) :
    ∃ name, d.defaultChildName p title = .ok name ∧
      (name = none ↔ trimDashes (title.foldl SlugState.next ⟨[], false⟩).buffer = []) ∧
      (∀ base, defaultNodeName title = some base → ∃ free, name = some free ∧
        free ∉ d.childNames p ∧ (base ∉ d.childNames p → free = base) ∧
        (base ∈ d.childNames p → ∃ k, free = Shape.numberedName base k ∧
          IsLeast {i | 2 ≤ i ∧ Shape.numberedName base i ∉ d.childNames p} k)) := by
  have hslug := @defaultNodeName_eq_none title
  rcases defaultChildName_cases hp hchildren title with
    ⟨hnone, hok⟩ | ⟨base, hbase, ⟨hnew, hok⟩ | ⟨hused, k, hle, -, hfree, hleast, hok⟩⟩
  · refine ⟨none, hok, ⟨fun _ => hslug.mp hnone, fun _ => rfl⟩, fun base hbase => ?_⟩
    rw [hnone] at hbase
    cases hbase
  · rw [hbase] at hslug
    refine ⟨some base, hok, by simpa using hslug, fun base' hbase' => ?_⟩
    obtain rfl := Option.some.inj (hbase.symm.trans hbase')
    exact ⟨base, rfl, hnew, fun _ => rfl, fun hused => absurd hused hnew⟩
  · rw [hbase] at hslug
    refine ⟨some _, hok, by simpa using hslug, fun base' hbase' => ?_⟩
    obtain rfl := Option.some.inj (hbase.symm.trans hbase')
    refine ⟨_, rfl, hfree, fun hnew => absurd hused hnew, fun _ => ⟨k, rfl, ⟨hle, hfree⟩, ?_⟩⟩
    -- a smaller number is in use
    rintro j ⟨hj, hjfree⟩
    exact Nat.not_lt.mp fun hlt => hjfree (hleast j hj hlt)

/-- A root with the children `a` and `a-2`, the second one by a title of its own. -/
def namedApart : Document :=
  (Document.appendNode 1 .textLeaf (ascii "a-2") .none
    (Document.appendNode 1 .textLeaf (ascii "a") .none (Document.init 1 (ascii "demo"))).2).2

theorem defaultChildName_least_apart :
    ∃ name, namedApart.defaultChildName 1 (ascii "A") = .ok name ∧
      (name = none ↔ trimDashes ((ascii "A").foldl SlugState.next ⟨[], false⟩).buffer = []) ∧
      (∀ base, defaultNodeName (ascii "A") = some base → ∃ free, name = some free ∧
        free ∉ namedApart.childNames 1 ∧ (base ∉ namedApart.childNames 1 → free = base) ∧
        (base ∈ namedApart.childNames 1 → ∃ k, free = Shape.numberedName base k ∧
          IsLeast {i | 2 ≤ i ∧ Shape.numberedName base i ∉ namedApart.childNames 1} k)) :=
  defaultChildName_least (by decide) (by decide) (ascii "A")

end Document

end Muxly.Core
