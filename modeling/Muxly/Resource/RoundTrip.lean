/-
# Muxly.Resource.RoundTrip -- which addresses are read back as they were written

`Address.write` puts a host between brackets when it has a colon, and `Address.parse` takes brackets
off any host. So a host that came in brackets without need is written bare, and not every bare text is
a host. The condition under which an address survives is stated on the text it was parsed from.
-/
import Muxly.Core.Names
import Muxly.Resource.Transport

namespace Muxly.Resource

open Muxly.Core Muxly.Data

/-! ## Ports -/

theorem notMem_decimal {c : UInt8} (h : isDigit c = false) (n : Nat) : c ∉ decimal n := by
  intro hmem
  have hdigit := (mem_decimal hmem).1
  rw [h] at hdigit
  cases hdigit

theorem parseU16_decimal (port : UInt16) : parseU16 (decimal port.toNat) = some port := by
  have hlt : port.toNat < 2 ^ 16 := port.toNat_lt
  have hbig : port.toNat < u64Limit := hlt.trans (by decide)
  rw [parseU16, parseUnsigned_decimal hbig, Option.filter_some, if_pos (by simpa using hlt)]
  simp

theorem parsePort_decimal {port : UInt16} {allowZero : Bool} (h : allowZero = true ∨ port ≠ 0) :
    parsePort (decimal port.toNat) allowZero = some port := by
  rw [parsePort, parseU16_decimal, Option.filter_some, if_pos (by simpa using h)]

theorem parsePort_some {portText : Bytes} {allowZero : Bool} {port : UInt16}
    (h : parsePort portText allowZero = some port) : allowZero = true ∨ port ≠ 0 := by
  simpa using (Option.filter_eq_some_iff.mp h).2

theorem mem_of_parseDigits {negative : Bool} {text : Bytes} {acc n : Nat}
    (h : parseDigits negative text acc = some n) : ∀ c ∈ text, isDigit c = true ∨ c = underscore := by
  induction text generalizing acc with
  | nil => simp
  | cons d text ih =>
      intro c hc
      rw [parseDigits] at h
      split at h
      · rename_i hd
        rcases List.mem_cons.mp hc with rfl | hc
        · exact .inr hd
        · exact ih h c hc
      · split at h
        · rename_i hdigit
          simp only at h
          split at h
          · rcases List.mem_cons.mp hc with rfl | hc
            · exact .inl hdigit
            · exact ih h c hc
          · cases h
        · cases h

/-- What the text of a port is made of. -/
theorem mem_of_parsePort {portText : Bytes} {allowZero : Bool} {port : UInt16}
    (h : parsePort portText allowZero = some port) :
    ∀ c ∈ portText, isDigit c = true ∨ c = underscore ∨ c = 43 ∨ c = 45 := by
  obtain ⟨n, hn, -⟩ := Option.map_eq_some_iff.mp (Option.filter_eq_some_iff.mp h).1
  have hparse := (Option.filter_eq_some_iff.mp hn).1
  have hbody {negative : Bool} {text : Bytes} (h : parseUnsignedBody negative text = some n) :
      ∀ c ∈ text, isDigit c = true ∨ c = underscore := by
    unfold parseUnsignedBody at h
    split at h
    · cases h
    · exact mem_of_parseDigits h
  intro c hc
  cases portText with
  | nil => cases hc
  | cons d text =>
      rw [parseUnsigned] at hparse
      split at hparse
      · rename_i hd
        rcases List.mem_cons.mp hc with rfl | hc
        · exact .inr (.inr (.inl hd))
        · exact (hbody hparse c hc).imp_right .inl
      · split at hparse
        · rename_i hd
          rcases List.mem_cons.mp hc with rfl | hc
          · exact .inr (.inr (.inr hd))
          · exact (hbody hparse c hc).imp_right .inl
        · exact (hbody hparse c hc).imp_right .inl

/-! ## Hosts -/

section Hosts

variable {authority host : Bytes} {defaultPort : Option UInt16} {allowZero : Bool} {port : UInt16}

/-- The two ways in which an authority gives a host and a port. -/
theorem of_splitHostPort
    (h : splitHostPortWithDefault authority defaultPort allowZero = some (host, port)) :
    (∃ after, authority = openBracket :: (host ++ closeBracket :: after) ∧ closeBracket ∉ host ∧
      (after = [] ∧ defaultPort = some port ∨
        ∃ portText, after = colon :: portText ∧ parsePort portText allowZero = some port)) ∨
    (authority.head? ≠ some openBracket ∧ host ≠ [] ∧
      (colon ∉ authority ∧ host = authority ∧ defaultPort = some port ∨
        ∃ portText, authority = host ++ colon :: portText ∧ colon ∉ portText ∧
          parsePort portText allowZero = some port)) := by
  cases authority with
  | nil => cases h
  | cons c rest =>
      rw [splitHostPortWithDefault] at h
      by_cases hc : c = openBracket
      · left
        subst hc
        rw [if_pos rfl] at h
        cases hcut : cut closeBracket rest with
        | none =>
            rw [hcut] at h
            cases h
        | some p =>
            obtain ⟨inside, after⟩ := p
            obtain ⟨rfl, hinside⟩ := cut_eq_some.mp hcut
            rw [hcut] at h
            cases after with
            | nil =>
                obtain ⟨port', hport, heq⟩ := Option.map_eq_some_iff.mp h
                cases heq
                exact ⟨[], rfl, hinside, .inl ⟨rfl, hport⟩⟩
            | cons d portText =>
                simp only [ne_eq, ite_not] at h
                split at h
                · rename_i hd
                  obtain ⟨port', hport, heq⟩ := Option.map_eq_some_iff.mp h
                  cases heq
                  exact ⟨_, rfl, hinside, .inr ⟨portText, by rw [hd], hport⟩⟩
                · cases h
      · right
        rw [if_neg hc] at h
        refine ⟨by simpa using hc, ?_⟩
        cases hcut : cutLast colon (c :: rest) with
        | none =>
            rw [hcut] at h
            obtain ⟨port', hport, heq⟩ := Option.map_eq_some_iff.mp h
            cases heq
            exact ⟨List.cons_ne_nil _ _, .inl ⟨cutLast_eq_none.mp hcut, rfl, hport⟩⟩
        | some p =>
            obtain ⟨before, portText⟩ := p
            rw [hcut] at h
            obtain ⟨heq, hportText⟩ := cutLast_eq_some.mp hcut
            simp only at h
            split at h
            · cases h
            · rename_i hne
              obtain ⟨port', hport, heq'⟩ := Option.map_eq_some_iff.mp h
              cases heq'
              exact ⟨hne, .inr ⟨portText, heq, hportText, hport⟩⟩

theorem mem_of_splitHostPort
    (h : splitHostPortWithDefault authority defaultPort allowZero = some (host, port)) :
    ∀ c ∈ host, c ∈ authority := by
  intro c hc
  rcases of_splitHostPort h with ⟨after, rfl, -⟩ | ⟨-, -, ⟨-, rfl, -⟩ | ⟨portText, rfl, -⟩⟩
  · simp [hc]
  · exact hc
  · simp [hc]

theorem port_of_splitHostPort (hdefault : ∀ port, defaultPort = some port → port ≠ 0)
    (h : splitHostPortWithDefault authority defaultPort allowZero = some (host, port)) :
    allowZero = true ∨ port ≠ 0 := by
  rcases of_splitHostPort h with ⟨-, -, -, ⟨-, hport⟩ | ⟨_, -, hport⟩⟩ |
    ⟨-, -, ⟨-, -, hport⟩ | ⟨_, -, -, hport⟩⟩
  · exact .inr (hdefault port hport)
  · exact parsePort_some hport
  · exact .inr (hdefault port hport)
  · exact parsePort_some hport

/-- A host that is read back from what is written of it. -/
def HostWritesBack (host : Bytes) : Prop :=
  if colon ∈ host then closeBracket ∉ host else host ≠ [] ∧ host.head? ≠ some openBracket

instance (host : Bytes) : Decidable (HostWritesBack host) := by
  unfold HostWritesBack
  infer_instance

theorem colon_notMem_decimal (n : Nat) : colon ∉ decimal n := notMem_decimal (by decide) n

/-- A text that is shifted by a bracket has its colon one place earlier, inside the host. -/
theorem colon_mem_of_shift {rest after : Bytes}
    (h : host ++ colon :: rest = openBracket :: (host ++ closeBracket :: after)) : colon ∈ host := by
  have hplace := congrArg (fun text : Bytes => text[host.length]?) h
  cases host with
  | nil => simp [colon, openBracket] at hplace
  | cons c host =>
      simp only [List.length_cons, List.getElem?_cons_succ] at hplace
      rw [List.cons_append, List.getElem?_cons_succ, List.getElem?_append_right (Nat.le_refl _),
        Nat.sub_self, List.getElem?_cons_zero, List.getElem?_append_left (by simp)] at hplace
      exact List.mem_of_getElem? hplace.symm

/-- The host and the port are read back exactly for such a host. -/
theorem splitHostPort_hostPortText (hport : allowZero = true ∨ port ≠ 0) :
    splitHostPortWithDefault (hostPortText host port) defaultPort allowZero = some (host, port) ↔
      HostWritesBack host := by
  constructor
  · intro h
    unfold HostWritesBack
    rcases of_splitHostPort h with ⟨after, htext, hclose, -⟩ | ⟨hhead, hne, -⟩
    · split
      · exact hclose
      · rename_i hcolon
        rw [hostPortText, if_neg hcolon] at htext
        exact absurd (colon_mem_of_shift htext) hcolon
    · split
      · rename_i hcolon
        rw [hostPortText, if_pos hcolon] at hhead
        exact absurd rfl hhead
      · rename_i hcolon
        refine ⟨hne, ?_⟩
        obtain ⟨c, rest, rfl⟩ := List.exists_cons_of_ne_nil hne
        rwa [hostPortText, if_neg hcolon] at hhead
  · intro h
    unfold HostWritesBack at h
    split at h
    · rename_i hcolon
      have htext : hostPortText host port =
          openBracket :: (host ++ closeBracket :: (colon :: decimal port.toNat)) := by
        rw [hostPortText, if_pos hcolon]
        simp
      rw [htext, splitHostPortWithDefault, if_pos rfl, cut_append h]
      simp [parsePort_decimal hport]
    · rename_i hcolon
      obtain ⟨hne, hopen⟩ := h
      obtain ⟨c, rest, rfl⟩ := List.exists_cons_of_ne_nil hne
      have hc : c ≠ openBracket := by simpa using hopen
      have htext : hostPortText (c :: rest) port =
          c :: (rest ++ colon :: decimal port.toNat) := by
        rw [hostPortText, if_neg hcolon, List.cons_append]
      rw [htext, splitHostPortWithDefault, if_neg hc, ← List.cons_append,
        cutLast_append (colon_notMem_decimal _)]
      simp [parsePort_decimal hport]

/-- An authority whose host is read back, by its text: a host in brackets has a colon, or it would be
read back without them; and of an unbracketed authority with two colons what stands left of the last
one, which will be put in brackets, has no closing bracket. -/
def AuthorityWritesBack (authority : Bytes) : Prop :=
  (∀ inside after, authority = openBracket :: (inside ++ closeBracket :: after) →
    closeBracket ∉ inside → colon ∈ inside ∨ inside ≠ [] ∧ inside.head? ≠ some openBracket) ∧
  (authority.head? ≠ some openBracket → ∀ before after, authority = before ++ colon :: after →
    colon ∉ after → colon ∈ before → closeBracket ∉ before)

theorem hostWritesBack_iff
    (h : splitHostPortWithDefault authority defaultPort allowZero = some (host, port)) :
    HostWritesBack host ↔ AuthorityWritesBack authority := by
  rcases of_splitHostPort h with ⟨after, rfl, hclose, -⟩ | ⟨hhead, hne, hplain⟩
  · have hwrites : HostWritesBack host ↔
        colon ∈ host ∨ host ≠ [] ∧ host.head? ≠ some openBracket := by
      unfold HostWritesBack
      by_cases hcolon : colon ∈ host
      · simp [hcolon, hclose]
      · simp [hcolon]
    rw [hwrites]
    constructor
    · intro hhost
      refine ⟨fun inside after' heq hinside => ?_, fun hhead => absurd rfl hhead⟩
      have hcut : cut closeBracket (inside ++ closeBracket :: after') = some (inside, after') :=
        cut_append hinside
      rw [← (List.cons.inj heq).2, cut_append hclose] at hcut
      cases hcut
      exact hhost
    · intro hauthority
      exact hauthority.1 host after rfl hclose
  · have hbare : host.head? ≠ some openBracket := by
      rcases hplain with ⟨-, rfl, -⟩ | ⟨portText, rfl, -⟩
      · exact hhead
      · obtain ⟨c, rest, rfl⟩ := List.exists_cons_of_ne_nil hne
        exact hhead
    have hwrites : HostWritesBack host ↔ (colon ∈ host → closeBracket ∉ host) := by
      unfold HostWritesBack
      by_cases hcolon : colon ∈ host
      · simp [hcolon]
      · simp [hcolon, hne, hbare]
    rw [hwrites]
    have hunbracketed : ∀ inside after,
        authority ≠ openBracket :: (inside ++ closeBracket :: after) := by
      rintro inside after rfl
      exact hhead rfl
    rcases hplain with ⟨hcolon, rfl, -⟩ | ⟨portText, rfl, hportText, -⟩
    · refine ⟨fun _ => ⟨fun inside after heq => absurd heq (hunbracketed inside after), ?_⟩,
        fun _ h => absurd h hcolon⟩
      rintro - before after rfl
      exact absurd (by simp) hcolon
    · constructor
      · intro hhost
        refine ⟨fun inside after heq => absurd heq (hunbracketed inside after), ?_⟩
        intro _ before after heq hafter
        have hcut : cutLast colon (before ++ colon :: after) = some (before, after) :=
          cutLast_append hafter
        rw [← heq, cutLast_append hportText] at hcut
        cases hcut
        exact hhost
      · intro hauthority
        exact hauthority.2 hhead host portText rfl hportText

end Hosts

/-! ## Specs with a path -/

/-- The authority of a spec: up to the first `/`, or the first `?` where there is no `/`. -/
def authorityOf (spec : Bytes) : Bytes :=
  match cut slash spec with
  | some (authority, _) => authority
  | none =>
    match cut question spec with
    | some (authority, _) => authority
    | none => spec

section Specs

variable {spec defaultPath authority path query : Bytes}

/-- What a spec is cut into. A `?` in the authority puts the rest of the spec into the query. -/
theorem of_splitSpec (hdefault : ∃ rest, defaultPath = slash :: rest) (hquestion : question ∉ defaultPath)
    (h : splitSpec spec defaultPath = (authority, path, query)) :
    authority = authorityOf spec ∧ slash ∉ authority ∧ (∃ rest, path = slash :: rest) ∧
      question ∉ path ∧ (question ∈ authority → slash ∈ query) := by
  unfold splitSpec at h
  unfold authorityOf
  cases hslash : cut slash spec with
  | none =>
      rw [hslash] at h
      cases hcut : cut question spec with
      | none =>
          rw [hcut] at h
          cases h
          exact ⟨rfl, cut_eq_none.mp hslash, hdefault, hquestion,
            fun hmem => absurd hmem (cut_eq_none.mp hcut)⟩
      | some p =>
          rw [hcut] at h
          cases h
          obtain ⟨rfl, hnot⟩ := cut_eq_some.mp hcut
          refine ⟨rfl, fun hmem => cut_eq_none.mp hslash ?_, hdefault, hquestion,
            fun hmem => absurd hmem hnot⟩
          exact List.mem_append_left _ hmem
  | some p =>
      obtain ⟨before, afterSlash⟩ := p
      obtain ⟨rfl, hbefore⟩ := cut_eq_some.mp hslash
      rw [hslash] at h
      cases hcut : cut question (before ++ slash :: afterSlash) with
      | none =>
          rw [hcut] at h
          cases h
          have hnone := cut_eq_none.mp hcut
          simp only [List.mem_append, not_or] at hnone
          exact ⟨rfl, hbefore, ⟨afterSlash, rfl⟩, hnone.2, fun hmem => absurd hmem hnone.1⟩
      | some q =>
          obtain ⟨beforeQuestion, afterQuestion⟩ := q
          obtain ⟨heq, hnot⟩ := cut_eq_some.mp hcut
          rw [hcut] at h
          cases h
          refine ⟨rfl, hbefore, ?_⟩
          rcases List.append_eq_append_iff.mp heq with ⟨middle, rfl, hrest⟩ | ⟨middle, rfl, hrest⟩
          · -- the path lies between the slash and the question mark
            cases middle with
            | nil => exact absurd (List.cons.inj hrest).1 (by decide)
            | cons c middle =>
                obtain ⟨rfl, -⟩ := List.cons.inj hrest
                simp only [List.mem_append, not_or] at hnot
                have hdrop : (authority ++ slash :: middle).drop authority.length =
                    slash :: middle := List.drop_left
                rw [if_pos (by simp), hdrop]
                exact ⟨⟨middle, rfl⟩, hnot.2, fun hmem => absurd hmem hnot.1⟩
          · rw [if_neg (by simp)]
            refine ⟨hdefault, hquestion, fun _ => ?_⟩
            cases middle with
            | nil => exact absurd (List.cons.inj hrest).1 (by decide)
            | cons c middle =>
                obtain ⟨-, rfl⟩ := List.cons.inj hrest
                simp

/-- A spec is cut where it was put together. -/
theorem splitSpec_append {rest tail : Bytes} (hslash : slash ∉ authority)
    (hauthority : question ∉ authority) (hrest : question ∉ slash :: rest)
    (htail : tail = [] ∧ query = [] ∨ tail = question :: query) :
    splitSpec (authority ++ slash :: rest ++ tail) defaultPath =
      (authority, slash :: rest, query) := by
  have hpath : question ∉ authority ++ slash :: rest := by
    simp only [List.mem_append, not_or]
    exact ⟨hauthority, hrest⟩
  have hcut : cut slash (authority ++ slash :: rest ++ tail) = some (authority, rest ++ tail) := by
    rw [List.append_assoc, List.cons_append]
    exact cut_append hslash
  rw [splitSpec, hcut]
  rcases htail with ⟨rfl, rfl⟩ | rfl
  · rw [List.append_nil, List.append_nil, cut_eq_none.mpr hpath]
  · rw [cut_append hpath]
    simp

/-- A question mark in the authority takes the path for a part of the query. -/
theorem splitSpec_question {rest : Bytes} (hslash : slash ∉ authority)
    (hauthority : question ∈ authority) :
    ∃ before, splitSpec (authority ++ slash :: rest) defaultPath =
      (authority, defaultPath, before ++ slash :: rest) := by
  cases hcut : cut question authority with
  | none => exact absurd hauthority (cut_eq_none.mp hcut)
  | some p =>
      obtain ⟨before, after⟩ := p
      obtain ⟨rfl, hbefore⟩ := cut_eq_some.mp hcut
      have htext : before ++ question :: after ++ slash :: rest =
          before ++ question :: (after ++ slash :: rest) := by simp
      refine ⟨after, ?_⟩
      rw [splitSpec, cut_append hslash, htext, cut_append hbefore]
      simp

end Specs

/-! ## Trust settings -/

section Trust

variable {trust trust' : Trust} {entry query value : Bytes}

theorem entry_sha256 (trust : Trust) (value : Bytes) :
    trust.entry (ascii "sha256=" ++ value) =
      if trust.certificateHash.isSome then none else some { trust with certificateHash := value } := by
  rw [Trust.entry, if_neg (by simp [ascii]), afterPrefix_append]

theorem entry_sni (trust : Trust) (value : Bytes) :
    trust.entry (ascii "sni=" ++ value) =
      if trust.serverName.isSome then none else some { trust with serverName := value } := by
  have hsha256 : afterPrefix (ascii "sha256=") (ascii "sni=" ++ value) = none := rfl
  rw [Trust.entry, if_neg (by simp [ascii]), hsha256, afterPrefix_append]

theorem entry_ca (trust : Trust) (value : Bytes) :
    trust.entry (ascii "ca=" ++ value) =
      if trust.caFile.isSome then none else some { trust with caFile := value } := by
  have hsha256 : afterPrefix (ascii "sha256=") (ascii "ca=" ++ value) = none := rfl
  have hsni : afterPrefix (ascii "sni=") (ascii "ca=" ++ value) = none := rfl
  rw [Trust.entry, if_neg (by simp [ascii]), hsha256, hsni, afterPrefix_append]

theorem ite_none_eq_some {α β : Type} {setting : Option β} {a b : α} :
    (if setting.isSome then none else some a) = some b ↔ setting = none ∧ a = b := by
  cases setting <;> simp

/-- What an entry can do: nothing if it is empty, or fill a setting that is not there. -/
theorem entries_of_entry (h : trust.entry entry = some trust') :
    entry = [] ∧ trust' = trust ∨ trust'.entries.Perm (entry :: trust.entries) := by
  obtain ⟨certificateHash, serverName, caFile⟩ := trust
  unfold Trust.entry at h
  split at h
  · rename_i hempty
    cases h
    exact .inl ⟨hempty, rfl⟩
  · right
    split at h
    · rename_i value hvalue
      rw [afterPrefix_eq_some hvalue]
      obtain ⟨hnone, heq⟩ := ite_none_eq_some.mp h
      obtain rfl : certificateHash = none := hnone
      rw [← heq]
      exact .refl _
    · split at h
      · rename_i value hvalue
        rw [afterPrefix_eq_some hvalue]
        obtain ⟨hnone, heq⟩ := ite_none_eq_some.mp h
        obtain rfl : serverName = none := hnone
        rw [← heq]
        show (_ ++ [ascii "sni=" ++ value] ++ _ : List Bytes).Perm (_ :: (_ ++ [] ++ _))
        rw [List.append_assoc, List.append_nil]
        exact List.perm_middle
      · split at h
        · rename_i value hvalue
          rw [afterPrefix_eq_some hvalue]
          obtain ⟨hnone, heq⟩ := ite_none_eq_some.mp h
          obtain rfl : caFile = none := hnone
          rw [← heq]
          show (_ ++ _ ++ [ascii "ca=" ++ value] : List Bytes).Perm (_ :: (_ ++ _ ++ []))
          rw [List.append_nil]
          exact List.perm_append_singleton _ _
        · cases h

/-- The bytes of a query that separate nothing. -/
def letters (text : Bytes) : Nat := text.countP (· ≠ ampersand)

/-- The bytes that a writer puts down for the entries. -/
def Trust.letters (trust : Trust) : Nat := (trust.entries.map Resource.letters).sum

theorem letters_entry (h : trust.entry entry = some trust') :
    trust'.letters = trust.letters + letters entry := by
  rcases entries_of_entry h with ⟨rfl, rfl⟩ | hperm
  · rfl
  · rw [Trust.letters, (hperm.map letters).sum_eq, List.map_cons, List.sum_cons, Nat.add_comm]
    rfl

theorem letters_foldlM (pieces : List Bytes) (h : pieces.foldlM Trust.entry trust = some trust') :
    trust'.letters = trust.letters + (pieces.map letters).sum := by
  induction pieces generalizing trust with
  | nil =>
      cases h
      rfl
  | cons piece pieces ih =>
      obtain ⟨next, hnext, hrest⟩ := Option.bind_eq_some_iff.mp h
      rw [ih hrest, letters_entry hnext, List.map_cons, List.sum_cons, Nat.add_assoc]

theorem letters_append (text text' : Bytes) :
    letters (text ++ text') = letters text + letters text' := List.countP_append

theorem letters_intercalate (pieces : List Bytes) :
    letters ([ampersand].intercalate pieces) = (pieces.map letters).sum := by
  induction pieces with
  | nil => rfl
  | cons piece pieces ih =>
      cases pieces with
      | nil => simp
      | cons next pieces =>
          have hsep : letters [ampersand] = 0 := by decide
          rw [List.intercalate_cons_cons, letters_append, letters_append, ih, hsep, Nat.add_zero]
          rfl

theorem letters_queryText (entries : List Bytes) :
    (entries.map letters).sum ≤ letters (queryText entries) := by
  cases entries with
  | nil => exact Nat.le_refl _
  | cons entry entries =>
      show _ ≤ letters ([question] ++ [ampersand].intercalate (entry :: entries))
      rw [letters_append, letters_intercalate]
      exact Nat.le_add_left _ _

/-- Every byte of an accepted query is kept. -/
theorem letters_parseTrust (h : parseTrust query = some trust) : trust.letters = letters query := by
  unfold parseTrust at h
  split at h
  · rename_i hempty
    cases h
    rw [hempty]
    rfl
  · have hsum := letters_foldlM _ h
    rw [hsum]
    show 0 + ((query.splitOn ampersand).map fun piece => piece.countP (· ≠ ampersand)).sum = _
    rw [sum_countP_splitOn, Nat.zero_add, letters]

/-- Every entry is one of the pieces, or was there before. -/
theorem mem_entries_of_foldlM (pieces : List Bytes)
    (h : pieces.foldlM Trust.entry trust = some trust') (hmem : entry ∈ trust'.entries) :
    entry ∈ pieces ∨ entry ∈ trust.entries := by
  induction pieces generalizing trust with
  | nil =>
      cases h
      exact .inr hmem
  | cons piece pieces ih =>
      obtain ⟨next, hnext, hrest⟩ := Option.bind_eq_some_iff.mp h
      rcases ih hrest with hpieces | hentry
      · exact .inl (List.mem_cons_of_mem _ hpieces)
      · rcases entries_of_entry hnext with ⟨-, rfl⟩ | hperm
        · exact .inr hentry
        · rcases List.mem_cons.mp (hperm.mem_iff.mp hentry) with rfl | hentry
          · exact .inl (List.mem_cons_self ..)
          · exact .inr hentry

theorem mem_splitOn_of_parseTrust (h : parseTrust query = some trust) :
    ∀ entry ∈ trust.entries, entry ∈ query.splitOn ampersand := by
  intro entry hmem
  unfold parseTrust at h
  split at h
  · cases h
    exact absurd hmem List.not_mem_nil
  · exact (mem_entries_of_foldlM _ h hmem).resolve_right List.not_mem_nil

theorem ampersand_notMem_parseTrust (h : parseTrust query = some trust) :
    ∀ entry ∈ trust.entries, ampersand ∉ entry :=
  fun entry hmem => notMem_of_mem_splitOn (mem_splitOn_of_parseTrust h entry hmem)

/-- The entries that are written fill the settings again. -/
theorem foldlM_entries (trust : Trust) :
    trust.entries.foldlM Trust.entry ⟨none, none, none⟩ = some trust := by
  obtain ⟨certificateHash, serverName, caFile⟩ := trust
  cases certificateHash <;> cases serverName <;> cases caFile <;>
    simp [Trust.entries, entry_sha256, entry_sni, entry_ca]

/-- The settings are read back from the query that is written of them. -/
theorem parseTrust_entries (hentries : ∀ entry ∈ trust.entries, ampersand ∉ entry)
    (hne : trust.entries ≠ []) :
    parseTrust ([ampersand].intercalate trust.entries) = some trust := by
  have hsplit := List.splitOn_intercalate ampersand hentries hne
  have hempty : [ampersand].intercalate trust.entries ≠ [] := by
    intro heq
    rw [heq, List.splitOn_nil] at hsplit
    have hfold := foldlM_entries trust
    rw [← hsplit] at hfold
    have hsame : (⟨none, none, none⟩ : Trust) = trust := Option.some.inj hfold
    rw [← hsame] at hne
    exact hne rfl
  rw [parseTrust, if_neg hempty, hsplit, foldlM_entries]

end Trust

/-! ## Addresses with a path -/

section Paths

variable {spec defaultPath : Bytes} {port : UInt16}

/-- A byte that the writers do not put around a host is in the text exactly if it is in the host. -/
theorem mem_hostPortText {c : UInt8} {host : Bytes} (hdigit : isDigit c = false)
    (hcolon : c ≠ colon) (hopen : c ≠ openBracket) (hclose : c ≠ closeBracket) :
    c ∈ hostPortText host port ↔ c ∈ host := by
  have hdecimal : c ∉ decimal port.toNat := notMem_decimal hdigit _
  unfold hostPortText
  split <;> simp [hdecimal, hcolon, hopen, hclose]

theorem slash_mem_hostPortText {host : Bytes} : slash ∈ hostPortText host port ↔ slash ∈ host :=
  mem_hostPortText (by decide) (by decide) (by decide) (by decide)

theorem question_mem_hostPortText {host : Bytes} :
    question ∈ hostPortText host port ↔ question ∈ host :=
  mem_hostPortText (by decide) (by decide) (by decide) (by decide)

theorem of_parseHttp {address : HttpAddress} (h : parseHttp spec = some address) :
    ∃ authority, splitSpec spec rpcDefaultPath = (authority, address.path, []) ∧
      splitHostPortWithDefault authority (some 80) true = some (address.host, address.port) := by
  obtain ⟨⟨parsed, sha256⟩, hparsed, rfl⟩ := Option.map_eq_some_iff.mp h
  unfold parseHttpLike at hparsed
  generalize splitSpec spec rpcDefaultPath = parts at hparsed
  obtain ⟨authority, path, query⟩ := parts
  obtain ⟨⟨host, port⟩, hsplit, hrest⟩ := Option.bind_eq_some_iff.mp hparsed
  obtain ⟨sha256', hquery, heq⟩ := Option.map_eq_some_iff.mp hrest
  cases heq
  by_cases hempty : query = []
  · exact ⟨authority, by rw [hempty], hsplit⟩
  · rw [if_neg hempty] at hquery
    cases hquery

theorem parseHttp_eq {authority path : Bytes}
    (h : splitSpec spec rpcDefaultPath = (authority, path, [])) :
    parseHttp spec = (splitHostPortWithDefault authority (some 80) true).map fun (host, port) =>
      ⟨host, port, path⟩ := by
  rw [parseHttp, parseHttpLike, h]
  simp only [splitHostPortAllowZero]
  cases splitHostPortWithDefault authority (some 80) true with
  | none => rfl
  | some p => rfl

theorem of_parseSecureHttpLike {defaultPort : UInt16} {address : SecureHttpAddress}
    (h : parseSecureHttpLike spec defaultPort defaultPath = some address) :
    ∃ authority query, splitSpec spec defaultPath = (authority, address.path, query) ∧
      splitHostPortWithDefault authority (some defaultPort) true =
        some (address.host, address.port) ∧
      parseTrust query = some address.trust := by
  unfold parseSecureHttpLike at h
  obtain ⟨⟨host, port⟩, hsplit, hrest⟩ := Option.bind_eq_some_iff.mp h
  obtain ⟨trust, htrust, rfl⟩ := Option.map_eq_some_iff.mp hrest
  exact ⟨_, _, rfl, hsplit, htrust⟩

theorem parseSecureHttpLike_eq {defaultPort : UInt16} {authority path query : Bytes}
    (h : splitSpec spec defaultPath = (authority, path, query)) :
    parseSecureHttpLike spec defaultPort defaultPath =
      (splitHostPortWithDefault authority (some defaultPort) true).bind fun (host, port) =>
        (parseTrust query).map fun trust => ⟨host, port, path, trust⟩ := by
  rw [parseSecureHttpLike, h]
  rfl

theorem question_notMem_port {portText : Bytes} {allowZero : Bool}
    (h : parsePort portText allowZero = some port) : question ∉ colon :: portText := by
  intro hquestion
  rcases List.mem_cons.mp hquestion with heq | hquestion
  · exact absurd heq (by decide)
  · exact absurd (mem_of_parsePort h question hquestion) (by decide)

theorem default_ok {path : Bytes} (h : path = rpcDefaultPath ∨ path = h3wtDefaultPath) :
    (∃ rest, path = slash :: rest) ∧ question ∉ path := by
  rcases h with rfl | rfl
  · exact ⟨⟨ascii "rpc", by decide⟩, by decide⟩
  · exact ⟨⟨ascii "mux", by decide⟩, by decide⟩

theorem question_mem_of_splitHostPort {authority host : Bytes} {defaultPort : Option UInt16}
    {allowZero : Bool}
    (h : splitHostPortWithDefault authority defaultPort allowZero = some (host, port))
    (hmem : question ∈ authority) : question ∈ host := by
  rcases of_splitHostPort h with ⟨after, rfl, -, hafter⟩ | ⟨-, -, ⟨-, rfl, -⟩ | ⟨portText, rfl, -, hparse⟩⟩
  · have hnot : question ∉ closeBracket :: after := by
      rcases hafter with ⟨rfl, -⟩ | ⟨portText, rfl, hparse⟩
      · decide
      · intro hquestion
        rcases List.mem_cons.mp hquestion with heq | hquestion
        · exact absurd heq (by decide)
        · exact question_notMem_port hparse hquestion
    rcases List.mem_cons.mp hmem with heq | hmem
    · exact absurd heq (by decide)
    · exact (List.mem_append.mp hmem).resolve_right hnot
  · exact hmem
  · exact (List.mem_append.mp hmem).resolve_right (question_notMem_port hparse)

/-- A plain address is read back exactly if its host is. -/
theorem parseHttp_text {address : HttpAddress} (h : parseHttp spec = some address) :
    parseHttp address.text = some address ↔ AuthorityWritesBack (authorityOf spec) := by
  obtain ⟨authority, hspec, hsplit⟩ := of_parseHttp h
  obtain ⟨hdefault, hquestion⟩ := default_ok (.inl rfl)
  obtain ⟨rfl, hslash, ⟨rest, hpath⟩, hclear, hafter⟩ := of_splitSpec hdefault hquestion hspec
  have hauthority : question ∉ authorityOf spec := fun hmem => List.not_mem_nil (hafter hmem)
  have hhost := mem_of_splitHostPort hsplit
  have htext : splitSpec address.text rpcDefaultPath =
      (hostPortText address.host address.port, slash :: rest, []) := by
    rw [HttpAddress.text, hpath, ← List.append_nil (_ ++ slash :: rest)]
    refine splitSpec_append ?_ ?_ (hpath ▸ hclear) (.inl ⟨rfl, rfl⟩)
    · exact fun hmem => hslash (hhost _ (slash_mem_hostPortText.mp hmem))
    · exact fun hmem => hauthority (hhost _ (question_mem_hostPortText.mp hmem))
  rw [parseHttp_eq htext, ← hostWritesBack_iff hsplit,
    ← @splitHostPort_hostPortText address.host (some 80) true address.port (.inl rfl),
    Option.map_eq_some_iff]
  constructor
  · rintro ⟨⟨host, port⟩, hread, heq⟩
    rw [hread, ← heq]
  · intro hread
    refine ⟨_, hread, ?_⟩
    rw [← hpath]

/-- What is read of the text of a secure address whose host has no question mark. -/
theorem parseSecureHttpLike_text_eq {defaultPort : UInt16} {address : SecureHttpAddress} {rest : Bytes}
    (hpath : address.path = slash :: rest) (hclear : question ∉ address.path)
    (hentries : ∀ entry ∈ address.trust.entries, ampersand ∉ entry) (hslash : slash ∉ address.host)
    (hquestion : question ∉ address.host) :
    parseSecureHttpLike address.text defaultPort defaultPath =
      (splitHostPortWithDefault (hostPortText address.host address.port) (some defaultPort) true).map
        fun (host, port) => ⟨host, port, address.path, address.trust⟩ := by
  obtain ⟨query, htail, hquery⟩ : ∃ query,
      (queryText address.trust.entries = [] ∧ query = [] ∨
        queryText address.trust.entries = question :: query) ∧
      parseTrust query = some address.trust := by
    cases hlist : address.trust.entries with
    | nil =>
        refine ⟨[], .inl ⟨rfl, rfl⟩, ?_⟩
        have hfold := foldlM_entries address.trust
        rw [hlist] at hfold
        exact hfold
    | cons entry entries =>
        refine ⟨_, .inr rfl, ?_⟩
        have hne : address.trust.entries ≠ [] := by
          rw [hlist]
          exact List.cons_ne_nil _ _
        have hread := parseTrust_entries hentries hne
        rwa [hlist] at hread
  have htext : splitSpec address.text defaultPath =
      (hostPortText address.host address.port, slash :: rest, query) := by
    rw [SecureHttpAddress.text, hpath]
    refine splitSpec_append ?_ ?_ (hpath ▸ hclear) htail
    · exact fun hmem => hslash (slash_mem_hostPortText.mp hmem)
    · exact fun hmem => hquestion (question_mem_hostPortText.mp hmem)
  rw [parseSecureHttpLike_eq htext, hquery, ← hpath]
  cases splitHostPortWithDefault (hostPortText address.host address.port) (some defaultPort) true with
  | none => rfl
  | some p => rfl

/-- A question mark in the host takes the path and all that is written of the settings for a query,
which then says more than the settings. -/
theorem parseSecureHttpLike_text_ne {defaultPort : UInt16} {address : SecureHttpAddress} {rest : Bytes}
    (hpath : address.path = slash :: rest) (hslash : slash ∉ address.host)
    (hquestion : question ∈ address.host) :
    parseSecureHttpLike address.text defaultPort defaultPath ≠ some address := by
  intro hread
  have hslashText : slash ∉ hostPortText address.host address.port := fun hmem =>
    hslash (slash_mem_hostPortText.mp hmem)
  obtain ⟨before, hcut⟩ : ∃ before,
      splitSpec (hostPortText address.host address.port ++
          slash :: (rest ++ queryText address.trust.entries)) defaultPath =
        (hostPortText address.host address.port, defaultPath,
          before ++ slash :: (rest ++ queryText address.trust.entries)) :=
    splitSpec_question hslashText (question_mem_hostPortText.mpr hquestion)
  have htext : address.text = hostPortText address.host address.port ++
      slash :: (rest ++ queryText address.trust.entries) := by
    rw [SecureHttpAddress.text, hpath]
    simp
  rw [htext] at hread
  obtain ⟨authority, query, hspec, -, htrust⟩ := of_parseSecureHttpLike hread
  rw [hcut] at hspec
  cases hspec
  have hletters := letters_parseTrust htrust
  have hmore : address.trust.letters ≤ letters (queryText address.trust.entries) :=
    letters_queryText address.trust.entries
  have hslashLetter : letters [slash] = 1 := by decide
  rw [← List.singleton_append, letters_append, letters_append, letters_append, hslashLetter]
    at hletters
  omega

/-- A secure address with other settings is read back exactly if its host is and has no question mark,
and no setting has an ampersand. -/
theorem parseSecureHttpLike_withTrust {defaultPort : UInt16} {address : SecureHttpAddress}
    (hdefault : defaultPath = rpcDefaultPath ∨ defaultPath = h3wtDefaultPath)
    (h : parseSecureHttpLike spec defaultPort defaultPath = some address) (trust : Trust) :
    parseSecureHttpLike (SecureHttpAddress.text { address with trust := trust }) defaultPort
        defaultPath = some { address with trust := trust } ↔
      (AuthorityWritesBack (authorityOf spec) ∧ question ∉ authorityOf spec) ∧
        ∀ entry ∈ trust.entries, ampersand ∉ entry := by
  obtain ⟨authority, query, hspec, hsplit, -⟩ := of_parseSecureHttpLike h
  obtain ⟨hstart, hquestion⟩ := default_ok hdefault
  obtain ⟨rfl, hslash, ⟨rest, hpath⟩, hclear, hafter⟩ := of_splitSpec hstart hquestion hspec
  have hhost := mem_of_splitHostPort hsplit
  have hslashHost : slash ∉ address.host := fun hmem => hslash (hhost _ hmem)
  by_cases hmem : question ∈ address.host
  · have hne := @parseSecureHttpLike_text_ne defaultPath defaultPort { address with trust := trust }
      rest hpath hslashHost hmem
    exact ⟨fun hread => absurd hread hne, fun hboth => absurd (hhost _ hmem) hboth.1.2⟩
  · have hauthority : question ∉ authorityOf spec := fun hin =>
      hmem (question_mem_of_splitHostPort hsplit hin)
    -- What is read is split at ampersands, so the settings that come back have none.
    have hentries (hread : parseSecureHttpLike (SecureHttpAddress.text { address with trust := trust })
        defaultPort defaultPath = some { address with trust := trust }) :
        ∀ entry ∈ trust.entries, ampersand ∉ entry := by
      obtain ⟨_, _, -, -, htrust⟩ := of_parseSecureHttpLike hread
      exact ampersand_notMem_parseTrust htrust
    have hback (hclean : ∀ entry ∈ trust.entries, ampersand ∉ entry) :
        parseSecureHttpLike (SecureHttpAddress.text { address with trust := trust }) defaultPort
            defaultPath = some { address with trust := trust } ↔
          AuthorityWritesBack (authorityOf spec) := by
      rw [@parseSecureHttpLike_text_eq defaultPath defaultPort { address with trust := trust } rest
          hpath hclear hclean hslashHost hmem, ← hostWritesBack_iff hsplit,
        ← @splitHostPort_hostPortText address.host (some defaultPort) true address.port (.inl rfl),
        Option.map_eq_some_iff]
      constructor
      · rintro ⟨⟨host, port⟩, hread, heq⟩
        obtain ⟨rfl, rfl⟩ : host = address.host ∧ port = address.port := by
          obtain ⟨hhost, hport, -⟩ := SecureHttpAddress.mk.inj heq
          exact ⟨hhost, hport⟩
        exact hread
      · exact fun hread => ⟨_, hread, rfl⟩
    constructor
    · intro hread
      have hclean := hentries hread
      exact ⟨⟨(hback hclean).mp hread, hauthority⟩, hclean⟩
    · rintro ⟨⟨hauthority', -⟩, hclean⟩
      exact (hback hclean).mpr hauthority'

/-- A secure address is read back exactly if its host is and has no question mark. -/
theorem parseSecureHttpLike_text {defaultPort : UInt16} {address : SecureHttpAddress}
    (hdefault : defaultPath = rpcDefaultPath ∨ defaultPath = h3wtDefaultPath)
    (h : parseSecureHttpLike spec defaultPort defaultPath = some address) :
    parseSecureHttpLike address.text defaultPort defaultPath = some address ↔
      AuthorityWritesBack (authorityOf spec) ∧ question ∉ authorityOf spec := by
  obtain ⟨_, _, -, -, htrust⟩ := of_parseSecureHttpLike h
  exact (parseSecureHttpLike_withTrust hdefault h address.trust).trans
    (and_iff_left (ampersand_notMem_parseTrust htrust))

end Paths

/-! ## Other addresses -/

/-- A TCP address is read back exactly if its host is. -/
theorem parseTcp_text {spec : Bytes} {address : TcpAddress} (h : parseTcp spec = some address) :
    parseTcp address.text = some address ↔ AuthorityWritesBack spec := by
  obtain ⟨⟨host, port⟩, hsplit, rfl⟩ := Option.map_eq_some_iff.mp h
  have hport : false = true ∨ port ≠ 0 :=
    port_of_splitHostPort (by simp) hsplit
  rw [parseTcp, ← hostWritesBack_iff hsplit, ← @splitHostPort_hostPortText host none false port hport,
    Option.map_eq_some_iff]
  constructor
  · rintro ⟨⟨host', port'⟩, hread, heq⟩
    cases heq
    exact hread
  · exact fun hread => ⟨_, hread, rfl⟩

section Ssh

variable {spec user hostPart destination : Bytes} {port : Option UInt16}

theorem of_splitUser (h : splitUser spec = (user, hostPart)) :
    spec = user ++ hostPart ∧ atSign ∉ hostPart ∧ (user = [] ∨ ∃ name, user = name ++ [atSign]) := by
  unfold splitUser at h
  cases hcut : cutLast atSign spec with
  | none =>
      rw [hcut] at h
      cases h
      exact ⟨rfl, cutLast_eq_none.mp hcut, .inl rfl⟩
  | some p =>
      rw [hcut] at h
      cases h
      obtain ⟨heq, hnot⟩ := cutLast_eq_some.mp hcut
      exact ⟨by simpa using heq, hnot, .inr ⟨_, rfl⟩⟩

/-- Another host part after the same user. -/
theorem splitUser_append (huser : user = [] ∨ ∃ name, user = name ++ [atSign])
    (hhost : atSign ∉ hostPart) : splitUser (user ++ hostPart) = (user, hostPart) := by
  unfold splitUser
  rcases huser with rfl | ⟨name, rfl⟩
  · rw [List.nil_append, cutLast_eq_none.mpr hhost]
  · rw [List.append_assoc, List.singleton_append, cutLast_append hhost]

/-- A host in brackets is read back with its port. -/
theorem parseSshDestination_bracketed {inside : Bytes} {port : UInt16}
    (huser : user = [] ∨ ∃ name, user = name ++ [atSign]) (hat : atSign ∉ inside)
    (hinside : closeBracket ∉ inside) (hport : port ≠ 0) :
    parseSshDestination (user ++ openBracket :: (inside ++ [closeBracket]) ++
        sshPortText (some port)) =
      some (user ++ openBracket :: (inside ++ [closeBracket]), some port) := by
  have hhost : atSign ∉ openBracket :: (inside ++ closeBracket :: (colon :: decimal port.toNat)) := by
    simp only [List.mem_cons, List.mem_append, not_or]
    exact ⟨by decide, hat, by decide, by decide, notMem_decimal (by decide) _⟩
  have htext : user ++ openBracket :: (inside ++ [closeBracket]) ++ sshPortText (some port) =
      user ++ openBracket :: (inside ++ closeBracket :: (colon :: decimal port.toNat)) := by
    simp [sshPortText]
  rw [htext, parseSshDestination, splitUser_append huser hhost]
  simp only [cut_append hinside]
  simp [parsePort_decimal (.inr hport)]

/-- A host without brackets is read back with its port, unless it has a colon. -/
theorem parseSshDestination_bare {host : Bytes} {port : UInt16}
    (huser : user = [] ∨ ∃ name, user = name ++ [atSign]) (hat : atSign ∉ host)
    (hstart : host.head? ≠ some openBracket) (hcolon : colon ∉ host) (hport : port ≠ 0) :
    parseSshDestination (user ++ host ++ sshPortText (some port)) =
      some (user ++ host, some port) := by
  have hhost : atSign ∉ host ++ colon :: decimal port.toNat := by
    simp only [List.mem_cons, List.mem_append, not_or]
    exact ⟨hat, by decide, notMem_decimal (by decide) _⟩
  have hfirst : ∃ c rest, host ++ colon :: decimal port.toNat = c :: rest ∧ c ≠ openBracket := by
    cases host with
    | nil => exact ⟨_, _, rfl, by decide⟩
    | cons c host => exact ⟨_, _, rfl, fun heq => hstart (congrArg some heq)⟩
  obtain ⟨c, rest, hrest, hc⟩ := hfirst
  have hagain := @cutLast_append _ _ colon host (decimal port.toNat) (colon_notMem_decimal _)
  rw [sshPortText, List.append_assoc, parseSshDestination, splitUser_append huser hhost]
  rw [hrest] at hagain ⊢
  simp only [if_neg hc, hagain, if_neg hcolon]
  simp [parsePort_decimal (.inr hport)]

/-- A destination is the whole text, or the text up to a colon and a port. -/
theorem of_parseSshDestination (h : parseSshDestination spec = some (destination, port)) :
    (destination = spec ∧ port = none) ∨ ∃ user host portText port',
      spec = user ++ host ++ colon :: portText ∧ destination = user ++ host ∧ port = some port' ∧
        parsePort portText false = some port' ∧ (user = [] ∨ ∃ name, user = name ++ [atSign]) ∧
        atSign ∉ host ∧
        ((∃ inside, host = openBracket :: (inside ++ [closeBracket]) ∧ closeBracket ∉ inside) ∨
          host.head? ≠ some openBracket ∧ colon ∉ host) := by
  unfold parseSshDestination at h
  cases hsplit : splitUser spec with
  | mk user hostPart =>
      obtain ⟨rfl, hhost, huser⟩ := of_splitUser hsplit
      rw [hsplit] at h
      -- without a port the destination is the whole text
      have hwhole (hnone : some (user ++ hostPart, (none : Option UInt16)) = some (destination, port)) :
          destination = user ++ hostPart ∧ port = none := by
        cases hnone
        exact ⟨rfl, rfl⟩
      cases hostPart with
      | nil => cases h
      | cons c rest =>
          simp only at h
          split at h
          · rename_i hc
            subst hc
            cases hcut : cut closeBracket rest with
            | none =>
                rw [hcut] at h
                cases h
            | some p =>
                obtain ⟨inside, after⟩ := p
                obtain ⟨rfl, hinside⟩ := cut_eq_some.mp hcut
                rw [hcut] at h
                cases after with
                | nil => exact .inl (hwhole h)
                | cons d text =>
                    simp only [ne_eq, ite_not] at h
                    split at h
                    · rename_i hd
                      subst hd
                      obtain ⟨port', hport, heq⟩ := Option.map_eq_some_iff.mp h
                      cases heq
                      refine .inr ⟨user, openBracket :: (inside ++ [closeBracket]), text, port',
                        by simp, rfl, rfl, hport, huser, fun hmem => hhost ?_,
                        .inl ⟨inside, rfl, hinside⟩⟩
                      simp only [List.mem_cons, List.mem_append, List.not_mem_nil, or_false] at hmem ⊢
                      tauto
                    · cases h
          · rename_i hc
            cases hcut : cutLast colon (c :: rest) with
            | none =>
                rw [hcut] at h
                exact .inl (hwhole h)
            | some p =>
                obtain ⟨host, text⟩ := p
                obtain ⟨heq, htext⟩ := cutLast_eq_some.mp hcut
                rw [hcut] at h
                simp only at h
                split at h
                · exact .inl (hwhole h)
                · rename_i hcolon
                  obtain ⟨port', hport, heq'⟩ := Option.map_eq_some_iff.mp h
                  cases heq'
                  rw [heq] at hhost
                  have hstart : host.head? ≠ some openBracket := by
                    cases host with
                    | nil => exact nofun
                    | cons c' host =>
                        obtain ⟨rfl, -⟩ := List.cons.inj heq
                        exact fun hopen => hc (Option.some.inj hopen)
                  exact .inr ⟨user, host, text, port', by rw [heq, List.append_assoc], rfl, rfl, hport,
                    huser, fun hmem => hhost (by simp [hmem]), .inr ⟨hstart, hcolon⟩⟩

/-- A destination is read back with its port, whatever was parsed. -/
theorem parseSshDestination_text (h : parseSshDestination spec = some (destination, port)) :
    parseSshDestination (destination ++ sshPortText port) = some (destination, port) ∧
      ∀ c ∈ destination, c ∈ spec := by
  rcases of_parseSshDestination h with ⟨rfl, rfl⟩ |
    ⟨user, host, portText, port', rfl, rfl, rfl, hport, huser, hat, hshape⟩
  · rw [sshPortText, List.append_nil]
    exact ⟨h, fun _ hc => hc⟩
  · have hport' : port' ≠ 0 := (parsePort_some hport).resolve_left (by decide)
    refine ⟨?_, fun c hc => List.mem_append_left _ hc⟩
    rcases hshape with ⟨inside, rfl, hinside⟩ | ⟨hstart, hcolon⟩
    · have hinside' : atSign ∉ inside := fun hmem => hat (by simp [hmem])
      exact parseSshDestination_bracketed huser hinside' hinside hport'
    · exact parseSshDestination_bare huser hat hstart hcolon hport'

theorem of_parseSsh {address : SshAddress} (h : parseSsh spec = some address) :
    ∃ text, slash ∉ text ∧ text ≠ [] ∧
      parseSshDestination text = some (address.destination, address.port) ∧
      spec.head? = text.head? := by
  have hslash : slash ∉ (splitRemote spec).1 := by
    unfold splitRemote
    cases hcut : cut slash spec with
    | none => exact cut_eq_none.mp hcut
    | some p => exact (cut_eq_some.mp hcut).2
  unfold parseSsh at h
  simp only at h
  split at h
  · cases h
  · rename_i hne
    obtain ⟨⟨destination, port⟩, hdestination, heq⟩ := Option.map_eq_some_iff.mp h
    cases heq
    refine ⟨(splitRemote spec).1, hslash, hne, hdestination, ?_⟩
    unfold splitRemote at hne ⊢
    cases hcut : cut slash spec with
    | none => rfl
    | some p =>
        rw [hcut] at hne
        obtain ⟨c, destinationText, hcons⟩ := List.exists_cons_of_ne_nil hne
        rw [(cut_eq_some.mp hcut).1]
        dsimp only at hcons
        rw [hcons]
        rfl

/-- An SSH address is read back always. -/
theorem parseSsh_text {address : SshAddress} (h : parseSsh spec = some address) :
    parseSsh address.text = some address := by
  obtain ⟨destination, port, remoteSpec⟩ := address
  obtain ⟨text, hslash, hne, hdestination, -⟩ := of_parseSsh h
  obtain ⟨hread, hsub⟩ := parseSshDestination_text hdestination
  have hclear : slash ∉ destination ++ sshPortText port := by
    have hport : slash ∉ sshPortText port := by
      cases port with
      | none => exact List.not_mem_nil
      | some port =>
          simp only [sshPortText, List.mem_cons, not_or]
          exact ⟨by decide, notMem_decimal (by decide) _⟩
    simp only [List.mem_append, not_or]
    exact ⟨fun hmem => hslash (hsub _ hmem), hport⟩
  have hsome : destination ++ sshPortText port ≠ [] := by
    intro hempty
    rw [hempty] at hread
    cases hread
  have hcut : splitRemote (SshAddress.text ⟨destination, port, remoteSpec⟩) =
      (destination ++ sshPortText port, remoteSpec) := by
    unfold splitRemote SshAddress.text
    by_cases hremote : remoteSpec = []
    · rw [if_pos hremote, List.append_nil, cut_eq_none.mpr hclear, hremote]
    · rw [if_neg hremote, cut_append hclear]
  unfold parseSsh
  rw [hcut]
  simp only [if_neg hsome, hread]
  rfl

end Ssh

/-! ## Specs -/

/-- The scheme that a target is written with. -/
def Target.scheme : Target → Scheme
  | .unix _ => .unix
  | .tcp _ => .tcp
  | .ssh _ => .ssh
  | .http _ => .http
  | .h2 _ => .h2
  | .https _ => .https
  | .https1 _ => .https1
  | .https2 _ => .https2
  | .h3wt _ => .h3wt

/-- What is written of a target after the scheme. -/
def Target.text : Target → Bytes
  | .unix path => path
  | .tcp address => address.text
  | .ssh address => address.text
  | .http address => address.text
  | .h2 address => address.text
  | .https address => address.text
  | .https1 address => address.text
  | .https2 address => address.text
  | .h3wt address => address.text

theorem splitScheme_write (target : Target) :
    splitScheme target.write = (target.scheme, target.text) := by
  cases target <;> rfl

theorem splitUnsafe_write (address : Address) :
    splitUnsafe address.write = (address.allowInsecureTcp, address.target.write) := by
  obtain ⟨allowInsecureTcp, target⟩ := address
  cases allowInsecureTcp with
  | true =>
      show splitUnsafe (unsafeTcpPrefix ++ target.write) = _
      rw [splitUnsafe, afterPrefix_append]
  | false => cases target <;> rfl

theorem parse_write (address : Address) :
    Address.parse address.write =
      (parseTarget address.target.scheme address.target.text).map fun target =>
        ⟨address.allowInsecureTcp, target⟩ := by
  rw [Address.parse, splitUnsafe_write]
  simp only [splitScheme_write]

/-- The condition on what follows the scheme. -/
def TargetWritesBack (scheme : Scheme) (spec : Bytes) : Prop :=
  match scheme with
  | .unix | .ssh => True
  | .tcp => AuthorityWritesBack spec
  | .http | .h2 => AuthorityWritesBack (authorityOf spec)
  | .https | .https1 | .https2 | .h3wt =>
    AuthorityWritesBack (authorityOf spec) ∧ question ∉ authorityOf spec

/-- The condition on a spec, with or without `unsafe+`. -/
def SpecWritesBack (spec : Bytes) : Prop :=
  TargetWritesBack (splitScheme (splitUnsafe spec).2).1 (splitScheme (splitUnsafe spec).2).2

theorem map_eq_some_map {α β : Type} {f : α → β} (hf : ∀ a b, f a = f b → a = b) {x : Option α}
    {a : α} : x.map f = some (f a) ↔ x = some a := by
  cases x with
  | none => simp
  | some b =>
      simp only [Option.map_some, Option.some.injEq]
      exact ⟨hf b a, fun h => by rw [h]⟩

theorem parseTarget_text {scheme : Scheme} {spec : Bytes} {target : Target}
    (h : parseTarget scheme spec = some target) :
    target.scheme = scheme ∧
      (parseTarget scheme target.text = some target ↔ TargetWritesBack scheme spec) := by
  cases scheme with
  | unix =>
      cases h
      exact ⟨rfl, fun _ => trivial, fun _ => rfl⟩
  | tcp =>
      obtain ⟨address, hparse, rfl⟩ := Option.map_eq_some_iff.mp h
      exact ⟨rfl, (map_eq_some_map (fun _ _ => Target.tcp.inj)).trans (parseTcp_text hparse)⟩
  | ssh =>
      obtain ⟨address, hparse, rfl⟩ := Option.map_eq_some_iff.mp h
      exact ⟨rfl, fun _ => trivial,
        fun _ => (map_eq_some_map (fun _ _ => Target.ssh.inj)).mpr (parseSsh_text hparse)⟩
  | http =>
      obtain ⟨address, hparse, rfl⟩ := Option.map_eq_some_iff.mp h
      exact ⟨rfl, (map_eq_some_map (fun _ _ => Target.http.inj)).trans (parseHttp_text hparse)⟩
  | h2 =>
      obtain ⟨address, hparse, rfl⟩ := Option.map_eq_some_iff.mp h
      exact ⟨rfl, (map_eq_some_map (fun _ _ => Target.h2.inj)).trans (parseHttp_text hparse)⟩
  | https =>
      obtain ⟨address, hparse, rfl⟩ := Option.map_eq_some_iff.mp h
      exact ⟨rfl, (map_eq_some_map (fun _ _ => Target.https.inj)).trans
        (parseSecureHttpLike_text (.inl rfl) hparse)⟩
  | https1 =>
      obtain ⟨address, hparse, rfl⟩ := Option.map_eq_some_iff.mp h
      exact ⟨rfl, (map_eq_some_map (fun _ _ => Target.https1.inj)).trans
        (parseSecureHttpLike_text (.inl rfl) hparse)⟩
  | https2 =>
      obtain ⟨address, hparse, rfl⟩ := Option.map_eq_some_iff.mp h
      exact ⟨rfl, (map_eq_some_map (fun _ _ => Target.https2.inj)).trans
        (parseSecureHttpLike_text (.inl rfl) hparse)⟩
  | h3wt =>
      obtain ⟨address, hparse, rfl⟩ := Option.map_eq_some_iff.mp h
      exact ⟨rfl, (map_eq_some_map (fun _ _ => Target.h3wt.inj)).trans
        (parseSecureHttpLike_text (.inr rfl) hparse)⟩

/-- An address that was parsed is read back from its own text exactly when the spec says its host in
a way that the writer keeps. -/
theorem address_round_trip (spec : Bytes) (address : Address)
    (h : Address.parse spec = some address) :
    Address.parse address.write = some address ↔ SpecWritesBack spec := by
  unfold Address.parse at h
  obtain ⟨target, htarget, rfl⟩ := Option.map_eq_some_iff.mp h
  obtain ⟨hscheme, hread⟩ := parseTarget_text htarget
  rw [parse_write, hscheme]
  exact (map_eq_some_map (fun _ _ heq => (Address.mk.inj heq).2)).trans hread

theorem address_round_trip_h3wt :
    ∃ address,
      Address.parse (ascii "wt://[::1]:4433/mux?sha256=ab&sni=host") = some address ∧
      (Address.parse address.write = some address ↔
        SpecWritesBack (ascii "wt://[::1]:4433/mux?sha256=ab&sni=host")) :=
  ⟨⟨false, .h3wt ⟨ascii "::1", 4433, ascii "/mux", ⟨some (ascii "ab"), some (ascii "host"), none⟩⟩⟩,
    by decide +kernel, address_round_trip _ _ (by decide +kernel)⟩

/-- An empty host in brackets is written without them, and refused; and a query before the path is
taken for a part of the host, which takes what is written after it for a longer query. -/
theorem address_lost :
    (Address.parse (ascii "tcp://[]:80")).isSome = true ∧
      ((Address.parse (ascii "tcp://[]:80")).bind fun address => Address.parse address.write) =
        none ∧
      (Address.parse (ascii "https://host?sha256=ab/rpc")).isSome = true ∧
      ((Address.parse (ascii "https://host?sha256=ab/rpc")).bind fun address =>
          Address.parse address.write) ≠ Address.parse (ascii "https://host?sha256=ab/rpc") := by
  decide +kernel

end Muxly.Resource
