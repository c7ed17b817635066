/-
# Muxly.Resource.Sharing -- which secure descriptors are rendered as specs that are read back

What a descriptor is parsed to is rendered as a transport spec, and parsed again by `Address.parse`.
The path and the trust settings of an accepted descriptor always survive; the host does exactly when
the authority says it in a way that the writers keep.
-/
import Muxly.Resource.Secure

namespace Muxly.Resource.Secure

open Muxly.Core Muxly.Data
open Muxly.Daemon (isCanonicalDocumentPath rootDocumentPath)

/-! ## Hosts -/

section Hosts

variable {authority host : Bytes} {port : UInt16}

/-- The two ways in which an authority gives a host and a port. -/
theorem of_splitHostPort (h : splitHostPort authority = some (host, port)) :
    (∃ after, authority = openBracket :: (host ++ closeBracket :: after) ∧ closeBracket ∉ host ∧
      (after = [] ∨ ∃ portText, after = colon :: portText ∧ parseU16 portText = some port)) ∨
    (authority ≠ [] ∧ authority.head? ≠ some openBracket ∧ colon ∉ host ∧
      (authority = host ∨
        ∃ portText, authority = host ++ colon :: portText ∧ parseU16 portText = some port)) := by
  cases authority with
  | nil => cases h
  | cons c rest =>
      rw [splitHostPort] at h
      by_cases hc : c = openBracket
      · left
        subst hc
        rw [if_pos rfl] at h
        cases hcut : cut closeBracket rest with
        | none =>
            rw [hcut] at h
            cases h
        | some p =>
            obtain ⟨inside, after⟩ := p
            obtain ⟨rfl, hinside⟩ := cut_eq_some.mp hcut
            rw [hcut] at h
            cases after with
            | nil =>
                cases h
                exact ⟨[], rfl, hinside, .inl rfl⟩
            | cons d portText =>
                simp only [ne_eq, ite_not] at h
                split at h
                · rename_i hd
                  obtain ⟨port', hport, heq⟩ := Option.map_eq_some_iff.mp h
                  cases heq
                  exact ⟨_, rfl, hinside, .inr ⟨portText, by rw [hd], hport⟩⟩
                · cases h
      · right
        rw [if_neg hc] at h
        refine ⟨List.cons_ne_nil _ _, by simpa using hc, ?_⟩
        cases hcut : cut colon (c :: rest) with
        | none =>
            rw [hcut] at h
            cases h
            exact ⟨cut_eq_none.mp hcut, .inl rfl⟩
        | some p =>
            obtain ⟨before, portText⟩ := p
            obtain ⟨heq, hbefore⟩ := cut_eq_some.mp hcut
            rw [hcut] at h
            simp only at h
            split at h
            · cases h
            · obtain ⟨port', hport, heq'⟩ := Option.map_eq_some_iff.mp h
              cases heq'
              exact ⟨hbefore, .inr ⟨portText, heq, hport⟩⟩

theorem mem_of_splitHostPort (h : splitHostPort authority = some (host, port)) :
    ∀ c ∈ host, c ∈ authority := by
  intro c hc
  rcases of_splitHostPort h with ⟨after, rfl, -⟩ | ⟨-, -, -, rfl | ⟨portText, rfl, -⟩⟩
  · simp [hc]
  · exact hc
  · simp [hc]

theorem parsePort_of_parseU16 {portText : Bytes} (h : parseU16 portText = some port) :
    parsePort portText true = some port := by
  rw [parsePort, h, Option.filter_some, if_pos (by simp)]

theorem question_mem_iff (h : splitHostPort authority = some (host, port)) :
    question ∈ host ↔ question ∈ authority := by
  refine ⟨mem_of_splitHostPort h question, fun hmem => ?_⟩
  rcases of_splitHostPort h with ⟨after, rfl, -, hafter⟩ | ⟨-, -, -, rfl | ⟨portText, rfl, hport⟩⟩
  · have hnot : question ∉ closeBracket :: after := by
      rcases hafter with rfl | ⟨portText, rfl, hport⟩
      · decide
      · intro hquestion
        rcases List.mem_cons.mp hquestion with heq | hquestion
        · exact absurd heq (by decide)
        · exact question_notMem_port (parsePort_of_parseU16 hport) hquestion
    rcases List.mem_cons.mp hmem with heq | hmem
    · exact absurd heq (by decide)
    · exact (List.mem_append.mp hmem).resolve_right hnot
  · exact hmem
  · exact (List.mem_append.mp hmem).resolve_right (question_notMem_port (parsePort_of_parseU16 hport))

/-- An authority that gives a host which is not empty, has no question mark, and, where a transport
spec is rendered, is read back from it. -/
def AuthorityKept (authority : Bytes) (rendered : Prop) : Prop :=
  question ∉ authority ∧ authority.head? ≠ some colon ∧
    ∀ inside after, authority = openBracket :: (inside ++ closeBracket :: after) →
      closeBracket ∉ inside →
      inside ≠ [] ∧ (rendered → colon ∈ inside ∨ inside.head? ≠ some openBracket)

theorem authorityKept_iff {rendered : Prop} (h : splitHostPort authority = some (host, port)) :
    AuthorityKept authority rendered ↔
      host ≠ [] ∧ question ∉ host ∧ (rendered → HostWritesBack host) := by
  unfold AuthorityKept
  rw [← question_mem_iff h]
  rcases of_splitHostPort h with ⟨after, rfl, hclose, -⟩ | ⟨hne, hhead, hcolon, hplain⟩
  · have hwrites : HostWritesBack host ↔
        colon ∈ host ∨ host ≠ [] ∧ host.head? ≠ some openBracket := by
      unfold HostWritesBack
      by_cases hcolon : colon ∈ host
      · simp [hcolon, hclose]
      · simp [hcolon]
    constructor
    · rintro ⟨hquestion, -, hinside⟩
      obtain ⟨hne, hrendered⟩ := hinside host after rfl hclose
      refine ⟨hne, hquestion, fun hr => hwrites.mpr ?_⟩
      exact (hrendered hr).imp_right fun hhead => ⟨hne, hhead⟩
    · rintro ⟨hne, hquestion, hrendered⟩
      have hbracket : some openBracket ≠ some colon := by decide
      refine ⟨hquestion, hbracket, fun inside after' heq hinside => ?_⟩
      have hcut : cut closeBracket (inside ++ closeBracket :: after') = some (inside, after') :=
        cut_append hinside
      rw [← (List.cons.inj heq).2, cut_append hclose] at hcut
      cases hcut
      exact ⟨hne, fun hr => (hwrites.mp (hrendered hr)).imp_right And.right⟩
  · have hfirst : authority.head? = some colon ↔ host = [] := by
      rcases hplain with rfl | ⟨portText, rfl, -⟩
      · obtain ⟨c, rest, rfl⟩ := List.exists_cons_of_ne_nil hne
        simp only [List.head?_cons, Option.some.injEq, List.cons_ne_nil, iff_false]
        rintro rfl
        exact hcolon (List.mem_cons_self ..)
      · cases host with
        | nil => simp
        | cons c host =>
            simp only [List.cons_append, List.head?_cons, Option.some.injEq, List.cons_ne_nil,
              iff_false]
            rintro rfl
            exact hcolon (List.mem_cons_self ..)
    have hwrites : host ≠ [] → HostWritesBack host := by
      intro hhost
      unfold HostWritesBack
      rw [if_neg hcolon]
      refine ⟨hhost, ?_⟩
      rcases hplain with rfl | ⟨portText, rfl, -⟩
      · exact hhead
      · obtain ⟨c, rest, rfl⟩ := List.exists_cons_of_ne_nil hhost
        exact hhead
    constructor
    · rintro ⟨hquestion, hcolonHead, -⟩
      have hhost : host ≠ [] := fun hempty => hcolonHead (hfirst.mpr hempty)
      exact ⟨hhost, hquestion, fun _ => hwrites hhost⟩
    · rintro ⟨hhost, hquestion, -⟩
      refine ⟨hquestion, fun hcolonHead => hhost (hfirst.mp hcolonHead), ?_⟩
      rintro inside after rfl
      exact absurd rfl hhead

end Hosts

/-! ## What is accepted -/

section Accepted

variable {value query httpsPath : Bytes} {trust trust' : Trust}

theorem of_normalizeHttpsPath (h : normalizeHttpsPath value = some httpsPath) :
    (value = [] ∧ httpsPath = defaultHttpsPath) ∨
      (httpsPath = value ∧ value.head? = some slash) := by
  unfold normalizeHttpsPath at h
  by_cases hempty : value = []
  · rw [if_pos hempty] at h
    exact .inl ⟨hempty, (Option.some.inj h).symm⟩
  · right
    rw [if_neg hempty] at h
    split at h
    · cases h
    · rename_i hhead
      split at h
      · cases h
      · split at h
        · cases h
        · exact ⟨(Option.some.inj h).symm, of_not_not hhead⟩

/-- An entry that a descriptor may have is read by the transport parser as by the descriptor parser;
the file of the CAs stays as it is. -/
theorem entry_of_shareEntry {entry : Bytes} (h : shareEntry trust entry = some trust') :
    trust.entry entry = some trust' ∧ trust'.caFile = trust.caFile := by
  unfold shareEntry at h
  unfold Trust.entry
  by_cases hempty : entry = []
  · rw [if_pos hempty] at h ⊢
    cases h
    exact ⟨rfl, rfl⟩
  · rw [if_neg hempty] at h ⊢
    cases hsha256 : afterPrefix (ascii "sha256=") entry with
    | some value =>
        rw [hsha256] at h
        obtain ⟨hnone, heq⟩ := ite_none_eq_some.mp h
        exact ⟨h, by rw [← heq]⟩
    | none =>
        rw [hsha256] at h
        cases hsni : afterPrefix (ascii "sni=") entry with
        | some value =>
            rw [hsni] at h
            obtain ⟨hnone, heq⟩ := ite_none_eq_some.mp h
            exact ⟨h, by rw [← heq]⟩
        | none =>
            rw [hsni] at h
            cases h

theorem foldlM_of_shareEntry (pieces : List Bytes)
    (h : pieces.foldlM shareEntry trust = some trust') :
    pieces.foldlM Trust.entry trust = some trust' ∧ trust'.caFile = trust.caFile := by
  induction pieces generalizing trust with
  | nil =>
      cases h
      exact ⟨rfl, rfl⟩
  | cons piece pieces ih =>
      obtain ⟨next, hnext, hrest⟩ := Option.bind_eq_some_iff.mp h
      obtain ⟨hentry, hcaFile⟩ := entry_of_shareEntry hnext
      obtain ⟨hpieces, hcaFile'⟩ := ih hrest
      exact ⟨Option.bind_eq_some_iff.mpr ⟨next, hentry, hpieces⟩, hcaFile'.trans hcaFile⟩

/-- What `parseHttpsPathAndTrust` accepts: a path up to the `?`, or the default in its place, and the
settings of what follows it, as the transport parser finds them. -/
theorem of_parseHttpsPathAndTrust (h : parseHttpsPathAndTrust value = some (httpsPath, trust)) :
    ∃ pathText query, normalizeHttpsPath pathText = some httpsPath ∧ question ∉ pathText ∧
      (value = pathText ∧ query = [] ∨ value = pathText ++ question :: query) ∧
      parseTrust query = some trust ∧ trust.caFile = none := by
  have hquery {query : Bytes}
      (h : (if query = [] then some ⟨none, none, none⟩
        else (query.splitOn ampersand).foldlM shareEntry ⟨none, none, none⟩) = some trust) :
      parseTrust query = some trust ∧ trust.caFile = none := by
    unfold parseTrust
    by_cases hempty : query = []
    · rw [if_pos hempty] at h ⊢
      cases h
      exact ⟨rfl, rfl⟩
    · rw [if_neg hempty] at h ⊢
      exact foldlM_of_shareEntry _ h
  unfold parseHttpsPathAndTrust at h
  cases hcut : cut question value with
  | none =>
      rw [hcut] at h
      obtain ⟨path, hpath, hrest⟩ := Option.bind_eq_some_iff.mp h
      obtain ⟨settings, hsettings, heq⟩ := Option.map_eq_some_iff.mp hrest
      cases heq
      obtain ⟨htrust, hcaFile⟩ := hquery hsettings
      exact ⟨value, [], hpath, cut_eq_none.mp hcut, .inl ⟨rfl, rfl⟩, htrust, hcaFile⟩
  | some p =>
      obtain ⟨pathText, query⟩ := p
      rw [hcut] at h
      obtain ⟨path, hpath, hrest⟩ := Option.bind_eq_some_iff.mp h
      obtain ⟨settings, hsettings, heq⟩ := Option.map_eq_some_iff.mp hrest
      cases heq
      obtain ⟨htrust, hcaFile⟩ := hquery hsettings
      obtain ⟨hvalue, hnot⟩ := cut_eq_some.mp hcut
      exact ⟨pathText, query, hpath, hnot, .inr hvalue, htrust, hcaFile⟩

/-- The path of an accepted descriptor begins with a slash and has no question mark. -/
theorem httpsPath_ok (h : parseHttpsPathAndTrust value = some (httpsPath, trust)) :
    (∃ rest, httpsPath = slash :: rest) ∧ question ∉ httpsPath := by
  obtain ⟨pathText, query, hpath, hnot, -⟩ := of_parseHttpsPathAndTrust h
  rcases of_normalizeHttpsPath hpath with ⟨-, rfl⟩ | ⟨rfl, hhead⟩
  · exact ⟨⟨ascii "rpc", by decide⟩, by decide⟩
  · cases httpsPath with
    | nil => cases hhead
    | cons c rest =>
        obtain rfl : c = slash := Option.some.inj hhead
        exact ⟨⟨rest, rfl⟩, hnot⟩

end Accepted

section Parsed

variable {payload : Bytes} {pieces : Pieces} {parsed : Parsed}

/-- What an accepted descriptor is made of. -/
structure Accepted (pieces : Pieces) (parsed : Parsed) : Prop where
  code : codeOf pieces.codeText = some parsed.transportCode
  authority : splitHostPort pieces.authority = some (parsed.host, parsed.port)
  path : parseHttpsPathAndTrust pieces.rawPath = some (parsed.httpsPath, parsed.trust)
  document : documentPathOf pieces.documentText = some parsed.documentPath
  selector : parsed.selector = pieces.selector
  caFile : parsed.caFile = none

theorem of_parsePieces (h : parsePieces pieces = some parsed) : Accepted pieces parsed := by
  obtain ⟨transportCode, hcode, hrest⟩ := Option.bind_eq_some_iff.mp h
  obtain ⟨⟨host, port⟩, hhost, hrest⟩ := Option.bind_eq_some_iff.mp hrest
  obtain ⟨⟨httpsPath, trust⟩, hpath, hrest⟩ := Option.bind_eq_some_iff.mp hrest
  obtain ⟨documentPath, hdocument, heq⟩ := Option.bind_eq_some_iff.mp hrest
  cases heq
  obtain ⟨certificateHash, serverName, caFile⟩ := trust
  obtain ⟨-, -, -, -, -, -, hcaFile⟩ := of_parseHttpsPathAndTrust hpath
  obtain rfl : caFile = none := hcaFile
  exact ⟨hcode, hhost, hpath, hdocument, rfl, rfl⟩

theorem of_parse {text : Bytes} (h : parse text = some parsed) :
    ∃ payload, text = ascii "trds://" ++ payload ∧ Accepted (splitDescriptor payload) parsed := by
  obtain ⟨payload, hpayload, hparsed⟩ := Option.bind_eq_some_iff.mp h
  exact ⟨payload, afterPrefix_eq_some hpayload, of_parsePieces hparsed⟩

theorem slash_notMem_cutPath (text : Bytes) : slash ∉ (cutPath text).1 := by
  unfold cutPath
  cases hcut : cut slash text with
  | none => exact cut_eq_none.mp hcut
  | some p => exact (cut_eq_some.mp hcut).2

theorem slash_notMem_authority (payload : Bytes) :
    slash ∉ (splitDescriptor payload).authority := slash_notMem_cutPath _

end Parsed

/-! ## Rendering -/

/-- The secure address of a target. -/
def secureOf : Target → Option SecureHttpAddress
  | .https address | .https1 address | .https2 address | .h3wt address => some address
  | .unix _ | .tcp _ | .ssh _ | .http _ | .h2 _ => none

/-- A transport spec that is accepted with the host, port, path and trust settings of the
descriptor. -/
def ReadBack (parsed : Parsed) (spec : Bytes) : Prop :=
  ∃ address secure, Address.parse spec = some address ∧ secureOf address.target = some secure ∧
    secure.host = parsed.host ∧ secure.port = parsed.port ∧ secure.path = parsed.httpsPath ∧
    secure.trust.certificateHash = parsed.certificateHash ∧
    secure.trust.serverName = parsed.serverName

section Rendering

variable {parsed : Parsed} {spec : Bytes} {target : Target}

/-- Every spec is what the writer puts for a secure target with the parts of the descriptor. -/
theorem of_mem_renderedSpecs (hcaFile : parsed.caFile = none) (h : spec ∈ renderedSpecs parsed) :
    ∃ target, secureOf target = some (buildAddressFromTrds parsed) ∧
      spec = Address.write ⟨false, target⟩ := by
  obtain ⟨transportCode, host, port, httpsPath, documentPath, selector, certificateHash, serverName,
    caFile⟩ := parsed
  obtain rfl : caFile = none := hcaFile
  rcases List.mem_append.mp h with h | h
  · have h := Option.mem_toList.mp h
    cases transportCode with
    | auto => cases h
    | ht3 => cases h
    | wtp =>
        cases h
        exact ⟨.h3wt (buildAddressFromTrds _), rfl, by
          simp [Address.write, Target.write, SecureHttpAddress.text, buildAddressFromTrds,
            Parsed.trust, ascii]⟩
    | htp =>
        cases h
        exact ⟨.https (buildAddressFromTrds _), rfl, by
          simp [Address.write, Target.write, SecureHttpAddress.text, buildAddressFromTrds,
            Parsed.trust, ascii]⟩
    | ht2 =>
        cases h
        exact ⟨.https2 (buildAddressFromTrds _), rfl, by
          simp [Address.write, Target.write, SecureHttpAddress.text, buildAddressFromTrds,
            Parsed.trust, ascii]⟩
    | ht1 =>
        cases h
        exact ⟨.https1 (buildAddressFromTrds _), rfl, by
          simp [Address.write, Target.write, SecureHttpAddress.text, buildAddressFromTrds,
            Parsed.trust, ascii]⟩
  · obtain ⟨target, htarget, rfl⟩ := List.mem_map.mp h
    refine ⟨target, ?_, rfl⟩
    cases transportCode <;> simp [clientTargets] at htarget
    case auto => rcases htarget with rfl | rfl <;> rfl
    all_goals
      subst htarget
      rfl

/-- Only a descriptor that asks for HTTP/3 is not rendered. -/
theorem renderedSpecs_ne_nil : (∃ spec, spec ∈ renderedSpecs parsed) ↔
    parsed.transportCode ≠ .ht3 := by
  unfold renderedSpecs clientTargets parsedTransportSpec
  cases parsed.transportCode <;> simp

/-- What is read of the text of a secure target. -/
theorem parseTarget_secure {address : SecureHttpAddress} (h : secureOf target = some address) :
    ∃ (defaultPath : Bytes) (form : SecureHttpAddress → Target),
      (∀ address, secureOf (form address) = some address) ∧
      parseTarget target.scheme target.text =
        (parseSecureHttpLike address.text 443 defaultPath).map form := by
  cases target with
  | unix | tcp | ssh | http | h2 => cases h
  | https => cases h; exact ⟨rpcDefaultPath, .https, fun _ => rfl, rfl⟩
  | https1 => cases h; exact ⟨rpcDefaultPath, .https1, fun _ => rfl, rfl⟩
  | https2 => cases h; exact ⟨rpcDefaultPath, .https2, fun _ => rfl, rfl⟩
  | h3wt => cases h; exact ⟨h3wtDefaultPath, .h3wt, fun _ => rfl, rfl⟩

/-- A spec is read back exactly if its host is. -/
theorem readBack_write {rest : Bytes} (htarget : secureOf target = some (buildAddressFromTrds parsed))
    (hpath : parsed.httpsPath = slash :: rest) (hclear : question ∉ parsed.httpsPath)
    (hentries : ∀ entry ∈ (buildAddressFromTrds parsed).trust.entries, ampersand ∉ entry)
    (hslash : slash ∉ parsed.host) (hquestion : question ∉ parsed.host) :
    ReadBack parsed (Address.write ⟨false, target⟩) ↔ HostWritesBack parsed.host := by
  obtain ⟨defaultPath, form, hform, hparse⟩ := parseTarget_secure htarget
  rw [@parseSecureHttpLike_text_eq defaultPath 443 (buildAddressFromTrds parsed) rest hpath hclear
    hentries hslash hquestion, Option.map_map] at hparse
  rw [← @splitHostPort_hostPortText parsed.host (some 443) true parsed.port (.inl rfl)]
  unfold ReadBack
  rw [parse_write, hparse]
  constructor
  · rintro ⟨address, secure, haddress, hsecure, hhost, hport, -⟩
    obtain ⟨target', htarget', rfl⟩ := Option.map_eq_some_iff.mp haddress
    obtain ⟨⟨host, port⟩, hread, rfl⟩ := Option.map_eq_some_iff.mp htarget'
    cases (hform _).symm.trans hsecure
    have hsame : some (host, port) = some (parsed.host, parsed.port) :=
      congrArg some (Prod.ext hhost hport)
    rw [← hsame]
    exact hread
  · intro hread
    refine ⟨⟨false, form (buildAddressFromTrds parsed)⟩, buildAddressFromTrds parsed, ?_, hform _,
      rfl, rfl, rfl, rfl, rfl⟩
    exact Option.map_eq_some_iff.mpr ⟨_, Option.map_eq_some_iff.mpr ⟨_, hread, rfl⟩, rfl⟩

/-- The default code is no code, and only `ht3` is HTTP/3. -/
theorem parse_ht3 {text : Bytes} {code : SecureTransportCode}
    (h : SecureTransportCode.parse text = some code) : code = .ht3 ↔ text = ascii "ht3" := by
  unfold SecureTransportCode.parse at h
  constructor
  · rintro rfl
    by_contra hne
    simp only [if_neg hne] at h
    split at h
    · cases h
    · split at h
      · cases h
      · split at h
        · cases h
        · split at h
          · cases h
          · split at h <;> cases h
  · rintro rfl
    exact (Option.some.inj (h.symm.trans (by decide)))

theorem transportCode_ne_ht3 {pieces : Pieces} (h : Accepted pieces parsed) :
    parsed.transportCode ≠ .ht3 ↔ pieces.codeText ≠ some (ascii "ht3") := by
  have hcode := h.code
  cases htext : pieces.codeText with
  | none =>
      rw [htext] at hcode
      simp [← Option.some.inj hcode]
  | some text =>
      rw [htext] at hcode
      simp [parse_ht3 hcode]

/-- The host of an accepted descriptor is neither empty nor has it a question mark, and every spec
that it is rendered as is read back, exactly for such an authority. -/
theorem rendered_iff {payload : Bytes} (h : Accepted (splitDescriptor payload) parsed) :
    (parsed.host ≠ [] ∧ question ∉ parsed.host ∧
        ∀ spec ∈ renderedSpecs parsed, ReadBack parsed spec) ↔
      AuthorityKept (splitDescriptor payload).authority
        ((splitDescriptor payload).codeText ≠ some (ascii "ht3")) := by
  obtain ⟨⟨rest, hpath⟩, hclear⟩ := httpsPath_ok h.path
  have hslash : slash ∉ parsed.host := fun hmem =>
    slash_notMem_authority payload (mem_of_splitHostPort h.authority slash hmem)
  have hentries : ∀ entry ∈ (buildAddressFromTrds parsed).trust.entries, ampersand ∉ entry := by
    obtain ⟨-, query, -, -, -, htrust, -⟩ := of_parseHttpsPathAndTrust h.path
    have htrust' : parsed.trust = (buildAddressFromTrds parsed).trust := by
      rw [Parsed.trust, h.caFile]
      rfl
    rw [← htrust']
    exact ampersand_notMem_parseTrust htrust
  rw [authorityKept_iff h.authority, ← transportCode_ne_ht3 h, ← renderedSpecs_ne_nil]
  refine and_congr_right fun _ => and_congr_right fun hquestion => ?_
  have hread {spec : Bytes} (hspec : spec ∈ renderedSpecs parsed) :
      ReadBack parsed spec ↔ HostWritesBack parsed.host := by
    obtain ⟨target, htarget, rfl⟩ := of_mem_renderedSpecs h.caFile hspec
    exact readBack_write htarget hpath hclear hentries hslash hquestion
  constructor
  · rintro hall ⟨spec, hspec⟩
    exact (hread hspec).mp (hall spec hspec)
  · intro hhost spec hspec
    exact (hread hspec).mpr (hhost ⟨spec, hspec⟩)

end Rendering

end Muxly.Resource.Secure
