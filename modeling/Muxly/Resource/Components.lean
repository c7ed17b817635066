/-
# Muxly.Resource.Components -- secure descriptors put together from their parts

A host, a port, a path, trust settings, a document path and a selector are put into one text, and
`parse` of `trds.zig` takes them apart again. The separators of one part may lie in another; which of
them move a cut is said part by part.
-/
import Muxly.Resource.DocumentPaths
import Muxly.Resource.Sharing

namespace Muxly.Resource.Secure

open Muxly.Core Muxly.Data
open Muxly.Daemon (isCanonicalDocumentPath rootDocumentPath)

/-- `'='`. -/
def equals : UInt8 := 61

/-! ## The parts and their text -/

/-- The parts of a descriptor. A path begins with a slash; a host is not empty and has none of the
reserved characters. -/
structure Components where
  code : Option Bytes
  host : Bytes
  port : Option UInt16
  path : Option Bytes
  certificateHash : Option Bytes
  serverName : Option Bytes
  documentPath : Option Bytes
  selector : Option Bytes
  known : ∀ name, code = some name → (SecureTransportCode.parse name).isSome = true
  someHost : host ≠ []
  plainHost : ∀ c ∈ host, c ∉ ascii "#|/?[]"
  pathStart : ∀ text, path = some text → text.head? = some slash
  canonical : ∀ text, documentPath = some text → isCanonicalDocumentPath text = true

namespace Components

/-- The host; one with a colon stands in brackets. -/
def hostText (parts : Components) : Bytes :=
  if colon ∈ parts.host then openBracket :: (parts.host ++ [closeBracket]) else parts.host

/-- What follows the host. -/
def portText (parts : Components) : Bytes :=
  (parts.port.map fun port => colon :: decimal port.toNat).getD []

/-- The host and the port. -/
def authority (parts : Components) : Bytes := parts.hostText ++ parts.portText

/-- The transport code, if there is one, and the authority. -/
def server (parts : Components) : Bytes :=
  (parts.code.map (· ++ [pipe])).getD [] ++ parts.authority

/-- The trust settings. -/
def trust (parts : Components) : Trust := ⟨parts.certificateHash, parts.serverName, none⟩

/-- The path and the query. -/
def pathText (parts : Components) : Bytes := parts.path.getD [] ++ queryText parts.trust.entries

/-- What stands before the document path. -/
def body (parts : Components) : Bytes := parts.server ++ parts.pathText

/-- The document path, after two colons. -/
def documentText (parts : Components) : Bytes :=
  (parts.documentPath.map (ascii "::" ++ ·)).getD []

/-- The selector, after its hash. -/
def selectorText (parts : Components) : Bytes := (parts.selector.map (hash :: ·)).getD []

/-- The descriptor after its scheme. -/
def payload (parts : Components) : Bytes :=
  parts.body ++ parts.documentText ++ parts.selectorText

/-- The descriptor. -/
def text (parts : Components) : Bytes := ascii "trds://" ++ parts.payload

/-- What a reader has to find in the descriptor: the parts, and the defaults of those that are left
out. -/
def expected (parts : Components) : Parsed where
  transportCode := (parts.code.bind SecureTransportCode.parse).getD .auto
  host := parts.host
  port := parts.port.getD defaultHttpsPort
  httpsPath := parts.path.getD defaultHttpsPath
  documentPath := parts.documentPath.getD rootDocumentPath
  selector := parts.selector
  certificateHash := parts.certificateHash
  serverName := parts.serverName
  caFile := none

/-- The values of the trust settings. -/
def values (parts : Components) : List Bytes :=
  parts.certificateHash.toList ++ parts.serverName.toList

/-- Trust settings follow a path, which is as the parser leaves it; no separator lies in a part that
it does not end, and no pipe anywhere without a transport code. -/
structure Recoverable (parts : Components) : Prop where
  afterPath : parts.path = none → parts.values = []
  normal : ∀ text, parts.path = some text → normalizeHttpsPath text = some text ∧ question ∉ text
  values : ∀ value ∈ parts.values, ampersand ∉ value
  between : ∀ part ∈ parts.path.toList ++ parts.values,
    hash ∉ part ∧ ¬absoluteDocumentSeparator <:+: part ∧ (parts.code = none → pipe ∉ part)
  document : ∀ text, parts.documentPath = some text → hash ∉ text

/-! ## The authority -/

variable {parts : Components}

/-- What an authority is made of. -/
theorem mem_authority {c : UInt8} (h : c ∈ parts.authority) :
    c ∈ parts.host ∨ c = openBracket ∨ c = closeBracket ∨ c = colon ∨ isDigit c = true := by
  rcases List.mem_append.mp h with h | h
  · unfold hostText at h
    split at h
    · simp only [List.mem_cons, List.mem_append, List.not_mem_nil, or_false] at h
      tauto
    · exact .inl h
  · unfold portText at h
    cases hport : parts.port with
    | none =>
        rw [hport] at h
        cases h
    | some port =>
        rw [hport] at h
        rcases List.mem_cons.mp h with h | h
        · exact .inr (.inr (.inr (.inl h)))
        · exact .inr (.inr (.inr (.inr (mem_decimal h).1)))

/-- No separator lies in the authority. -/
theorem notMem_authority {c : UInt8} (hc : c ∈ ascii "#|/?") : c ∉ parts.authority := by
  have hother : ∀ c ∈ ascii "#|/?", c ∈ ascii "#|/?[]" ∧ c ≠ openBracket ∧ c ≠ closeBracket ∧
      c ≠ colon ∧ isDigit c ≠ true := by decide +kernel
  obtain ⟨hreserved, hopen, hclose, hcolon, hdigit⟩ := hother c hc
  intro hmem
  rcases mem_authority hmem with hhost | heq | heq | heq | hd
  · exact parts.plainHost c hhost hreserved
  · exact hopen heq
  · exact hclose heq
  · exact hcolon heq
  · exact hdigit hd

/-- The host and the port are found in their text. -/
theorem splitHostPort_authority :
    splitHostPort parts.authority = some (parts.host, parts.port.getD defaultHttpsPort) := by
  have hclose : closeBracket ∉ parts.host := fun hmem =>
    parts.plainHost closeBracket hmem (by decide)
  unfold authority hostText portText
  by_cases hcolon : colon ∈ parts.host
  · rw [if_pos hcolon]
    cases parts.port with
    | none =>
        simp only [Option.map_none, Option.getD_none, List.append_nil]
        rw [splitHostPort, if_pos rfl, cut_append hclose]
    | some port =>
        simp only [Option.map_some, Option.getD_some, List.cons_append, List.append_assoc,
          List.nil_append]
        rw [splitHostPort, if_pos rfl, cut_append hclose]
        simp [parseU16_decimal]
  · rw [if_neg hcolon]
    obtain ⟨c, rest, hhost⟩ := List.exists_cons_of_ne_nil parts.someHost
    have hc : c ≠ openBracket := by
      rintro rfl
      exact parts.plainHost openBracket (hhost ▸ List.mem_cons_self ..) (by decide)
    cases parts.port with
    | none =>
        simp only [Option.map_none, Option.getD_none, List.append_nil]
        rw [hhost] at hcolon ⊢
        rw [splitHostPort, if_neg hc, cut_eq_none.mpr hcolon]
    | some port =>
        simp only [Option.map_some, Option.getD_some]
        have hcut : cut colon (parts.host ++ colon :: decimal port.toNat) =
            some (parts.host, decimal port.toNat) := cut_append hcolon
        rw [hhost, List.cons_append] at hcut ⊢
        rw [splitHostPort, if_neg hc, hcut]
        simp [parseU16_decimal, colon_notMem_decimal]

/-- The authority ends with a byte that is neither a colon nor a slash. -/
theorem authority_eq_append : ∃ front last, parts.authority = front ++ [last] ∧
    last ∉ absoluteDocumentSeparator := by
  have hend (front back : Bytes) (hback : back ≠ [])
      (hfree : ∀ c ∈ back, c ∉ absoluteDocumentSeparator) :
      ∃ front' last, front ++ back = front' ++ [last] ∧ last ∉ absoluteDocumentSeparator := by
    refine ⟨front ++ back.dropLast, back.getLast hback, ?_, hfree _ (List.getLast_mem hback)⟩
    rw [List.append_assoc, List.dropLast_append_getLast hback]
  have hdigit {c : UInt8} (hc : isDigit c = true) : c ∉ absoluteDocumentSeparator := by
    have hnone : ∀ c ∈ absoluteDocumentSeparator, isDigit c ≠ true := by decide +kernel
    exact fun hmem => hnone c hmem hc
  unfold authority portText
  cases parts.port with
  | some port =>
      have htext : parts.hostText ++ colon :: decimal port.toNat =
          (parts.hostText ++ [colon]) ++ decimal port.toNat := by simp
      simp only [Option.map_some, Option.getD_some, htext]
      have hne : decimal port.toNat ≠ [] := by
        obtain ⟨c, rest, heq, -⟩ := decimal_cons port.toNat
        rw [heq]
        exact List.cons_ne_nil _ _
      exact hend _ _ hne fun c hc => hdigit (mem_decimal hc).1
  | none =>
      simp only [Option.map_none, Option.getD_none, List.append_nil]
      unfold hostText
      split
      · exact ⟨openBracket :: parts.host, closeBracket, by simp, by decide⟩
      · rename_i hcolon
        rw [← List.nil_append parts.host]
        refine hend _ _ parts.someHost fun c hc hmem => ?_
        have hslash : slash ∉ parts.host := fun hmem => parts.plainHost slash hmem (by decide)
        rcases List.mem_cons.mp hmem with rfl | hmem
        · exact hcolon hc
        · rcases List.mem_cons.mp hmem with rfl | hmem
          · exact hcolon hc
          · rw [List.mem_singleton.mp hmem] at hc
            exact hslash hc

/-! ## The path and the query -/

/-- A separator that no punctuation of a query takes part in. -/
def Foreign (sep : Bytes) : Prop :=
  question ∉ sep ∧ ampersand ∉ sep ∧ equals ∉ sep ∧ ¬sep <:+: ascii "sha256" ∧
    ¬sep <:+: ascii "sni"

theorem infix_queryText {sep text : Bytes} {entries : List Bytes} (hsep : Foreign sep)
    (h : sep <:+: text ++ queryText entries) :
    sep <:+: text ∨ ∃ entry ∈ entries, sep <:+: entry := by
  have hlist (entries : List Bytes) (h : sep <:+: [ampersand].intercalate entries) :
      sep = [] ∨ ∃ entry ∈ entries, sep <:+: entry := by
    induction entries with
    | nil => exact .inl (List.infix_nil.mp h)
    | cons entry entries ih =>
        cases entries with
        | nil => exact .inr ⟨entry, List.mem_cons_self .., by simpa using h⟩
        | cons next entries =>
            rw [List.intercalate_cons_cons, List.append_assoc, List.singleton_append] at h
            rcases infix_append_cons hsep.2.1 h with h | h
            · exact .inr ⟨entry, List.mem_cons_self .., h⟩
            · exact (ih h).imp_right fun ⟨entry, hmem, hentry⟩ =>
                ⟨entry, List.mem_cons_of_mem _ hmem, hentry⟩
  cases entries with
  | nil => exact .inl (by simpa [queryText] using h)
  | cons entry entries =>
      rcases infix_append_cons hsep.1 h with h | h
      · exact .inl h
      · rcases hlist _ h with rfl | hentry
        · exact .inl List.nil_infix
        · exact .inr hentry

/-- An entry is the name of a setting and one of the values. -/
theorem mem_entries {entry : Bytes} (h : entry ∈ parts.trust.entries) :
    ∃ name value, (name = ascii "sha256" ∨ name = ascii "sni") ∧ value ∈ parts.values ∧
      entry = name ++ equals :: value := by
  have hsha256 : ascii "sha256=" = ascii "sha256" ++ [equals] := rfl
  have hsni : ascii "sni=" = ascii "sni" ++ [equals] := rfl
  rcases List.mem_append.mp h with h | h
  · rcases List.mem_append.mp h with h | h
    · obtain ⟨value, hvalue, rfl⟩ := Option.map_eq_some_iff.mp (Option.mem_toList.mp h)
      refine ⟨ascii "sha256", value, .inl rfl, ?_, by simp [hsha256]⟩
      exact List.mem_append_left _ (Option.mem_toList.mpr hvalue)
    · obtain ⟨value, hvalue, rfl⟩ := Option.map_eq_some_iff.mp (Option.mem_toList.mp h)
      refine ⟨ascii "sni", value, .inr rfl, ?_, by simp [hsni]⟩
      exact List.mem_append_right _ (Option.mem_toList.mpr hvalue)
  · cases h

/-- What lies in the path and the query lies in one of their parts. -/
theorem infix_pathText {sep : Bytes} (hsep : Foreign sep) (h : sep <:+: parts.pathText) :
    ∃ part ∈ parts.path.toList ++ parts.values, sep <:+: part := by
  have hne : sep ≠ [] := by
    rintro rfl
    exact hsep.2.2.2.1 List.nil_infix
  rcases infix_queryText hsep h with h | ⟨entry, hentry, h⟩
  · cases hpath : parts.path with
    | none =>
        rw [hpath] at h
        exact absurd (List.infix_nil.mp h) hne
    | some path =>
        rw [hpath] at h
        exact ⟨path, by simp, h⟩
  · obtain ⟨name, value, hname, hvalue, rfl⟩ := mem_entries hentry
    have hnot : ¬sep <:+: name := by
      rcases hname with rfl | rfl
      · exact hsep.2.2.2.1
      · exact hsep.2.2.2.2
    exact ⟨value, List.mem_append_right _ hvalue,
      (infix_append_cons hsep.2.2.1 h).resolve_left hnot⟩

theorem exists_entry {value : Bytes} (h : value ∈ parts.values) :
    ∃ front, front ++ value ∈ parts.trust.entries := by
  unfold trust Trust.entries
  rcases List.mem_append.mp h with h | h
  · exact ⟨ascii "sha256=", by simp [Option.mem_toList.mp h]⟩
  · exact ⟨ascii "sni=", by simp [Option.mem_toList.mp h]⟩

/-- Each of the parts is found in the text. -/
theorem infix_of_mem {part : Bytes} (h : part ∈ parts.path.toList ++ parts.values) :
    part <:+: parts.pathText := by
  have hentry {entry : Bytes} (h : entry ∈ parts.trust.entries) : entry <:+: parts.pathText := by
    unfold pathText
    cases hentries : parts.trust.entries with
    | nil =>
        rw [hentries] at h
        cases h
    | cons first entries =>
        rw [hentries] at h
        exact ((infix_intercalate h).trans (List.suffix_cons ..).isInfix).trans
          (List.suffix_append ..).isInfix
  rcases List.mem_append.mp h with h | h
  · rw [pathText, Option.mem_toList.mp h]
    exact (List.prefix_append ..).isInfix
  · obtain ⟨front, hmem⟩ := exists_entry h
    exact (List.suffix_append ..).isInfix.trans (hentry hmem)

/-! ## Where the descriptor is cut -/

theorem foreign_hash : Foreign [hash] := by
  unfold Foreign
  simp only [List.singleton_infix_iff]
  decide

theorem foreign_pipe : Foreign [pipe] := by
  unfold Foreign
  simp only [List.singleton_infix_iff]
  decide

theorem foreign_separator : Foreign absoluteDocumentSeparator := by
  unfold Foreign
  simp only [← cutSeq_eq_none]
  decide

/-- No separator lies in a code. -/
theorem plain_code {name : Bytes} (h : (SecureTransportCode.parse name).isSome = true) :
    ∀ c ∈ ascii "#|/?", c ∉ name := by
  unfold SecureTransportCode.parse at h
  by_cases hknown : name ∈ [[], ascii "wtp", ascii "htp", ascii "ht3", ascii "ht2", ascii "ht1"]
  · have hcodes : ∀ code ∈ [[], ascii "wtp", ascii "htp", ascii "ht3", ascii "ht2", ascii "ht1"],
        ∀ c ∈ ascii "#|/?", c ∉ code := by decide +kernel
    exact hcodes name hknown
  · simp only [List.mem_cons, List.not_mem_nil, or_false, not_or] at hknown
    simp [hknown] at h

theorem notMem_server {c : UInt8} (hc : c ∈ ascii "#/?") : c ∉ parts.server := by
  have hother : ∀ c ∈ ascii "#/?", c ∈ ascii "#|/?" ∧ c ≠ pipe := by decide +kernel
  obtain ⟨hreserved, hpipe⟩ := hother c hc
  unfold server
  cases hcode : parts.code with
  | none => simpa using notMem_authority hreserved
  | some name =>
      have hname := plain_code (parts.known name hcode) c hreserved
      simp [hname, hpipe, notMem_authority hreserved]

theorem server_eq_append : ∃ front last, parts.server = front ++ [last] ∧
    last ∉ absoluteDocumentSeparator := by
  obtain ⟨front, last, heq, hlast⟩ := @authority_eq_append parts
  exact ⟨_ ++ front, last, by rw [server, heq, List.append_assoc], hlast⟩

theorem slash_mem_of_separator {text : Bytes} (h : absoluteDocumentSeparator <:+: text) :
    slash ∈ text := h.subset (by decide)

/-- A separator of the document path before it lies in a part of the path or the query. -/
theorem not_infix_body
    (h : ∀ part ∈ parts.path.toList ++ parts.values, ¬absoluteDocumentSeparator <:+: part) :
    ¬absoluteDocumentSeparator <:+: parts.body := by
  intro hpart
  obtain ⟨front, last, hserver, hlast⟩ := @server_eq_append parts
  rw [body, hserver, List.append_assoc, List.singleton_append] at hpart
  rcases infix_append_cons hlast hpart with hfront | hpath
  · have hslash : slash ∈ parts.server := by
      rw [hserver]
      exact List.mem_append_left _ (slash_mem_of_separator hfront)
    exact notMem_server (by decide) hslash
  · obtain ⟨part, hmem, hin⟩ := infix_pathText foreign_separator hpath
    exact h part hmem hin

theorem notMem_pathText {c : UInt8} (hforeign : Foreign [c])
    (h : ∀ part ∈ parts.path.toList ++ parts.values, c ∉ part) : c ∉ parts.pathText := by
  intro hmem
  obtain ⟨part, hpart, hin⟩ := infix_pathText hforeign ((List.singleton_infix_iff c _).mpr hmem)
  exact h part hpart ((List.singleton_infix_iff c _).mp hin)

theorem hash_notMem_body (h : ∀ part ∈ parts.path.toList ++ parts.values, hash ∉ part) :
    hash ∉ parts.body := by
  rw [body, List.mem_append, not_or]
  exact ⟨notMem_server (by decide), notMem_pathText foreign_hash h⟩

theorem cutSelector_payload (h : ∀ part ∈ parts.path.toList ++ parts.values, hash ∉ part)
    (hdocument : ∀ text, parts.documentPath = some text → hash ∉ text) :
    cutSelector parts.payload = (parts.body ++ parts.documentText, parts.selector) := by
  have hbefore : hash ∉ parts.body ++ parts.documentText := by
    rw [List.mem_append, not_or]
    refine ⟨hash_notMem_body h, ?_⟩
    unfold documentText
    cases hpath : parts.documentPath with
    | none => exact List.not_mem_nil
    | some text =>
        have hcolons : hash ∉ ascii "::" := by decide
        simp [hcolons, hdocument text hpath]
  unfold payload selectorText
  cases parts.selector with
  | none => simp [cutSelector, cut_eq_none.mpr hbefore]
  | some selector => exact cutSelector_append hbefore

theorem cutDocument_body
    (h : ∀ part ∈ parts.path.toList ++ parts.values, ¬absoluteDocumentSeparator <:+: part) :
    cutDocument (parts.body ++ parts.documentText) = (parts.body, parts.documentPath) := by
  unfold documentText
  cases hpath : parts.documentPath with
  | none => simp [cutDocument, cutSeq_eq_none.mpr (not_infix_body h)]
  | some text =>
      obtain ⟨rest, rfl⟩ := exists_of_canonical (parts.canonical text hpath)
      exact cutDocument_append (not_infix_body h)

/-- The path as it reaches the parser. -/
def rawPath (parts : Components) : Bytes :=
  if parts.path = none then defaultHttpsPath else parts.pathText

theorem exists_of_path {path : Bytes} (h : parts.path = some path) :
    ∃ rest, parts.pathText = slash :: rest := by
  have hhead := parts.pathStart path h
  cases path with
  | nil => cases hhead
  | cons c rest =>
      obtain rfl : c = slash := Option.some.inj hhead
      exact ⟨rest ++ queryText parts.trust.entries, by rw [pathText, h]; rfl⟩

theorem pathText_of_none (hpath : parts.path = none) (hvalues : parts.values = []) :
    parts.pathText = [] := by
  obtain ⟨hhash, hname⟩ := List.append_eq_nil_iff.mp hvalues
  simp [pathText, hpath, trust, Trust.entries, Option.toList_eq_nil_iff.mp hhash,
    Option.toList_eq_nil_iff.mp hname, queryText]

/-- The parts that the descriptor is cut into. -/
theorem splitDescriptor_payload (h : parts.Recoverable) :
    splitDescriptor parts.payload =
      ⟨parts.code, parts.authority, parts.rawPath, parts.documentPath, parts.selector⟩ := by
  have hpipe : cutCode parts.body = (parts.code, parts.authority ++ parts.pathText) := by
    unfold cutCode body server
    cases hcode : parts.code with
    | none =>
        have hauthority : pipe ∉ parts.authority := notMem_authority (by decide)
        have hpath : pipe ∉ parts.pathText :=
          notMem_pathText foreign_pipe fun part hmem => (h.between part hmem).2.2 hcode
        have hboth : pipe ∉ parts.authority ++ parts.pathText := by simp [hauthority, hpath]
        simp [cut_eq_none.mpr hboth]
    | some name =>
        have hname := plain_code (parts.known name hcode) pipe (by decide)
        simp only [Option.map_some, Option.getD_some, List.append_assoc, List.cons_append,
          List.nil_append, cut_append hname]
  have hslash : cutPath (parts.authority ++ parts.pathText) =
      (parts.authority, parts.rawPath) := by
    have hauthority : slash ∉ parts.authority := notMem_authority (by decide)
    unfold cutPath rawPath
    cases hpath : parts.path with
    | none =>
        rw [pathText_of_none hpath (h.afterPath hpath), List.append_nil,
          cut_eq_none.mpr hauthority]
        rfl
    | some path =>
        obtain ⟨rest, hrest⟩ := exists_of_path hpath
        rw [hrest, cut_append hauthority]
        rfl
  unfold splitDescriptor
  rw [cutSelector_payload (fun part hmem => (h.between part hmem).1) h.document]
  simp only [cutDocument_body fun part hmem => (h.between part hmem).2.1, hpipe, hslash]

/-! ## The parts are recovered -/

theorem shareEntry_sha256 (trust : Trust) (value : Bytes) :
    shareEntry trust (ascii "sha256=" ++ value) =
      if trust.certificateHash.isSome then none else some { trust with certificateHash := value } := by
  rw [shareEntry, if_neg (by simp [ascii]), afterPrefix_append]

theorem shareEntry_sni (trust : Trust) (value : Bytes) :
    shareEntry trust (ascii "sni=" ++ value) =
      if trust.serverName.isSome then none else some { trust with serverName := value } := by
  have hsha256 : afterPrefix (ascii "sha256=") (ascii "sni=" ++ value) = none := rfl
  rw [shareEntry, if_neg (by simp [ascii]), hsha256, afterPrefix_append]

theorem foldlM_shareEntry : parts.trust.entries.foldlM shareEntry ⟨none, none, none⟩ =
    some parts.trust := by
  unfold trust Trust.entries
  cases parts.certificateHash <;> cases parts.serverName <;>
    simp [shareEntry_sha256, shareEntry_sni]

/-- The settings are read back from the query. -/
theorem shareEntry_query (h : ∀ value ∈ parts.values, ampersand ∉ value)
    (hne : parts.trust.entries ≠ []) :
    [ampersand].intercalate parts.trust.entries ≠ [] ∧
      (([ampersand].intercalate parts.trust.entries).splitOn ampersand).foldlM shareEntry
        ⟨none, none, none⟩ = some parts.trust := by
  have hentries : ∀ entry ∈ parts.trust.entries, ampersand ∉ entry := by
    intro entry hmem
    obtain ⟨name, value, hname, hvalue, rfl⟩ := mem_entries hmem
    have hfront : ampersand ∉ name := by
      rcases hname with rfl | rfl <;> decide
    simp only [List.mem_append, List.mem_cons, not_or]
    exact ⟨hfront, by decide, h value hvalue⟩
  have hsplit := List.splitOn_intercalate ampersand hentries hne
  refine ⟨fun hempty => ?_, by rw [hsplit, foldlM_shareEntry]⟩
  rw [hempty, List.splitOn_nil] at hsplit
  have hmem : [] ∈ parts.trust.entries := hsplit ▸ List.mem_singleton_self _
  obtain ⟨name, value, -, -, heq⟩ := mem_entries hmem
  simp at heq

theorem parseHttpsPathAndTrust_rawPath (h : parts.Recoverable) :
    parseHttpsPathAndTrust parts.rawPath =
      some (parts.path.getD defaultHttpsPath, parts.trust) := by
  unfold rawPath
  cases hpath : parts.path with
  | none =>
      have htrust : parts.trust = ⟨none, none, none⟩ := by
        obtain ⟨hhash, hname⟩ := List.append_eq_nil_iff.mp (h.afterPath hpath)
        rw [trust, Option.toList_eq_nil_iff.mp hhash, Option.toList_eq_nil_iff.mp hname]
      rw [if_pos rfl, htrust]
      decide
  | some path =>
      obtain ⟨hnormal, hquestion⟩ := h.normal path hpath
      rw [if_neg (by simp)]
      unfold pathText parseHttpsPathAndTrust
      rw [hpath, Option.getD_some]
      cases hentries : parts.trust.entries with
      | nil =>
          have hfold := @foldlM_shareEntry parts
          rw [hentries] at hfold
          rw [queryText, List.append_nil, cut_eq_none.mpr hquestion]
          simp only [hnormal, Option.bind_some, if_true]
          rw [← Option.some.inj hfold]
          rfl
      | cons entry entries =>
          obtain ⟨hne, hfold⟩ := shareEntry_query h.values (by rw [hentries]; simp)
          rw [hentries] at hne hfold
          rw [queryText, cut_append hquestion]
          simp only [hnormal, Option.bind_some, if_neg hne, hfold]
          rfl

/-- A canonical document path is left as it is. -/
theorem normalizeDocumentPath_of_canonical {text : Bytes} (h : isCanonicalDocumentPath text = true) :
    normalizeDocumentPath text = some text := by
  rw [← normalizeDocumentPath_toOption, Resource.normalizeDocumentPath_of_canonical h]
  rfl

theorem documentPathOf_documentPath :
    documentPathOf parts.documentPath = some (parts.documentPath.getD rootDocumentPath) := by
  cases hpath : parts.documentPath with
  | none => rfl
  | some text => exact normalizeDocumentPath_of_canonical (parts.canonical text hpath)

theorem codeOf_code :
    codeOf parts.code = some ((parts.code.bind SecureTransportCode.parse).getD .auto) := by
  cases hcode : parts.code with
  | none => rfl
  | some name =>
      obtain ⟨code, hname⟩ := Option.isSome_iff_exists.mp (parts.known name hcode)
      simp [codeOf, hname]

theorem parse_of_recoverable (h : parts.Recoverable) : parse parts.text = some parts.expected := by
  rw [parse, text, afterPrefix_append, Option.bind_some, splitDescriptor_payload h]
  simp [parsePieces, codeOf_code, splitHostPort_authority, parseHttpsPathAndTrust_rawPath h,
    documentPathOf_documentPath, expected, trust]

/-! ## What an accepted descriptor cannot have -/

section Converse

variable {payload : Bytes} {parsed : Parsed}

theorem normalizeHttpsPath_idem {value httpsPath : Bytes}
    (h : normalizeHttpsPath value = some httpsPath) :
    normalizeHttpsPath httpsPath = some httpsPath := by
  rcases of_normalizeHttpsPath h with ⟨-, rfl⟩ | ⟨rfl, -⟩
  · decide
  · exact h

/-- Neither a hash nor the separator of the document path reaches the parser of the path. -/
theorem not_infix_rawPath (payload : Bytes) {sep : Bytes}
    (hsep : sep = [hash] ∨ sep = absoluteDocumentSeparator) :
    ¬sep <:+: (splitDescriptor payload).rawPath := by
  have hdefault : ¬sep <:+: defaultHttpsPath := by
    rcases hsep with rfl | rfl
    · rw [List.singleton_infix_iff]
      decide
    · exact cutSeq_eq_none.mp (by decide)
  have hdocument : ∀ text, hash ∉ text → ¬sep <:+: (cutDocument text).1 := by
    intro text hhash
    unfold cutDocument
    cases hcut : cutSeq absoluteDocumentSeparator text with
    | none =>
        rcases hsep with rfl | rfl
        · simpa [List.singleton_infix_iff] using hhash
        · exact cutSeq_eq_none.mp hcut
    | some p =>
        rcases hsep with rfl | rfl
        · rw [eq_of_cutSeq hcut] at hhash
          simp only [List.mem_append, not_or] at hhash
          simpa [List.singleton_infix_iff] using hhash.1
        · exact not_infix_of_cutSeq (by decide) hcut
  have hcode (text : Bytes) : (cutCode text).2 <:+: text := by
    unfold cutCode
    cases hcut : cut pipe text with
    | none => exact List.infix_rfl
    | some p =>
        rw [(cut_eq_some.mp hcut).1]
        exact ((List.suffix_cons ..).trans (List.suffix_append ..)).isInfix
  have hpath (text : Bytes) : (cutPath text).2 = defaultHttpsPath ∨ (cutPath text).2 <:+: text := by
    unfold cutPath
    cases hcut : cut slash text with
    | none => exact .inl rfl
    | some p =>
        rw [(cut_eq_some.mp hcut).1]
        exact .inr (List.suffix_append ..).isInfix
  intro hpart
  rcases hpath (cutCode (cutDocument (cutSelector payload).1).1).2 with heq | hraw
  · exact hdefault (heq ▸ hpart)
  · exact hdocument _ (hash_notMem_cutSelector payload) ((hpart.trans hraw).trans (hcode _))

/-- The path and the values of the settings are parts of what reaches the parser. -/
theorem not_infix_part (h : Accepted (splitDescriptor payload) parts.expected) {sep part : Bytes}
    (hsep : sep = [hash] ∨ sep = absoluteDocumentSeparator)
    (hmem : part ∈ parts.path.toList ++ parts.values) : ¬sep <:+: part := by
  intro hpart
  obtain ⟨pathText, query, hnormal, -, hvalue, htrust, -⟩ := of_parseHttpsPathAndTrust h.path
  have hraw {text : Bytes} (htext : text <:+: (splitDescriptor payload).rawPath) :
      ¬sep <:+: text := fun hin => not_infix_rawPath payload hsep (hin.trans htext)
  rcases List.mem_append.mp hmem with hmem | hmem
  · have hexpected : parts.expected.httpsPath = part := by
      simp [expected, Option.mem_toList.mp hmem]
    rw [hexpected] at hnormal
    rcases of_normalizeHttpsPath hnormal with ⟨-, rfl⟩ | ⟨rfl, -⟩
    · have hdefault : ¬sep <:+: defaultHttpsPath := by
        rcases hsep with rfl | rfl
        · rw [List.singleton_infix_iff]
          decide
        · exact cutSeq_eq_none.mp (by decide)
      exact hdefault hpart
    · refine hraw ?_ hpart
      rcases hvalue with ⟨heq, -⟩ | heq
      · rw [heq]
      · rw [heq]
        exact (List.prefix_append ..).isInfix
  · obtain ⟨front, hentry⟩ := exists_entry hmem
    have hquery : front ++ part <:+: query :=
      infix_of_mem_splitOn (mem_splitOn_of_parseTrust htrust _ hentry)
    refine hraw ?_ (hpart.trans (List.suffix_append front part).isInfix)
    rcases hvalue with ⟨-, rfl⟩ | heq
    · rw [List.infix_nil.mp hquery]
      exact List.nil_infix
    · rw [heq]
      exact hquery.trans ((List.suffix_cons ..).trans (List.suffix_append ..)).isInfix

theorem ampersand_notMem_value (h : Accepted (splitDescriptor payload) parts.expected)
    {value : Bytes} (hvalue : value ∈ parts.values) : ampersand ∉ value := by
  obtain ⟨-, query, -, -, -, htrust, -⟩ := of_parseHttpsPathAndTrust h.path
  obtain ⟨front, hentry⟩ := exists_entry hvalue
  exact fun hmem => ampersand_notMem_parseTrust htrust _ hentry (List.mem_append_right _ hmem)

theorem mem_of_normalizeDocumentPath {value text : Bytes}
    (h : normalizeDocumentPath value = some text) : ∀ c ∈ text, c = slash ∨ c ∈ value := by
  unfold normalizeDocumentPath at h
  intro c hc
  by_cases hempty : value = []
  · rw [if_pos hempty] at h
    cases h
    exact .inl (by simpa [rootDocumentPath] using hc)
  · rw [if_neg hempty] at h
    generalize hpath : (if value.head? = some slash then value else slash :: value) = path at h
    simp only at h
    split at h
    · cases h
    · split at h
      · cases h
      · rw [← Option.some.inj h, ← hpath] at hc
        split at hc
        · exact .inr hc
        · exact List.mem_cons.mp hc

theorem hash_notMem_document (h : Accepted (splitDescriptor payload) parsed) :
    hash ∉ parsed.documentPath := by
  have hdocument := h.document
  intro hmem
  cases htext : (splitDescriptor payload).documentText with
  | none =>
      rw [htext] at hdocument
      rw [← Option.some.inj hdocument] at hmem
      exact absurd hmem (by decide)
  | some value =>
      rw [htext] at hdocument
      rcases mem_of_normalizeDocumentPath hdocument hash hmem with heq | hvalue
      · exact absurd heq (by decide)
      · exact hash_notMem_cutSelector payload (mem_of_cutDocument htext hash hvalue)

/-- A code that is accepted has no question mark and no slash. -/
theorem plain_codeText {pieces : Pieces} (h : Accepted pieces parsed) {name : Bytes}
    (hname : pieces.codeText = some name) : ∀ c ∈ ascii "#|/?", c ∉ name := by
  have hcode := h.code
  rw [hname] at hcode
  exact plain_code (Option.isSome_iff_exists.mpr ⟨_, hcode⟩)

/-- A query that follows no path is taken into the host. -/
theorem question_mem_authority {rest : Bytes}
    (h : Accepted (splitDescriptor (parts.server ++ question :: rest)) parsed) :
    question ∈ (splitDescriptor (parts.server ++ question :: rest)).authority := by
  have hquestion : question ∉ parts.server := notMem_server (by decide)
  obtain ⟨rest₁, hselector⟩ : ∃ rest₁, (cutSelector (parts.server ++ question :: rest)).1 =
      parts.server ++ question :: rest₁ := by
    have hhash : hash ∉ parts.server ++ [question] := by
      have hserver : hash ∉ parts.server := notMem_server (by decide)
      have hne : hash ≠ question := by decide
      simp [hserver, hne]
    rw [List.append_cons, cutSelector, cut_append_left hhash]
    cases cut hash rest with
    | none => exact ⟨rest, by simp⟩
    | some p => exact ⟨p.1, by simp⟩
  obtain ⟨rest₂, hdocument⟩ : ∃ rest₂, (cutDocument (parts.server ++ question :: rest₁)).1 =
      parts.server ++ question :: rest₂ := by
    have hserver : ¬absoluteDocumentSeparator <:+: parts.server := fun hpart =>
      @notMem_server parts slash (by decide) (slash_mem_of_separator hpart)
    rw [cutDocument, cutSeq_append_cons (by decide) (by decide) hserver]
    cases cutSeq absoluteDocumentSeparator rest₁ with
    | none => exact ⟨rest₁, rfl⟩
    | some p => exact ⟨p.1, rfl⟩
  have hpieces : (splitDescriptor (parts.server ++ question :: rest)).codeText =
        (cutCode (parts.server ++ question :: rest₂)).1 ∧
      (splitDescriptor (parts.server ++ question :: rest)).authority =
        (cutPath (cutCode (parts.server ++ question :: rest₂)).2).1 := by
    rw [← hdocument, ← hselector]
    exact ⟨rfl, rfl⟩
  have hpath : question ∈ (cutPath (parts.authority ++ question :: rest₂)).1 := by
    have hslash : slash ∉ parts.authority ++ [question] := by
      have hauthority : slash ∉ parts.authority := notMem_authority (by decide)
      have hne : slash ≠ question := by decide
      simp [hauthority, hne]
    rw [List.append_cons, cutPath, cut_append_left hslash]
    cases cut slash rest₂ with
    | none => simp
    | some p => simp
  have hcode : (cutCode (parts.server ++ question :: rest₂)).2 =
      parts.authority ++ question :: rest₂ := by
    cases hname : parts.code with
    | some name =>
        have hpipe := plain_code (parts.known name hname) pipe (by decide)
        simp only [cutCode, server, hname, Option.map_some, Option.getD_some, List.append_assoc,
          List.cons_append, List.nil_append, cut_append hpipe]
    | none =>
        have hserver : parts.server = parts.authority := by simp [server, hname]
        have hpipe : pipe ∉ parts.authority ++ [question] := by
          have hauthority : pipe ∉ parts.authority := notMem_authority (by decide)
          have hne : pipe ≠ question := by decide
          simp [hauthority, hne]
        cases hcut : cut pipe rest₂ with
        | none =>
            rw [hserver, List.append_cons, cutCode, cut_append_left hpipe, hcut]
            rfl
        | some p =>
            have htaken : (splitDescriptor (parts.server ++ question :: rest)).codeText =
                some (parts.authority ++ [question] ++ p.1) := by
              rw [hpieces.1, hserver, List.append_cons, cutCode, cut_append_left hpipe, hcut]
              rfl
            exact absurd (by simp) (plain_codeText h htaken question (by decide))
  rw [hpieces.2, hcode]
  exact hpath

/-- Without a transport code a pipe after the authority is taken for the end of one. -/
theorem pipe_notMem_pathText (hpieces : (splitDescriptor payload).codeText = (cutCode parts.body).1)
    (h : Accepted (splitDescriptor payload) parsed) (hcode : parts.code = none) {rest : Bytes}
    (hrest : parts.pathText = slash :: rest) : pipe ∉ parts.pathText := by
  have hpipe : pipe ∉ parts.authority ++ [slash] := by
    have hauthority : pipe ∉ parts.authority := notMem_authority (by decide)
    have hne : pipe ≠ slash := by decide
    simp [hauthority, hne]
  have hbody : parts.body = (parts.authority ++ [slash]) ++ rest := by
    simp [body, server, hcode, hrest]
  rw [hrest]
  intro hmem
  cases hcut : cut pipe rest with
  | none =>
      rcases List.mem_cons.mp hmem with heq | hmem
      · exact absurd heq (by decide)
      · exact cut_eq_none.mp hcut hmem
  | some p =>
      have htaken : (splitDescriptor payload).codeText =
          some (parts.authority ++ [slash] ++ p.1) := by
        rw [hpieces, hbody, cutCode, cut_append_left hpipe, hcut]
        rfl
      exact absurd (by simp) (plain_codeText h htaken slash (by decide))

end Converse

theorem recoverable_of_parse (h : parse parts.text = some parts.expected) : parts.Recoverable := by
  obtain ⟨payload, heq, haccepted⟩ := of_parse h
  obtain rfl : parts.payload = payload := List.append_cancel_left heq
  have hafterPath : parts.path = none → parts.values = [] := by
    intro hpath
    by_contra hvalues
    obtain ⟨entry, entries, hentries⟩ : ∃ entry entries, parts.trust.entries = entry :: entries := by
      obtain ⟨value, rest, hvalue⟩ := List.exists_cons_of_ne_nil hvalues
      obtain ⟨front, hentry⟩ := exists_entry (hvalue ▸ List.mem_cons_self .. : value ∈ parts.values)
      exact List.exists_cons_of_ne_nil (List.ne_nil_of_mem hentry)
    have hpayload : ∃ rest, parts.payload = parts.server ++ question :: rest := by
      refine ⟨[ampersand].intercalate (entry :: entries) ++ (parts.documentText ++
        parts.selectorText), ?_⟩
      rw [payload, body, pathText, hpath, hentries, queryText]
      simp only [Option.getD_none, List.nil_append, List.append_assoc, List.cons_append]
    obtain ⟨rest, hrest⟩ := hpayload
    rw [hrest] at haccepted
    have hhost : question ∈ parts.host :=
      (question_mem_iff haccepted.authority).mpr (question_mem_authority haccepted)
    exact parts.plainHost question hhost (by decide)
  have hhash : ∀ part ∈ parts.path.toList ++ parts.values, hash ∉ part := fun part hmem hin =>
    not_infix_part haccepted (.inl rfl) hmem ((List.singleton_infix_iff hash part).mpr hin)
  have hseparator : ∀ part ∈ parts.path.toList ++ parts.values,
      ¬absoluteDocumentSeparator <:+: part := fun part hmem =>
    not_infix_part haccepted (.inr rfl) hmem
  have hdocument : ∀ text, parts.documentPath = some text → hash ∉ text := by
    intro text hpath
    have hnot := hash_notMem_document haccepted
    rwa [expected, hpath] at hnot
  have hpieces : (splitDescriptor parts.payload).codeText = (cutCode parts.body).1 := by
    unfold splitDescriptor
    rw [cutSelector_payload hhash hdocument]
    simp only [cutDocument_body hseparator]
  refine ⟨hafterPath, ?_, fun value => ampersand_notMem_value haccepted, ?_, hdocument⟩
  · intro text hpath
    have hexpected : parts.expected.httpsPath = text := by simp [expected, hpath]
    obtain ⟨-, hquestion⟩ := httpsPath_ok haccepted.path
    obtain ⟨pathText, query, hnormal, -⟩ := of_parseHttpsPathAndTrust haccepted.path
    rw [hexpected] at hquestion hnormal
    exact ⟨normalizeHttpsPath_idem hnormal, hquestion⟩
  · intro part hmem
    refine ⟨hhash part hmem, hseparator part hmem, fun hcode => ?_⟩
    cases hpath : parts.path with
    | none =>
        rw [hpath, hafterPath hpath] at hmem
        cases hmem
    | some path =>
        obtain ⟨rest, hrest⟩ := exists_of_path hpath
        exact fun hin => pipe_notMem_pathText hpieces haccepted hcode hrest
          ((infix_of_mem hmem).subset hin)

end Components

/-! ## Descriptors -/

/-- The parts of a descriptor are recovered exactly if none has a separator that moves a cut; and an
accepted descriptor has a host that is not empty, has no question mark and is read back from what is
rendered, exactly if its authority says so. -/
theorem descriptor_recovered (parts : Components) (text : Bytes) :
    (parse parts.text = some parts.expected ↔ parts.Recoverable) ∧
      ∀ parsed, parse text = some parsed →
        ∃ payload, text = ascii "trds://" ++ payload ∧
          ((parsed.host ≠ [] ∧ question ∉ parsed.host ∧
              ∀ spec ∈ renderedSpecs parsed, ReadBack parsed spec) ↔
            AuthorityKept (splitDescriptor payload).authority
              ((splitDescriptor payload).codeText ≠ some (ascii "ht3"))) := by
  refine ⟨⟨Components.recoverable_of_parse, Components.parse_of_recoverable⟩, ?_⟩
  intro parsed h
  obtain ⟨payload, heq, haccepted⟩ := of_parse h
  exact ⟨payload, heq, rendered_iff haccepted⟩

/-- What `trds://htp|[::1]:4433/rpc?sni=name::/builds#log` says. -/
def namedServer : Parsed :=
  ⟨.htp, ascii "::1", 4433, ascii "/rpc", ascii "/builds", some (ascii "log"), none,
    some (ascii "name"), none⟩

/-- Its parts. -/
def namedServerParts : Components where
  code := some (ascii "htp")
  host := ascii "::1"
  port := some 4433
  path := some (ascii "/rpc")
  certificateHash := none
  serverName := some (ascii "name")
  documentPath := some (ascii "/builds")
  selector := some (ascii "log")
  known := by rintro _ ⟨⟩; decide +kernel
  someHost := by decide
  plainHost := by decide +kernel
  pathStart := by rintro _ ⟨⟩; rfl
  canonical := by rintro _ ⟨⟩; decide +kernel

theorem descriptor_recovered_namedServer :
    ∃ payload, ascii "trds://htp|[::1]:4433/rpc?sni=name::/builds#log" =
        ascii "trds://" ++ payload ∧
      ((namedServer.host ≠ [] ∧ question ∉ namedServer.host ∧
          ∀ spec ∈ renderedSpecs namedServer, ReadBack namedServer spec) ↔
        AuthorityKept (splitDescriptor payload).authority
          ((splitDescriptor payload).codeText ≠ some (ascii "ht3"))) :=
  (descriptor_recovered namedServerParts _).2 namedServer (by decide +kernel)

/-- Trust settings without a path are a part of the host, brackets may be empty, and what is rendered
of either is not what was parsed. -/
theorem descriptor_lost :
    ((parse (ascii "trds://htp|host?sha256=ab")).map fun parsed => parsed.host) =
        some (ascii "host?sha256=ab") ∧
      ((parse (ascii "trds://htp|host?sha256=ab")).map fun parsed =>
        (parsed.certificateHash, (renderedSpecs parsed).map fun spec =>
          ((Address.parse spec).bind fun address => secureOf address.target).bind fun secure =>
            secure.trust.certificateHash)) =
        some (none, [some (ascii "ab:443/rpc"), some (ascii "ab:443/rpc")]) ∧
      ((parse (ascii "trds://htp|[]")).map fun parsed => parsed.host) = some [] ∧
      ((parse (ascii "trds://htp|[]")).map fun parsed =>
        (renderedSpecs parsed).map Address.parse) = some [none, none] := by
  decide +kernel

end Muxly.Resource.Secure
