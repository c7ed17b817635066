/-
# Muxly.Resource.Descriptor -- TOM resource descriptors

`parse` of `trd.zig`: `trd://`, then a server, a document path and a node selector in one string.
The slots are found by looking for the separators from the front: the first `#` ends everything
before the selector, the first `::/` before it ends the server, the first `|` in the server ends a
transport code.
-/
import Muxly.Control.Action
import Muxly.Data.Cut
import Muxly.Daemon.Protocol

namespace Muxly.Resource

open Muxly.Core Muxly.Control Muxly.Data
open Muxly.Daemon (isCanonicalDocumentPath rootDocumentPath)

/-- `'#'`. -/
def hash : UInt8 := 35

/-- `'|'`. -/
def pipe : UInt8 := 124

/-! ## Parsing -/

/-- The errors of the descriptor parsers. -/
inductive DescriptorError where
  | invalidResourceDescriptor
  | unsupportedResourceTransport
  | invalidDocumentPath
  deriving DecidableEq

/-- `TransportCode`. -/
inductive TransportCode where
  | none
  | localDefault
  | auto
  | unx
  | tcp
  | ssh
  | wtp
  | htp
  | ht3
  | ht2
  | ht1
  deriving DecidableEq

/-- `TransportCode.parseExplicit`. -/
def TransportCode.parseExplicit (text : Bytes) : Except DescriptorError TransportCode :=
  if text = ascii "unx" then .ok .unx
  else if text = ascii "tcp" then .ok .tcp
  else if text = ascii "ssh" then .ok .ssh
  else if text = ascii "wtp" then .ok .wtp
  else if text = ascii "htp" then .ok .htp
  else if text = ascii "ht3" then .ok .ht3
  else if text = ascii "ht2" then .ok .ht2
  else if text = ascii "ht1" then .ok .ht1
  else .error .unsupportedResourceTransport

/-- `Parsed.Kind`. -/
inductive Kind where
  | absolute
  | relative
  deriving DecidableEq

/-- `Parsed`. -/
structure Parsed where
  kind : Kind
  transportCode : Option Bytes
  endpoint : Option Bytes
  documentPath : Option Bytes
  selector : Option Bytes
  deriving DecidableEq

/-- `absolute_document_separator`. -/
def absoluteDocumentSeparator : Bytes := ascii "::/"

/-- `local_default_endpoint`. -/
def localDefaultEndpoint : Bytes := ascii "."

/-- `normalizeDocumentPathOwned`. -/
def normalizeDocumentPath (value : Bytes) : Except DescriptorError Bytes :=
  if value = [] then .ok rootDocumentPath
  else
    let documentPath := if value.head? = some slash then value else slash :: value
    if isCanonicalDocumentPath documentPath then .ok documentPath else .error .invalidDocumentPath

/-- The transport code and the endpoint of the text before the document. -/
def parseServer (text : Bytes) : Except DescriptorError (Option Bytes × Option Bytes) :=
  match cut pipe text with
  | some (code, endpoint) =>
    if code = [] then .error .unsupportedResourceTransport
    else do
      let _ ← TransportCode.parseExplicit code
      .ok (some code, some endpoint)
  | none => .ok (none, if text = [] then none else some text)

/-- What is left of the first `#`, and the selector right of it. -/
def cutSelector (payload : Bytes) : Bytes × Option Bytes :=
  match cut hash payload with
  | some (before, after) => (before, some after)
  | none => (payload, none)

/-- What is left of the first `::/`, and the document path, which begins with its slash. -/
def cutDocument (text : Bytes) : Bytes × Option Bytes :=
  match cutSeq absoluteDocumentSeparator text with
  | some (before, after) => (before, some (slash :: after))
  | none => (text, none)

/-- The document path, if there is one. -/
def ownedDocumentPath : Option Bytes → Except DescriptorError (Option Bytes)
  | none => .ok none
  | some value => (normalizeDocumentPath value).map some

/-- The slots of a descriptor that is more than a selector. -/
def parseSlots (withoutSelector : Bytes) (selector : Option Bytes) :
    Except DescriptorError Parsed := do
  let (endpointAndDocument, documentText) := cutDocument withoutSelector
  let (transportCode, endpoint) ← parseServer endpointAndDocument
  let documentPath ← ownedDocumentPath documentText
  .ok ⟨.absolute, transportCode, endpoint, documentPath, selector⟩

/-- What `parse` makes of the text after `trd://`. -/
def parseAbsolute (payload : Bytes) : Except DescriptorError Parsed :=
  let (withoutSelector, selector) := cutSelector payload
  if withoutSelector = [] then .ok ⟨.absolute, none, some localDefaultEndpoint, none, selector⟩
  else parseSlots withoutSelector selector

/-- `parse`. -/
def parse (text : Bytes) : Except DescriptorError Parsed :=
  match afterPrefix (ascii "trd:") text with
  | none => .error .invalidResourceDescriptor
  | some remainder =>
    match afterPrefix [hash] remainder with
    | some selector => .ok ⟨.relative, none, none, none, some selector⟩
    | none =>
      match afterPrefix (ascii "//") remainder with
      | none => .error .invalidResourceDescriptor
      | some payload => parseAbsolute payload

/-! ## The slots -/

/-- The server of a descriptor: an endpoint, or a known transport code and an endpoint. A `|` always
follows a transport code. -/
structure Server where
  code : Option Bytes
  endpoint : Bytes
  known : ∀ name, code = some name → (TransportCode.parseExplicit name).isOk = true
  plain : code = none → pipe ∉ endpoint

/-- The text of the server. -/
def Server.text (server : Server) : Bytes :=
  match server.code with
  | none => server.endpoint
  | some name => name ++ pipe :: server.endpoint

/-- What the endpoint is recovered as; no server at all stands for the default of the runtime. -/
def Server.endpointSlot (server : Server) : Option Bytes :=
  if server.code = none ∧ server.endpoint = [] then none else some server.endpoint

/-- A known code is neither empty nor has it a `|`. -/
theorem of_parseExplicit {name : Bytes} (h : (TransportCode.parseExplicit name).isOk = true) :
    name ≠ [] ∧ pipe ∉ name := by
  unfold TransportCode.parseExplicit at h
  by_cases hknown : name ∈ [ascii "unx", ascii "tcp", ascii "ssh", ascii "wtp", ascii "htp",
      ascii "ht3", ascii "ht2", ascii "ht1"]
  · have hcodes : ∀ code ∈ [ascii "unx", ascii "tcp", ascii "ssh", ascii "wtp", ascii "htp",
        ascii "ht3", ascii "ht2", ascii "ht1"], code ≠ [] ∧ pipe ∉ code := by decide
    exact hcodes name hknown
  · simp only [List.mem_cons, List.not_mem_nil, or_false, not_or] at hknown
    simp [hknown, Except.isOk, Except.toBool] at h

theorem parseServer_text (server : Server) :
    parseServer server.text = .ok (server.code, server.endpointSlot) := by
  obtain ⟨code, endpoint, hknown, hplain⟩ := server
  cases code with
  | none =>
      show parseServer endpoint = _
      rw [parseServer, cut_eq_none.mpr (hplain rfl)]
      simp [Server.endpointSlot]
  | some name =>
      have hok := hknown name rfl
      obtain ⟨hne, hpipe⟩ := of_parseExplicit hok
      show parseServer (name ++ pipe :: endpoint) = _
      rw [parseServer, cut_append hpipe]
      cases hcode : TransportCode.parseExplicit name with
      | error e =>
          rw [hcode] at hok
          cases hok
      | ok code =>
          simp only [if_neg hne, hcode]
          rfl

/-! ## The slots are recovered -/

/-- The separator ends with its only slash, so it lies in a server or where it was put. -/
theorem not_infix_separator {text : Bytes} (h : ¬absoluteDocumentSeparator <:+: text) :
    ¬absoluteDocumentSeparator <:+: text ++ absoluteDocumentSeparator.dropLast := by
  have heq : absoluteDocumentSeparator = ascii "::" ++ [slash] := by decide
  intro hpart
  apply h
  rw [heq] at hpart ⊢
  exact infix_of_infix_append (by decide) hpart

/-- The text before the selector: the separator is found where it was put. -/
theorem cutSeq_server {text path : Bytes} (h : ¬absoluteDocumentSeparator <:+: text) :
    cutSeq absoluteDocumentSeparator (text ++ (ascii "::" ++ slash :: path)) = some (text, path) := by
  have hsep : ascii "::" ++ slash :: path = absoluteDocumentSeparator ++ path := by
    rw [show absoluteDocumentSeparator = ascii "::" ++ [slash] by decide]
    simp
  rw [hsep]
  exact cutSeq_append (by decide) (not_infix_separator h)

theorem exists_of_canonical {documentPath : Bytes} (h : isCanonicalDocumentPath documentPath = true) :
    ∃ rest, documentPath = slash :: rest := by
  cases documentPath with
  | nil => cases h
  | cons c rest =>
      refine ⟨rest, ?_⟩
      by_cases hc : c = slash
      · rw [hc]
      · simp [isCanonicalDocumentPath, hc] at h

theorem normalizeDocumentPath_of_canonical {documentPath : Bytes}
    (h : isCanonicalDocumentPath documentPath = true) :
    normalizeDocumentPath documentPath = .ok documentPath := by
  obtain ⟨rest, rfl⟩ := exists_of_canonical h
  simp [normalizeDocumentPath, h]

theorem cutSelector_append {before after : Bytes} (h : hash ∉ before) :
    cutSelector (before ++ hash :: after) = (before, some after) := by
  rw [cutSelector, cut_append h]

theorem cutDocument_append {text path : Bytes} (h : ¬absoluteDocumentSeparator <:+: text) :
    cutDocument (text ++ (ascii "::" ++ slash :: path)) = (text, some (slash :: path)) := by
  rw [cutDocument, cutSeq_server h]

/-- No hash is left of the selector. -/
theorem hash_notMem_cutSelector (payload : Bytes) : hash ∉ (cutSelector payload).1 := by
  unfold cutSelector
  cases hcut : cut hash payload with
  | none => exact cut_eq_none.mp hcut
  | some p => exact (cut_eq_some.mp hcut).2

/-- A document path that is found is a part of the text. -/
theorem mem_of_cutDocument {text path : Bytes} (h : (cutDocument text).2 = some path) :
    ∀ c ∈ path, c ∈ text := by
  unfold cutDocument at h
  cases hcut : cutSeq absoluteDocumentSeparator text with
  | none =>
      rw [hcut] at h
      cases h
  | some p =>
      rw [hcut] at h
      cases h
      have hsep : absoluteDocumentSeparator = ascii "::" ++ [slash] := by decide
      rw [eq_of_cutSeq hcut, hsep]
      intro c hc
      rcases List.mem_cons.mp hc with rfl | hc
      · simp
      · simp [hc]

theorem ite_eq_ok {ε α : Type} {c : Prop} [Decidable c] {a b : α} {e : ε} :
    (if c then .ok a else .error e : Except ε α) = .ok b ↔ c ∧ a = b := by
  by_cases hc : c <;> simp [hc]

theorem mem_of_normalizeDocumentPath {value documentPath : Bytes}
    (h : normalizeDocumentPath value = .ok documentPath) :
    ∀ c ∈ documentPath, c = slash ∨ c ∈ value := by
  unfold normalizeDocumentPath at h
  intro c hc
  by_cases hempty : value = []
  · rw [if_pos hempty] at h
    cases h
    exact .inl (by simpa [rootDocumentPath] using hc)
  · rw [if_neg hempty] at h
    obtain ⟨-, heq⟩ := ite_eq_ok.mp h
    rw [← heq] at hc
    split at hc
    · exact .inr hc
    · exact List.mem_cons.mp hc

theorem parseSlots_ok {withoutSelector : Bytes} {selector : Option Bytes} {parsed : Parsed}
    (h : parseSlots withoutSelector selector = .ok parsed) :
    ∃ code endpoint documentPath,
      parseServer (cutDocument withoutSelector).1 = .ok (code, endpoint) ∧
      ownedDocumentPath (cutDocument withoutSelector).2 = .ok documentPath ∧
      parsed = ⟨.absolute, code, endpoint, documentPath, selector⟩ := by
  obtain ⟨⟨code, endpoint⟩, hserver, hrest⟩ := bind_eq_ok.mp h
  obtain ⟨documentPath, hpath, heq⟩ := bind_eq_ok.mp hrest
  cases heq
  exact ⟨code, endpoint, documentPath, hserver, hpath, rfl⟩

/-- No document path of a descriptor has a hash. -/
theorem hash_notMem_documentPath {payload documentPath : Bytes} {parsed : Parsed}
    (h : parseAbsolute payload = .ok parsed) (hpath : parsed.documentPath = some documentPath) :
    hash ∉ documentPath := by
  have hfree := hash_notMem_cutSelector payload
  unfold parseAbsolute at h
  simp only at h
  split at h
  · cases h
    cases hpath
  · obtain ⟨code, endpoint, path, -, hnormalize, rfl⟩ := parseSlots_ok h
    cases hpath
    cases htext : (cutDocument (cutSelector payload).1).2 with
    | none =>
        rw [htext] at hnormalize
        cases hnormalize
    | some value =>
        rw [htext, ownedDocumentPath] at hnormalize
        cases hvalue : normalizeDocumentPath value with
        | error e =>
            rw [hvalue] at hnormalize
            cases hnormalize
        | ok path =>
            rw [hvalue] at hnormalize
            cases hnormalize
            intro hmem
            rcases mem_of_normalizeDocumentPath hvalue hash hmem with hslash | hmem
            · exact absurd hslash (by decide)
            · exact hfree (mem_of_cutDocument htext hash hmem)

theorem parse_absolute (payload : Bytes) :
    parse (ascii "trd://" ++ payload) = parseAbsolute payload := by
  have hprefix : ascii "trd://" ++ payload = ascii "trd:" ++ (ascii "//" ++ payload) := by
    rw [← List.append_assoc]
    rfl
  have hnone : afterPrefix [hash] (ascii "//" ++ payload) = none := by
    have hfirst : ascii "//" ++ payload = slash :: (slash :: payload) := rfl
    rw [hfirst, afterPrefix, if_neg]
    simp [hash, slash]
  rw [parse, hprefix, afterPrefix_append]
  simp only [hnone, afterPrefix_append]

/-- The text of a descriptor with all three slots. -/
def descriptorText (server documentPath selector : Bytes) : Bytes :=
  ascii "trd://" ++ (server ++ (ascii "::" ++ documentPath) ++ hash :: selector)

/-- The slots of a descriptor are recovered exactly when the document path has no hash; no other
content of a slot moves a separator. -/
theorem parse_recovers (server : Server) (documentPath selector : Bytes)
    (hhash : hash ∉ server.text) (hseparator : ¬absoluteDocumentSeparator <:+: server.text)
    (hcanonical : isCanonicalDocumentPath documentPath = true) :
    parse (descriptorText server.text documentPath selector) =
        .ok { kind := .absolute
              transportCode := server.code
              endpoint := server.endpointSlot
              documentPath := some documentPath
              selector := some selector } ↔
      hash ∉ documentPath := by
  obtain ⟨rest, rfl⟩ := exists_of_canonical hcanonical
  rw [descriptorText, parse_absolute]
  constructor
  · intro h
    exact hash_notMem_documentPath h rfl
  · intro hpath
    have hbefore : hash ∉ server.text ++ (ascii "::" ++ slash :: rest) := by
      have hcolons : hash ∉ ascii "::" := by decide
      simp only [List.mem_append, not_or]
      exact ⟨hhash, hcolons, hpath⟩
    have hne : server.text ++ (ascii "::" ++ slash :: rest) ≠ [] := by simp
    unfold parseAbsolute
    rw [cutSelector_append hbefore]
    simp only [if_neg hne]
    rw [parseSlots, cutDocument_append hseparator]
    simp only [parseServer_text, ownedDocumentPath, normalizeDocumentPath_of_canonical hcanonical]
    rfl

/-- The server `ht1|host.lan/rpc`. -/
def rpcServer : Server where
  code := some (ascii "ht1")
  endpoint := ascii "host.lan/rpc"
  known := by
    rintro name ⟨⟩
    decide
  plain := by
    rintro ⟨⟩

theorem parse_recovers_rpcServer :
    parse (descriptorText rpcServer.text (ascii "/builds/demo") (ascii "log")) =
        .ok { kind := .absolute
              transportCode := rpcServer.code
              endpoint := rpcServer.endpointSlot
              documentPath := some (ascii "/builds/demo")
              selector := some (ascii "log") } ↔
      hash ∉ ascii "/builds/demo" :=
  parse_recovers rpcServer (ascii "/builds/demo") (ascii "log") (by decide)
    (cutSeq_eq_none.mp (by decide)) (by decide +kernel)

/-- A document path that the daemon creates, and that no descriptor names: the text names another
document. -/
theorem parse_loses_hash :
    isCanonicalDocumentPath (ascii "/a#b") = true ∧
      parse (descriptorText (ascii "host") (ascii "/a#b") (ascii "n")) =
        .ok { kind := .absolute
              transportCode := none
              endpoint := some (ascii "host")
              documentPath := some (ascii "/a")
              selector := some (ascii "b#n") } := by
  decide +kernel

end Muxly.Resource
