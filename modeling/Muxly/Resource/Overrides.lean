/-
# Muxly.Resource.Overrides -- trust settings from the command line

`applySecureTransportOverrides`, which the client and the command line each have a copy of, parses a
transport spec, replaces trust settings of a secure address, and writes the address again. What is
written is parsed once more where the transport is opened, so a setting has to survive a query that
nothing in it is escaped in.
-/
import Muxly.Resource.RoundTrip

namespace Muxly.Resource

open Muxly.Core

/-! ## The two copies -/

/-- `SecureTransportOverrides`. -/
structure SecureTransportOverrides where
  tlsCaFile : Option Bytes
  tlsPinSha256 : Option Bytes
  tlsServerName : Option Bytes
  deriving DecidableEq

namespace SecureTransportOverrides

/-- No setting is overridden. -/
def isEmpty (overrides : SecureTransportOverrides) : Bool :=
  overrides.tlsCaFile = none && overrides.tlsPinSha256 = none && overrides.tlsServerName = none

/-- `applyOverridesToSecureHttpAddress` and `applyOverridesToH3wtAddress`, of the client and of the
command line. -/
def applyToAddress (overrides : SecureTransportOverrides) (https : SecureHttpAddress) :
    SecureHttpAddress :=
  let https := match overrides.tlsCaFile with
    | some value => { https with trust := { https.trust with caFile := some value } }
    | none => https
  let https := match overrides.tlsPinSha256 with
    | some value => { https with trust := { https.trust with certificateHash := some value } }
    | none => https
  match overrides.tlsServerName with
  | some value => { https with trust := { https.trust with serverName := some value } }
  | none => https

end SecureTransportOverrides

/-- `applySecureTransportOverrides` of `client.zig`; `none` is an error of the parser. -/
def Client.applySecureTransportOverrides (transportSpec : Bytes)
    (overrides : SecureTransportOverrides) : Option Bytes :=
  if overrides.isEmpty then some transportSpec
  else
    (Address.parse transportSpec).map fun address =>
      match address.target with
      | .https https => { address with target := .https (overrides.applyToAddress https) }.write
      | .https1 https => { address with target := .https1 (overrides.applyToAddress https) }.write
      | .https2 https => { address with target := .https2 (overrides.applyToAddress https) }.write
      | .h3wt h3wt => { address with target := .h3wt (overrides.applyToAddress h3wt) }.write
      | _ => transportSpec

/-- `applySecureTransportOverrides` of `target_arg.zig`. -/
def Cli.applySecureTransportOverrides (transportSpec : Bytes)
    (overrides : SecureTransportOverrides) : Option Bytes :=
  if overrides.isEmpty then some transportSpec
  else
    (Address.parse transportSpec).map fun address =>
      match address.target with
      | .https https => { address with target := .https (overrides.applyToAddress https) }.write
      | .https1 https => { address with target := .https1 (overrides.applyToAddress https) }.write
      | .https2 https => { address with target := .https2 (overrides.applyToAddress https) }.write
      | .h3wt h3wt => { address with target := .h3wt (overrides.applyToAddress h3wt) }.write
      | _ => transportSpec

/-! ## What an override means -/

/-- The settings with the overridden ones replaced. -/
def SecureTransportOverrides.replace (overrides : SecureTransportOverrides) (trust : Trust) : Trust where
  certificateHash := overrides.tlsPinSha256.or trust.certificateHash
  serverName := overrides.tlsServerName.or trust.serverName
  caFile := overrides.tlsCaFile.or trust.caFile

/-- A target with trust settings, and how it looks with others. -/
inductive Secure : Target → Trust → (Trust → Target) → Prop where
  | https (address : SecureHttpAddress) :
      Secure (.https address) address.trust fun trust => .https { address with trust := trust }
  | https1 (address : SecureHttpAddress) :
      Secure (.https1 address) address.trust fun trust => .https1 { address with trust := trust }
  | https2 (address : SecureHttpAddress) :
      Secure (.https2 address) address.trust fun trust => .https2 { address with trust := trust }
  | h3wt (address : H3wtAddress) :
      Secure (.h3wt address) address.trust fun trust => .h3wt { address with trust := trust }

/-- The text is that of the address with exactly the overridden settings replaced. -/
def ReadsOverridden (overrides : SecureTransportOverrides) (allowInsecureTcp : Bool) (trust : Trust)
    (withTrust : Trust → Target) (text : Option Bytes) : Prop :=
  text.bind Address.parse = some ⟨allowInsecureTcp, withTrust (overrides.replace trust)⟩

/-- The strings that are given. -/
def SecureTransportOverrides.values (overrides : SecureTransportOverrides) : List Bytes :=
  overrides.tlsPinSha256.toList ++ overrides.tlsServerName.toList ++ overrides.tlsCaFile.toList

theorem applyToAddress_eq (overrides : SecureTransportOverrides) (https : SecureHttpAddress) :
    overrides.applyToAddress https = { https with trust := overrides.replace https.trust } := by
  obtain ⟨caFile, pin, serverName⟩ := overrides
  cases caFile <;> cases pin <;> cases serverName <;> rfl

theorem replace_of_isEmpty {overrides : SecureTransportOverrides} (h : overrides.isEmpty = true)
    (trust : Trust) : overrides.replace trust = trust := by
  obtain ⟨caFile, pin, serverName⟩ := overrides
  simp only [SecureTransportOverrides.isEmpty, Bool.and_eq_true, decide_eq_true_eq] at h
  obtain ⟨⟨rfl, rfl⟩, rfl⟩ := h
  rfl

/-- The names of the settings have no ampersand. -/
theorem ampersand_notMem_entries {trust : Trust} :
    (∀ entry ∈ trust.entries, ampersand ∉ entry) ↔
      (∀ value ∈ trust.certificateHash, ampersand ∉ value) ∧
        (∀ value ∈ trust.serverName, ampersand ∉ value) ∧
        ∀ value ∈ trust.caFile, ampersand ∉ value := by
  have hsha256 : ampersand ∉ ascii "sha256=" := by decide
  have hsni : ampersand ∉ ascii "sni=" := by decide
  have hca : ampersand ∉ ascii "ca=" := by decide
  obtain ⟨certificateHash, serverName, caFile⟩ := trust
  cases certificateHash <;> cases serverName <;> cases caFile <;>
    simp [Trust.entries, hsha256, hsni, hca, or_imp, forall_and]

/-- Only an override brings an ampersand. -/
theorem ampersand_notMem_replace {overrides : SecureTransportOverrides} {trust : Trust}
    (h : ∀ entry ∈ trust.entries, ampersand ∉ entry) :
    (∀ entry ∈ (overrides.replace trust).entries, ampersand ∉ entry) ↔
      ∀ value ∈ overrides.values, ampersand ∉ value := by
  obtain ⟨hhash, hname, hfile⟩ := ampersand_notMem_entries.mp h
  rw [ampersand_notMem_entries]
  obtain ⟨caFile, pin, serverName⟩ := overrides
  cases caFile <;> cases pin <;> cases serverName <;>
    simp_all [SecureTransportOverrides.replace, SecureTransportOverrides.values]

/-! ## Reading the text again -/

/-- The kinds of secure targets differ in their scheme and in the path that they begin with. -/
structure SecureKind (make : SecureHttpAddress → Target) (scheme : Scheme) (defaultPath : Bytes) :
    Prop where
  inj : ∀ a b, make a = make b → a = b
  scheme_eq : ∀ a, (make a).scheme = scheme
  text_eq : ∀ a, (make a).text = a.text
  parse_eq : ∀ text,
    parseTarget scheme text = (parseSecureHttpLike text 443 defaultPath).map make
  default : defaultPath = rpcDefaultPath ∨ defaultPath = h3wtDefaultPath
  writesBack : ∀ text, TargetWritesBack scheme text =
    (AuthorityWritesBack (authorityOf text) ∧ question ∉ authorityOf text)

theorem SecureKind.parse_withTrust {make : SecureHttpAddress → Target} {scheme : Scheme}
    {defaultPath spec : Bytes} (hkind : SecureKind make scheme defaultPath) {allowInsecureTcp : Bool}
    {address : SecureHttpAddress} (h : Address.parse spec = some ⟨allowInsecureTcp, make address⟩) :
    (∀ entry ∈ address.trust.entries, ampersand ∉ entry) ∧ ∀ trust : Trust,
      (Address.parse (Address.write ⟨allowInsecureTcp, make { address with trust := trust }⟩) =
          some ⟨allowInsecureTcp, make { address with trust := trust }⟩ ↔
        SpecWritesBack spec ∧ ∀ entry ∈ trust.entries, ampersand ∉ entry) := by
  unfold Address.parse at h
  obtain ⟨target, htarget, heq⟩ := Option.map_eq_some_iff.mp h
  obtain ⟨-, rfl⟩ := Address.mk.inj heq
  have hscheme : (splitScheme (splitUnsafe spec).2).1 = scheme :=
    (parseTarget_text htarget).1.symm.trans (hkind.scheme_eq address)
  have hparsed : parseTarget scheme (splitScheme (splitUnsafe spec).2).2 = some (make address) := by
    rw [← hscheme]
    exact htarget
  rw [hkind.parse_eq, map_eq_some_map hkind.inj] at hparsed
  obtain ⟨_, _, -, -, htrust⟩ := of_parseSecureHttpLike hparsed
  refine ⟨ampersand_notMem_parseTrust htrust, fun trust => ?_⟩
  rw [parse_write, map_eq_some_map fun _ _ heq => (Address.mk.inj heq).2]
  dsimp only
  rw [hkind.scheme_eq, hkind.text_eq, hkind.parse_eq, map_eq_some_map hkind.inj, SpecWritesBack,
    hscheme, hkind.writesBack]
  exact parseSecureHttpLike_withTrust hkind.default hparsed trust

/-- The settings of a secure target come from a query. -/
theorem parse_withTrust {spec : Bytes} {allowInsecureTcp : Bool} {target : Target} {trust : Trust}
    {withTrust : Trust → Target} (hsecure : Secure target trust withTrust)
    (h : Address.parse spec = some ⟨allowInsecureTcp, target⟩) :
    (∀ entry ∈ trust.entries, ampersand ∉ entry) ∧ ∀ trust',
      (Address.parse (Address.write ⟨allowInsecureTcp, withTrust trust'⟩) =
          some ⟨allowInsecureTcp, withTrust trust'⟩ ↔
        SpecWritesBack spec ∧ ∀ entry ∈ trust'.entries, ampersand ∉ entry) := by
  cases hsecure with
  | https address =>
      have hkind : SecureKind .https .https rpcDefaultPath :=
        ⟨fun _ _ => Target.https.inj, fun _ => rfl, fun _ => rfl, fun _ => rfl, .inl rfl, fun _ => rfl⟩
      exact hkind.parse_withTrust h
  | https1 address =>
      have hkind : SecureKind .https1 .https1 rpcDefaultPath :=
        ⟨fun _ _ => Target.https1.inj, fun _ => rfl, fun _ => rfl, fun _ => rfl, .inl rfl, fun _ => rfl⟩
      exact hkind.parse_withTrust h
  | https2 address =>
      have hkind : SecureKind .https2 .https2 rpcDefaultPath :=
        ⟨fun _ _ => Target.https2.inj, fun _ => rfl, fun _ => rfl, fun _ => rfl, .inl rfl, fun _ => rfl⟩
      exact hkind.parse_withTrust h
  | h3wt address =>
      have hkind : SecureKind .h3wt .h3wt h3wtDefaultPath :=
        ⟨fun _ _ => Target.h3wt.inj, fun _ => rfl, fun _ => rfl, fun _ => rfl, .inr rfl, fun _ => rfl⟩
      exact hkind.parse_withTrust h

/-- What the overrides make of a spec with a secure address. -/
theorem applySecureTransportOverrides_secure {spec : Bytes} {allowInsecureTcp : Bool}
    {target : Target} {trust : Trust} {withTrust : Trust → Target}
    (hsecure : Secure target trust withTrust)
    (h : Address.parse spec = some ⟨allowInsecureTcp, target⟩) (overrides : SecureTransportOverrides) :
    Client.applySecureTransportOverrides spec overrides =
      if overrides.isEmpty then some spec
      else some (Address.write ⟨allowInsecureTcp, withTrust (overrides.replace trust)⟩) := by
  unfold Client.applySecureTransportOverrides
  rw [h]
  cases hsecure <;> simp only [Option.map_some, applyToAddress_eq]

/-- The copies agree. A spec that is not secure is left as it is, and one that no transport parses is
refused if there is anything to override. The settings of a secure one arrive exactly when there is
nothing to override, or the spec is one that is written back and no override has an ampersand. -/
theorem overrides_iff (spec : Bytes) (overrides : SecureTransportOverrides) :
    Client.applySecureTransportOverrides spec overrides =
        Cli.applySecureTransportOverrides spec overrides ∧
      (Address.parse spec = none → Client.applySecureTransportOverrides spec overrides =
        if overrides.isEmpty then some spec else none) ∧
      ∀ allowInsecureTcp target, Address.parse spec = some ⟨allowInsecureTcp, target⟩ →
        (∀ trust withTrust, Secure target trust withTrust →
          (ReadsOverridden overrides allowInsecureTcp trust withTrust
              (Client.applySecureTransportOverrides spec overrides) ↔
            overrides.isEmpty = true ∨
              SpecWritesBack spec ∧ ∀ value ∈ overrides.values, ampersand ∉ value)) ∧
        ((∀ trust withTrust, ¬ Secure target trust withTrust) →
          Client.applySecureTransportOverrides spec overrides = some spec) := by
  refine ⟨rfl, fun hnone => ?_, fun allowInsecureTcp target h => ⟨?_, fun hplain => ?_⟩⟩
  · rw [Client.applySecureTransportOverrides, hnone]
    rfl
  · intro trust withTrust hsecure
    obtain ⟨hentries, hread⟩ := parse_withTrust hsecure h
    rw [applySecureTransportOverrides_secure hsecure h]
    by_cases hempty : overrides.isEmpty = true
    · -- Nothing to override: the spec stays as it is, whether or not it would be written back.
      have hself : withTrust trust = target := by cases hsecure <;> rfl
      refine ⟨fun _ => .inl hempty, fun _ => ?_⟩
      rw [if_pos hempty, ReadsOverridden, Option.bind_some, replace_of_isEmpty hempty, hself, h]
    · -- The ampersand is what ends a setting, and the settings of the spec have none.
      rw [if_neg hempty, ReadsOverridden, Option.bind_some, hread, ampersand_notMem_replace hentries,
        or_iff_right hempty]
  · unfold Client.applySecureTransportOverrides
    rw [h]
    split
    · rfl
    · cases target with
      | https address => exact absurd (Secure.https address) (hplain _ _)
      | https1 address => exact absurd (Secure.https1 address) (hplain _ _)
      | https2 address => exact absurd (Secure.https2 address) (hplain _ _)
      | h3wt address => exact absurd (Secure.h3wt address) (hplain _ _)
      | _ => rfl

theorem overrides_iff_pin :
    ReadsOverridden ⟨none, some (ascii "ab"), none⟩ false ⟨none, none, none⟩
        (fun trust => .https ⟨ascii "host", 443, ascii "/rpc", trust⟩)
        (Client.applySecureTransportOverrides (ascii "https://host/rpc")
          ⟨none, some (ascii "ab"), none⟩) ↔
      SecureTransportOverrides.isEmpty ⟨none, some (ascii "ab"), none⟩ = true ∨
        SpecWritesBack (ascii "https://host/rpc") ∧
          ∀ value ∈ SecureTransportOverrides.values ⟨none, some (ascii "ab"), none⟩,
            ampersand ∉ value :=
  ((overrides_iff (ascii "https://host/rpc") ⟨none, some (ascii "ab"), none⟩).2.2 false
      (.https ⟨ascii "host", 443, ascii "/rpc", ⟨none, none, none⟩⟩) (by decide +kernel)).1 _ _
    (.https ⟨ascii "host", 443, ascii "/rpc", ⟨none, none, none⟩⟩)

/-- A CA file with an ampersand in its name: the spec that is written is refused. -/
theorem ampersand_breaks_override :
    Address.parse (ascii "https://host/rpc") =
        some ⟨false, .https ⟨ascii "host", 443, ascii "/rpc", ⟨none, none, none⟩⟩⟩ ∧
      Client.applySecureTransportOverrides (ascii "https://host/rpc")
          ⟨some (ascii "/etc/a&b.pem"), none, none⟩ =
        some (ascii "https://host:443/rpc?ca=/etc/a&b.pem") ∧
      Address.parse (ascii "https://host:443/rpc?ca=/etc/a&b.pem") = none ∧
      ¬ ∀ (spec : Bytes) (overrides : SecureTransportOverrides) (allowInsecureTcp : Bool)
        (target : Target) (trust : Trust) (withTrust : Trust → Target),
        Secure target trust withTrust → Address.parse spec = some ⟨allowInsecureTcp, target⟩ →
        ReadsOverridden overrides allowInsecureTcp trust withTrust
          (Client.applySecureTransportOverrides spec overrides) := by
  have hparse : Address.parse (ascii "https://host/rpc") =
      some ⟨false, .https ⟨ascii "host", 443, ascii "/rpc", ⟨none, none, none⟩⟩⟩ := by
    decide +kernel
  have hwritten : Client.applySecureTransportOverrides (ascii "https://host/rpc")
      ⟨some (ascii "/etc/a&b.pem"), none, none⟩ =
        some (ascii "https://host:443/rpc?ca=/etc/a&b.pem") := by decide +kernel
  have hrefused : Address.parse (ascii "https://host:443/rpc?ca=/etc/a&b.pem") = none := by
    decide +kernel
  refine ⟨hparse, hwritten, hrefused, fun hall => ?_⟩
  have hread := hall _ ⟨some (ascii "/etc/a&b.pem"), none, none⟩ _ _ _ _ (.https _) hparse
  rw [ReadsOverridden, hwritten, Option.bind_some, hrefused] at hread
  cases hread

end Muxly.Resource
