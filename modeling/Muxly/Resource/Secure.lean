/-
# Muxly.Resource.Secure -- secure descriptors and the transports they stand for

`parse` of `trds.zig`: an authority, a path with trust settings, a document path and a selector. What
is parsed is rendered as a transport spec by `parsedTransportSpec`, and by the client through
`Address.write`; the transport parser has to find in it what the descriptor parser found.
-/
import Muxly.Resource.Descriptor
import Muxly.Resource.RoundTrip

namespace Muxly.Resource.Secure

open Muxly.Core Muxly.Data
open Muxly.Daemon (isCanonicalDocumentPath rootDocumentPath)

/-! ## Parsing -/

/-- `SecureTransportCode`. -/
inductive SecureTransportCode where
  | auto
  | wtp
  | htp
  | ht3
  | ht2
  | ht1
  deriving DecidableEq

/-- `SecureTransportCode.parse`. -/
def SecureTransportCode.parse (text : Bytes) : Option SecureTransportCode :=
  if text = [] then some .auto
  else if text = ascii "wtp" then some .wtp
  else if text = ascii "htp" then some .htp
  else if text = ascii "ht3" then some .ht3
  else if text = ascii "ht2" then some .ht2
  else if text = ascii "ht1" then some .ht1
  else none

/-- `Parsed`. -/
structure Parsed where
  transportCode : SecureTransportCode
  host : Bytes
  port : UInt16
  httpsPath : Bytes
  documentPath : Bytes
  selector : Option Bytes
  certificateHash : Option Bytes
  serverName : Option Bytes
  caFile : Option Bytes
  deriving DecidableEq

/-- `default_https_port`. -/
def defaultHttpsPort : UInt16 := 443

/-- `default_https_path`. -/
def defaultHttpsPath : Bytes := ascii "/rpc"

/-- `splitHostPort`. -/
def splitHostPort (authority : Bytes) : Option (Bytes × UInt16) :=
  match authority with
  | [] => none
  | c :: rest =>
    if c = openBracket then
      match cut closeBracket rest with
      | none => none
      | some (host, []) => some (host, defaultHttpsPort)
      | some (host, d :: portText) =>
        if d ≠ colon then none else (parseU16 portText).map fun port => (host, port)
    else
      match cut colon authority with
      | none => some (authority, defaultHttpsPort)
      | some (host, portText) =>
        if colon ∈ portText then none else (parseU16 portText).map fun port => (host, port)

/-- `normalizeHttpsPathOwned`. -/
def normalizeHttpsPath (value : Bytes) : Option Bytes :=
  if value = [] then some defaultHttpsPath
  else if value.head? ≠ some slash then none
  else if value.getLast? = some slash ∧ 1 < value.length then none
  else if (cutSeq (ascii "//") value).isSome then none
  else some value

/-- One entry of the query of `parseHttpsPathAndTrust`; a CA file is refused with all the rest. -/
def shareEntry (trust : Trust) (entry : Bytes) : Option Trust :=
  if entry = [] then some trust
  else
    match afterPrefix (ascii "sha256=") entry with
    | some value =>
      if trust.certificateHash.isSome then none else some { trust with certificateHash := value }
    | none =>
      match afterPrefix (ascii "sni=") entry with
      | some value =>
        if trust.serverName.isSome then none else some { trust with serverName := value }
      | none => none

/-- `parseHttpsPathAndTrust`. -/
def parseHttpsPathAndTrust (value : Bytes) : Option (Bytes × Trust) :=
  let (pathText, query) := match cut question value with
    | some (before, after) => (before, after)
    | none => (value, [])
  (normalizeHttpsPath pathText).bind fun httpsPath =>
    (if query = [] then some ⟨none, none, none⟩
      else (query.splitOn ampersand).foldlM shareEntry ⟨none, none, none⟩).map fun trust =>
        (httpsPath, trust)

/-- `normalizeDocumentPathOwned`. -/
def normalizeDocumentPath (value : Bytes) : Option Bytes :=
  if value = [] then some rootDocumentPath
  else
    let documentPath := if value.head? = some slash then value else slash :: value
    if documentPath ≠ rootDocumentPath ∧
        (documentPath.getLast? = some slash ∨ (cutSeq (ascii "//") documentPath).isSome) then none
    else if ((documentPath.splitOn slash).filter (· ≠ [])).any fun segment =>
        segment = ascii "." || segment = ascii ".." then none
    else some documentPath

/-- The parts of a descriptor. -/
structure Pieces where
  codeText : Option Bytes
  authority : Bytes
  rawPath : Bytes
  documentText : Option Bytes
  selector : Option Bytes

/-- The transport code left of the first `|`, and what is right of it. -/
def cutCode (text : Bytes) : Option Bytes × Bytes :=
  match cut pipe text with
  | some (code, rest) => (some code, rest)
  | none => (none, text)

/-- The authority left of the first `/`, and the path from there on. -/
def cutPath (text : Bytes) : Bytes × Bytes :=
  match cut slash text with
  | some (authority, path) => (authority, slash :: path)
  | none => (text, defaultHttpsPath)

/-- Where `parse` cuts what follows `trds://`: at the first `#`, at the first `::/` before it, at the
first `|` before that and at the first `/` after that. -/
def splitDescriptor (payload : Bytes) : Pieces :=
  let (withoutSelector, selector) := cutSelector payload
  let (authorityAndPath, documentText) := cutDocument withoutSelector
  let (codeText, rest) := cutCode authorityAndPath
  let (authority, rawPath) := cutPath rest
  ⟨codeText, authority, rawPath, documentText, selector⟩

/-- The transport code of a descriptor. -/
def codeOf : Option Bytes → Option SecureTransportCode
  | some text => SecureTransportCode.parse text
  | none => some .auto

/-- The document path of a descriptor. -/
def documentPathOf : Option Bytes → Option Bytes
  | some value => normalizeDocumentPath value
  | none => some rootDocumentPath

/-- What `parse` makes of the parts. An empty authority is refused where it is split. -/
def parsePieces (pieces : Pieces) : Option Parsed := do
  let transportCode ← codeOf pieces.codeText
  let (host, port) ← splitHostPort pieces.authority
  let (httpsPath, trust) ← parseHttpsPathAndTrust pieces.rawPath
  let documentPath ← documentPathOf pieces.documentText
  some
    { transportCode, host, port, httpsPath, documentPath
      selector := pieces.selector
      certificateHash := trust.certificateHash
      serverName := trust.serverName
      caFile := none }

/-- `parse`; `none` is an error. -/
def parse (text : Bytes) : Option Parsed :=
  (afterPrefix (ascii "trds://") text).bind fun payload => parsePieces (splitDescriptor payload)

/-! ## Rendering -/

/-- The trust settings of a descriptor. -/
def Parsed.trust (parsed : Parsed) : Trust :=
  ⟨parsed.certificateHash, parsed.serverName, parsed.caFile⟩

/-- `parsedTransportSpec`. -/
def parsedTransportSpec (parsed : Parsed) : Option Bytes :=
  let scheme := match parsed.transportCode with
    | .wtp => some (ascii "h3wt")
    | .htp => some (ascii "https")
    | .ht2 => some (ascii "https2")
    | .ht1 => some (ascii "https1")
    | .auto | .ht3 => none
  scheme.map fun scheme =>
    scheme ++ ascii "://" ++ hostPortText parsed.host parsed.port ++ parsed.httpsPath ++
      queryText parsed.trust.entries

/-- `buildSecureHttpAddressFromTrds` and `buildH3wtAddressFromTrds`. -/
def buildAddressFromTrds (parsed : Parsed) : SecureHttpAddress :=
  { host := parsed.host
    port := parsed.port
    path := parsed.httpsPath
    trust := ⟨parsed.certificateHash, parsed.serverName, none⟩ }

/-- The targets that `resolveTrdsParsedTransportSpec` renders without overrides. For the default code
it tries the first and falls back on the second. -/
def clientTargets (parsed : Parsed) : List Target :=
  match parsed.transportCode with
  | .ht1 => [.https1 (buildAddressFromTrds parsed)]
  | .ht2 => [.https2 (buildAddressFromTrds parsed)]
  | .htp => [.https (buildAddressFromTrds parsed)]
  | .wtp => [.h3wt (buildAddressFromTrds parsed)]
  | .auto => [.h3wt (buildAddressFromTrds parsed), .https (buildAddressFromTrds parsed)]
  | .ht3 => []

/-- The transport specs that a descriptor is rendered as. -/
def renderedSpecs (parsed : Parsed) : List Bytes :=
  (parsedTransportSpec parsed).toList ++
    (clientTargets parsed).map fun target => Address.write ⟨false, target⟩

end Muxly.Resource.Secure
