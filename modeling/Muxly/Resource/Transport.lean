/-
# Muxly.Resource.Transport -- transport addresses as text

`Address.parse` and `Address.write` of `transport.zig`. A spec names a scheme; what follows it is a
path of the file system, a host and a port, an SSH destination, or an authority with a path and a
query of trust settings.
-/
import Muxly.Core.Text
import Muxly.Data.Cut

namespace Muxly.Resource

open Muxly.Core Muxly.Data

/-! ## Characters -/

/-- `':'`. -/
def colon : UInt8 := 58

/-- `'['`. -/
def openBracket : UInt8 := 91

/-- `']'`. -/
def closeBracket : UInt8 := 93

/-- `'?'`. -/
def question : UInt8 := 63

/-- `'&'`. -/
def ampersand : UInt8 := 38

/-! ## Addresses -/

/-- `TcpAddress`. -/
structure TcpAddress where
  host : Bytes
  port : UInt16
  deriving DecidableEq

/-- `SshAddress`. -/
structure SshAddress where
  destination : Bytes
  port : Option UInt16
  remoteSpec : Bytes
  deriving DecidableEq

/-- `HttpAddress`. -/
structure HttpAddress where
  host : Bytes
  port : UInt16
  path : Bytes
  deriving DecidableEq

/-- `H2Address`. -/
abbrev H2Address := HttpAddress

/-- The trust settings of a secure address. -/
structure Trust where
  certificateHash : Option Bytes
  serverName : Option Bytes
  caFile : Option Bytes
  deriving DecidableEq

/-- `SecureHttpAddress`. -/
structure SecureHttpAddress where
  host : Bytes
  port : UInt16
  path : Bytes
  trust : Trust
  deriving DecidableEq

/-- `H3wtAddress`. -/
abbrev H3wtAddress := SecureHttpAddress

/-- `Target`. -/
inductive Target where
  | unix (path : Bytes)
  | tcp (address : TcpAddress)
  | ssh (address : SshAddress)
  | http (address : HttpAddress)
  | h2 (address : H2Address)
  | https (address : SecureHttpAddress)
  | https1 (address : SecureHttpAddress)
  | https2 (address : SecureHttpAddress)
  | h3wt (address : H3wtAddress)
  deriving DecidableEq

/-- `Address`. -/
structure Address where
  allowInsecureTcp : Bool
  target : Target
  deriving DecidableEq

/-! ## Hosts and ports -/

/-- `std.fmt.parseInt(u16, _, 10)`. -/
def parseU16 (text : Bytes) : Option UInt16 :=
  ((parseUnsigned text).filter (· < 2 ^ 16)).map UInt16.ofNat

/-- `parsePort`. -/
def parsePort (portText : Bytes) (allowZero : Bool) : Option UInt16 :=
  (parseU16 portText).filter fun port => allowZero || port ≠ 0

/-- `splitHostPortWithDefault`. -/
def splitHostPortWithDefault (spec : Bytes) (defaultPort : Option UInt16) (allowZero : Bool) :
    Option (Bytes × UInt16) :=
  match spec with
  | [] => none
  | c :: rest =>
    if c = openBracket then
      match cut closeBracket rest with
      | none => none
      | some (host, []) => defaultPort.map fun port => (host, port)
      | some (host, d :: portText) =>
        if d ≠ colon then none else (parsePort portText allowZero).map fun port => (host, port)
    else
      match cutLast colon spec with
      | none => defaultPort.map fun port => (spec, port)
      | some (host, portText) =>
        if host = [] then none else (parsePort portText allowZero).map fun port => (host, port)

/-- `splitHostPort`. -/
def splitHostPort (spec : Bytes) : Option (Bytes × UInt16) :=
  splitHostPortWithDefault spec none false

/-- `splitHostPortAllowZero`. -/
def splitHostPortAllowZero (spec : Bytes) (defaultPort : Option UInt16) :
    Option (Bytes × UInt16) :=
  splitHostPortWithDefault spec defaultPort true

/-- How the writers put a host and a port: with brackets where the host has a colon. -/
def hostPortText (host : Bytes) (port : UInt16) : Bytes :=
  (if colon ∈ host then openBracket :: (host ++ [closeBracket]) else host) ++
    colon :: decimal port.toNat

/-! ## Specs with a path -/

/-- The authority, the path and the query of a spec. A `?` left of the first `/` begins the query
but does not end the authority. -/
def splitSpec (spec defaultPath : Bytes) : Bytes × Bytes × Bytes :=
  match cut slash spec with
  | some (authority, afterSlash) =>
    match cut question spec with
    | some (beforeQuestion, query) =>
      (authority,
        if authority.length < beforeQuestion.length then beforeQuestion.drop authority.length
        else defaultPath,
        query)
    | none => (authority, slash :: afterSlash, [])
  | none =>
    match cut question spec with
    | some (authority, query) => (authority, defaultPath, query)
    | none => (spec, defaultPath, [])

/-- One entry of the query of `parseHttpLike`. -/
def hashEntry (sha256 : Option Bytes) (entry : Bytes) : Option (Option Bytes) :=
  if entry = [] then some sha256 else (afterPrefix (ascii "sha256=") entry).map some

/-- `parseHttpLike`. -/
def parseHttpLike (spec : Bytes) (defaultPort : UInt16) (defaultPath : Bytes)
    (allowHashQuery : Bool) : Option (HttpAddress × Option Bytes) :=
  let (authority, path, query) := splitSpec spec defaultPath
  (splitHostPortAllowZero authority (some defaultPort)).bind fun (host, port) =>
    (if query = [] then some none
      else if allowHashQuery then (query.splitOn ampersand).foldlM hashEntry none
      else none).map fun sha256 => (⟨host, port, path⟩, sha256)

/-- One entry of the query of `parseSecureHttpLike`. -/
def Trust.entry (trust : Trust) (entry : Bytes) : Option Trust :=
  if entry = [] then some trust
  else
    match afterPrefix (ascii "sha256=") entry with
    | some value =>
      if trust.certificateHash.isSome then none else some { trust with certificateHash := value }
    | none =>
      match afterPrefix (ascii "sni=") entry with
      | some value =>
        if trust.serverName.isSome then none else some { trust with serverName := value }
      | none =>
        match afterPrefix (ascii "ca=") entry with
        | some value => if trust.caFile.isSome then none else some { trust with caFile := value }
        | none => none

/-- The query of `parseSecureHttpLike`. -/
def parseTrust (query : Bytes) : Option Trust :=
  if query = [] then some ⟨none, none, none⟩
  else (query.splitOn ampersand).foldlM Trust.entry ⟨none, none, none⟩

/-- `parseSecureHttpLike`. -/
def parseSecureHttpLike (spec : Bytes) (defaultPort : UInt16) (defaultPath : Bytes) :
    Option SecureHttpAddress :=
  let (authority, path, query) := splitSpec spec defaultPath
  (splitHostPortAllowZero authority (some defaultPort)).bind fun (host, port) =>
    (parseTrust query).map fun trust => ⟨host, port, path, trust⟩

/-! ## SSH destinations -/

/-- What stands up to the last `@`, and the host part after it. -/
def splitUser (spec : Bytes) : Bytes × Bytes :=
  match cutLast atSign spec with
  | some (user, hostPart) => (user ++ [atSign], hostPart)
  | none => ([], spec)

/-- `parseSshDestination`. -/
def parseSshDestination (spec : Bytes) : Option (Bytes × Option UInt16) :=
  let (user, hostPart) := splitUser spec
  match hostPart with
  | [] => none
  | c :: rest =>
    if c = openBracket then
      match cut closeBracket rest with
      | none => none
      | some (_, []) => some (spec, none)
      | some (inside, d :: portText) =>
        if d ≠ colon then none
        else (parsePort portText false).map fun port =>
          (user ++ openBracket :: (inside ++ [closeBracket]), some port)
    else
      match cutLast colon hostPart with
      | none => some (spec, none)
      | some (host, portText) =>
        if colon ∈ host then some (spec, none)
        else (parsePort portText false).map fun port => (user ++ host, some port)

/-! ## Specs -/

/-- `http_default_path` and its siblings. -/
def rpcDefaultPath : Bytes := ascii "/rpc"

/-- `h3wt_default_path`. -/
def h3wtDefaultPath : Bytes := ascii "/mux"

/-- `parseTcp`. -/
def parseTcp (spec : Bytes) : Option TcpAddress :=
  (splitHostPort spec).map fun (host, port) => ⟨host, port⟩

/-- The destination and the remote spec of an SSH spec. -/
def splitRemote (spec : Bytes) : Bytes × Bytes :=
  match cut slash spec with
  | some (destination, remoteSpec) => (destination, remoteSpec)
  | none => (spec, [])

/-- `parseSsh`. -/
def parseSsh (spec : Bytes) : Option SshAddress :=
  let (destination, remoteSpec) := splitRemote spec
  if destination = [] then none
  else (parseSshDestination destination).map fun (destination, port) =>
    ⟨destination, port, remoteSpec⟩

/-- `parseHttp` and `parseH2`. -/
def parseHttp (spec : Bytes) : Option HttpAddress :=
  (parseHttpLike spec 80 rpcDefaultPath false).map fun (address, _) => address

/-- `parseHttps`, `parseHttps1` and `parseHttps2`. -/
def parseHttps (spec : Bytes) : Option SecureHttpAddress :=
  parseSecureHttpLike spec 443 rpcDefaultPath

/-- `parseH3wt`. -/
def parseH3wt (spec : Bytes) : Option H3wtAddress :=
  parseSecureHttpLike spec 443 h3wtDefaultPath

/-- The kinds of spec. -/
inductive Scheme where
  | tcp
  | ssh
  | http
  | h2
  | https
  | https1
  | https2
  | h3wt
  | unix
  deriving DecidableEq

/-- What a spec can begin with, in the order of the comparisons. -/
def schemes : List (Bytes × Scheme) :=
  [(ascii "tcp://", .tcp), (ascii "ssh://", .ssh), (ascii "http://", .http), (ascii "h2://", .h2),
    (ascii "https://", .https), (ascii "https1://", .https1), (ascii "https2://", .https2),
    (ascii "h3wt://", .h3wt), (ascii "wt://", .h3wt), (ascii "unix://", .unix),
    (ascii "unix:", .unix)]

/-- The scheme of a spec, and what follows it. A spec without a scheme is a path. -/
def splitScheme (spec : Bytes) : Scheme × Bytes :=
  (schemes.findSome? fun (text, scheme) =>
    (afterPrefix text spec).map fun rest => (scheme, rest)).getD (.unix, spec)

/-- What follows the scheme. -/
def parseTarget (scheme : Scheme) (spec : Bytes) : Option Target :=
  match scheme with
  | .tcp => (parseTcp spec).map .tcp
  | .ssh => (parseSsh spec).map .ssh
  | .http => (parseHttp spec).map .http
  | .h2 => (parseHttp spec).map .h2
  | .https => (parseHttps spec).map .https
  | .https1 => (parseHttps spec).map .https1
  | .https2 => (parseHttps spec).map .https2
  | .h3wt => (parseH3wt spec).map .h3wt
  | .unix => some (.unix spec)

/-- `unsafe_tcp_prefix`. -/
def unsafeTcpPrefix : Bytes := ascii "unsafe+"

/-- Whether a spec begins with `unsafe+`, and what follows. -/
def splitUnsafe (spec : Bytes) : Bool × Bytes :=
  match afterPrefix unsafeTcpPrefix spec with
  | some trimmed => (true, trimmed)
  | none => (false, spec)

/-- `Address.parse`. -/
def Address.parse (spec : Bytes) : Option Address :=
  let (allowInsecureTcp, trimmed) := splitUnsafe spec
  let (scheme, rest) := splitScheme trimmed
  (parseTarget scheme rest).map fun target => ⟨allowInsecureTcp, target⟩

/-! ## Writing -/

/-- The entries of the query: the settings that are there, in the order in which they are written. -/
def Trust.entries (trust : Trust) : List Bytes :=
  (trust.certificateHash.map (ascii "sha256=" ++ ·)).toList ++
    (trust.serverName.map (ascii "sni=" ++ ·)).toList ++
    (trust.caFile.map (ascii "ca=" ++ ·)).toList

/-- The query: `?` before the first entry, `&` before the others. -/
def queryText : List Bytes → Bytes
  | [] => []
  | entry :: entries => question :: [ampersand].intercalate (entry :: entries)

/-- `writeTcpSpec`, after the scheme. -/
def TcpAddress.text (address : TcpAddress) : Bytes := hostPortText address.host address.port

/-- The port of an SSH destination. -/
def sshPortText : Option UInt16 → Bytes
  | some port => colon :: decimal port.toNat
  | none => []

/-- The SSH destination of `Address.write`, after the scheme. -/
def SshAddress.text (address : SshAddress) : Bytes :=
  address.destination ++ sshPortText address.port ++
    (if address.remoteSpec = [] then [] else slash :: address.remoteSpec)

/-- `writeHttpLikeSpec` without a hash, after the scheme. -/
def HttpAddress.text (address : HttpAddress) : Bytes :=
  hostPortText address.host address.port ++ address.path

/-- `writeSecureHttpSpec` and `writeSecureH3wtSpec`, after the scheme. -/
def SecureHttpAddress.text (address : SecureHttpAddress) : Bytes :=
  hostPortText address.host address.port ++ address.path ++ queryText address.trust.entries

/-- What is written of a target. -/
def Target.write : Target → Bytes
  | .unix path => ascii "unix://" ++ path
  | .tcp address => ascii "tcp://" ++ address.text
  | .ssh address => ascii "ssh://" ++ address.text
  | .http address => ascii "http://" ++ address.text
  | .h2 address => ascii "h2://" ++ address.text
  | .https address => ascii "https://" ++ address.text
  | .https1 address => ascii "https1://" ++ address.text
  | .https2 address => ascii "https2://" ++ address.text
  | .h3wt address => ascii "h3wt://" ++ address.text

/-- `Address.write`. -/
def Address.write (address : Address) : Bytes :=
  (if address.allowInsecureTcp then unsafeTcpPrefix else []) ++ address.target.write

end Muxly.Resource
