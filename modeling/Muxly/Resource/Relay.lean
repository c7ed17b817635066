/-
# Muxly.Resource.Relay -- the SSH session that relays a transport

`ProcessSession.initSsh` of `transport.zig` starts `ssh` with a destination and a command for the
remote shell. The remote spec is quoted for that shell. The destination is an argument of the local
`ssh`, which takes what begins with a dash for an option.
-/
import Muxly.Data.ShellWords
import Muxly.Resource.RoundTrip

namespace Muxly.Resource

open Muxly.Core Muxly.Data Muxly.Data.ShellWords

/-! ## The command -/

/-- `unsafe_tcp_flag`. -/
def unsafeTcpFlag : Bytes := ascii "--i-know-this-is-unencrypted-and-unauthenticated"

/-- What `appendShellSingleQuoted` writes of one byte. -/
def quotedByte (byte : UInt8) : Bytes :=
  if byte = singleQuote then [singleQuote, doubleQuote, singleQuote, doubleQuote, singleQuote]
  else [byte]

/-- `appendShellSingleQuoted`. -/
def appendShellSingleQuoted (value : Bytes) : Bytes :=
  singleQuote :: value.flatMap quotedByte ++ [singleQuote]

/-- `buildRemoteRelayCommand`. -/
def buildRemoteRelayCommand (remoteSpec : Bytes) (allowInsecureTcp : Bool) : Bytes :=
  ascii "exec muxly" ++
    (if remoteSpec.length > 0 then ascii " --transport " ++ appendShellSingleQuoted remoteSpec
      else []) ++
    (if allowInsecureTcp then ascii " " ++ unsafeTcpFlag else []) ++
    ascii " transport relay"

/-- The arguments that `initSsh` spawns; `sshConfigPath` is `MUXLY_SSH_CONFIG`. -/
def initSsh (sshConfigPath : Option Bytes) (ssh : SshAddress) (allowInsecureTcp : Bool) :
    List Bytes :=
  [ascii "ssh", ascii "-T"] ++
    (match sshConfigPath with
      | some path => [ascii "-F", path]
      | none => []) ++
    (match ssh.port with
      | some port => [ascii "-p", decimal port.toNat]
      | none => []) ++
    [ssh.destination, buildRemoteRelayCommand ssh.remoteSpec allowInsecureTcp]

/-! ## What the remote shell reads -/

/-- The words that the remote shell has to read. -/
def relayWords (remoteSpec : Bytes) (allowInsecureTcp : Bool) : List Bytes :=
  [ascii "exec", ascii "muxly"] ++
    (if remoteSpec = [] then [] else [ascii "--transport", remoteSpec]) ++
    (if allowInsecureTcp then [unsafeTcpFlag] else []) ++
    [ascii "transport", ascii "relay"]

/-- A value between quotes is read as the value. -/
theorem readWords_flatMap_quotedByte (value word rest : Bytes) :
    readWords .single word (value.flatMap quotedByte ++ rest) =
      readWords .single (word ++ value) rest := by
  induction value generalizing word with
  | nil => simp
  | cons c value ih =>
      have hword : word ++ [c] ++ value = word ++ c :: value := by simp
      rw [List.flatMap_cons, List.append_assoc]
      by_cases hc : c = singleQuote
      · subst hc
        rw [quotedByte, if_pos rfl, ← hword, ← ih]
        exact readWords_single_quote
      · rw [quotedByte, if_neg hc, List.singleton_append, readWords_single_cons hc, ih, hword]

/-- A quoted value is one word. -/
theorem splitWords_quoted (value rest : Bytes) :
    splitWords (appendShellSingleQuoted value ++ space :: rest) =
      (splitWords rest).map (value :: ·) := by
  rw [appendShellSingleQuoted, List.append_assoc, List.cons_append, splitWords_open,
    readWords_flatMap_quotedByte, List.singleton_append, readWords_single_close,
    readWords_bare_space]
  rfl

/-- Every byte string is relayed as one word, and nothing else is in the command. -/
theorem splitWords_command (remoteSpec : Bytes) (allowInsecureTcp : Bool) :
    splitWords (buildRemoteRelayCommand remoteSpec allowInsecureTcp) =
      some (relayWords remoteSpec allowInsecureTcp) := by
  have htail : splitWords (ascii "transport relay") = some [ascii "transport", ascii "relay"] := by
    decide +kernel
  -- The flag, if there is one, and the subcommand.
  have hflag : ∃ rest, (if allowInsecureTcp then ascii " " ++ unsafeTcpFlag else []) ++
        ascii " transport relay" = space :: rest ∧
      splitWords rest = some ((if allowInsecureTcp then [unsafeTcpFlag] else []) ++
        [ascii "transport", ascii "relay"]) := by
    cases allowInsecureTcp with
    | false => exact ⟨ascii "transport relay", rfl, htail⟩
    | true =>
        refine ⟨unsafeTcpFlag ++ space :: ascii "transport relay", rfl, ?_⟩
        rw [splitWords_cons (by decide) (by decide +kernel), htail]
        rfl
  obtain ⟨rest, hrest, hwords⟩ := hflag
  have hexec : ∀ text, splitWords (ascii "exec muxly" ++ space :: text) =
      (splitWords text).map fun words => ascii "exec" :: ascii "muxly" :: words := by
    intro text
    have hsplit : ascii "exec muxly" ++ space :: text =
        ascii "exec" ++ space :: (ascii "muxly" ++ space :: text) := rfl
    rw [hsplit, splitWords_cons (by decide) (by decide), splitWords_cons (by decide) (by decide),
      Option.map_map]
    rfl
  unfold buildRemoteRelayCommand relayWords
  by_cases hremote : remoteSpec = []
  · subst hremote
    rw [if_neg (by decide), if_pos rfl, List.append_nil, List.append_assoc, hrest, hexec, hwords]
    rfl
  · have hlength : remoteSpec.length > 0 := List.length_pos_iff.mpr hremote
    have htransport : ascii " --transport " ++ appendShellSingleQuoted remoteSpec ++ space :: rest =
        space :: (ascii "--transport" ++ space ::
          (appendShellSingleQuoted remoteSpec ++ space :: rest)) := by
      rw [List.append_assoc]
      rfl
    rw [if_pos hlength, if_neg hremote, List.append_assoc, List.append_assoc, hrest, htransport, hexec,
      splitWords_cons (by decide) (by decide), splitWords_quoted, hwords]
    rfl

/-! ## What the local `ssh` reads -/

/-- A destination begins with a dash when its text does. -/
theorem head?_destination {text destination : Bytes} {port : Option UInt16}
    (h : parseSshDestination text = some (destination, port)) :
    destination.head? = some dash ↔ text.head? = some dash := by
  rcases of_parseSshDestination h with ⟨rfl, -⟩ | ⟨user, host, portText, port', rfl, rfl, -⟩
  · exact Iff.rfl
  · cases hfront : user ++ host with
    | nil => exact ⟨nofun, fun hcolon => absurd (Option.some.inj hcolon) (by decide)⟩
    | cons c front => exact Iff.rfl

/-- What follows the scheme of a spec. -/
def schemeRest (spec : Bytes) : Bytes := (splitScheme (splitUnsafe spec).2).2

theorem head?_of_parseSsh {text : Bytes} {ssh : SshAddress} (h : parseSsh text = some ssh) :
    ssh.destination.head? = some dash ↔ text.head? = some dash := by
  obtain ⟨destinationText, -, -, hdestination, hsplit⟩ := of_parseSsh h
  rw [head?_destination hdestination, hsplit]

theorem of_parseTarget_ssh {scheme : Scheme} {text : Bytes} {ssh : SshAddress}
    (h : parseTarget scheme text = some (.ssh ssh)) : parseSsh text = some ssh := by
  obtain rfl : Scheme.ssh = scheme := (parseTarget_text h).1
  exact (map_eq_some_map fun _ _ => Target.ssh.inj).mp h

/-- The arguments end in the destination and the command. The local `ssh` does not take the
destination for an option, and the remote shell reads the words of the relay and nothing else. -/
structure RelaysSafely (argv : List Bytes) (ssh : SshAddress) (allowInsecureTcp : Bool) : Prop where
  command : ∃ options command, argv = options ++ [ssh.destination, command] ∧
    splitWords command = some (relayWords ssh.remoteSpec allowInsecureTcp)
  destination : ssh.destination.head? ≠ some dash

/-- For every spec of an SSH transport: its relay is safe exactly when the spec does not begin with a
dash. -/
theorem relaysSafely_iff (sshConfigPath : Option Bytes) (spec : Bytes) {allowInsecureTcp : Bool}
    {ssh : SshAddress} (h : Address.parse spec = some ⟨allowInsecureTcp, .ssh ssh⟩) :
    RelaysSafely (initSsh sshConfigPath ssh allowInsecureTcp) ssh allowInsecureTcp ↔
      (schemeRest spec).head? ≠ some dash := by
  unfold Address.parse at h
  obtain ⟨target, htarget, heq⟩ := Option.map_eq_some_iff.mp h
  obtain ⟨-, rfl⟩ := Address.mk.inj heq
  have hssh : parseSsh (schemeRest spec) = some ssh := of_parseTarget_ssh htarget
  have hhead := not_congr (head?_of_parseSsh hssh)
  constructor
  · exact fun hsafe => hhead.mp hsafe.destination
  · intro hplain
    exact ⟨⟨_, _, rfl, splitWords_command ssh.remoteSpec allowInsecureTcp⟩, hhead.mpr hplain⟩

theorem relaysSafely_iff_quoted :
    RelaysSafely (initSsh none ⟨ascii "me@host", some 22, ascii "unix:///tmp/it's"⟩ false)
        ⟨ascii "me@host", some 22, ascii "unix:///tmp/it's"⟩ false ↔
      (schemeRest (ascii "ssh://me@host:22/unix:///tmp/it's")).head? ≠ some dash :=
  relaysSafely_iff none (ascii "ssh://me@host:22/unix:///tmp/it's") (by decide +kernel)

/-- A destination that `ssh` takes for an option. -/
theorem destination_taken_for_option :
    Address.parse (ascii "ssh://-oProxyCommand=reboot") =
        some ⟨false, .ssh ⟨ascii "-oProxyCommand=reboot", none, []⟩⟩ ∧
      ¬ RelaysSafely (initSsh none ⟨ascii "-oProxyCommand=reboot", none, []⟩ false)
        ⟨ascii "-oProxyCommand=reboot", none, []⟩ false :=
  ⟨by decide +kernel, fun hsafe => hsafe.destination (by decide)⟩

end Muxly.Resource
