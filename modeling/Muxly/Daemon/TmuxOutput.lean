/-
# Muxly.Daemon.TmuxOutput -- the lines of tmux control mode, and what they say of a pane

`parser.zig` sorts the lines that tmux writes in control mode. A pane's output comes as one line in
which tmux has replaced the control characters and the backslash by a backslash and three octal
digits. Two files decode it, each with its own copy of `normalizeTmuxOutputChunk`. The decoder also
takes `\n`, `\r`, `\t` and `\\`, and lets a backslash that begins nothing of this stand for itself.
-/
import Muxly.Client.Framing
import Muxly.Data.Cut

namespace Muxly.Daemon.ControlMode

open Muxly.Core Muxly.Data
open Muxly.Client (parseSigned)

/-! ## Events -/

/-- `CommandBoundary`. -/
structure CommandBoundary where
  timestamp : Nat
  commandNumber : Nat
  flags : Int
  deriving DecidableEq

/-- `Notification`. -/
structure Notification where
  name : Bytes
  payload : Bytes
  deriving DecidableEq

/-- `PaneOutput`. -/
structure PaneOutput where
  paneId : Bytes
  payload : Bytes
  deriving DecidableEq

/-- `Event`. -/
inductive Event where
  | begin (boundary : CommandBoundary)
  | end_ (boundary : CommandBoundary)
  | commandError (boundary : CommandBoundary)
  | notification (notification : Notification)
  | paneOutput (output : PaneOutput)
  | output (line : Bytes)
  | exit
  deriving DecidableEq

/-- The errors of the code on control-mode lines. `parseInt` stands for those of `std.fmt.parseInt`. -/
inductive ControlErr where
  | invalidBoundary
  | invalidPaneOutput
  | parseInt
  | unexpectedEof
  | messageTooLarge
  | controlModeExited
  /-- The model cut a loop off. -/
  | outOfFuel
  deriving DecidableEq

/-! ## The parser -/

/-- `' '`. -/
def space : UInt8 := 32

/-- `'%'`. -/
def percent : UInt8 := 37

/-- The result of `std.fmt.parseInt`. -/
def parsed {α : Type} (value : Option α) : Except ControlErr α :=
  match value with
  | some value => .ok value
  | none => .error .parseInt

/-- `parseBoundary`: three fields; what follows a third space is ignored. -/
def parseBoundary (value : Bytes) : Except ControlErr CommandBoundary :=
  match cut space value with
  | none => .error .invalidBoundary
  | some (timestampText, afterTimestamp) =>
    match cut space afterTimestamp with
    | none => .error .invalidBoundary
    | some (commandText, afterCommand) => do
      let flagsText :=
        match cut space afterCommand with
        | some (flagsText, _) => flagsText
        | none => afterCommand
      let timestamp ← parsed (parseUnsigned timestampText)
      let commandNumber ← parsed (parseUnsigned commandText)
      let flags ← parsed (parseSigned flagsText)
      return ⟨timestamp, commandNumber, flags⟩

/-- `parseNotification`. -/
def parseNotification (value : Bytes) : Notification :=
  match cut space value with
  | some (name, payload) => ⟨name, payload⟩
  | none => ⟨value, []⟩

/-- `parsePaneOutput`. -/
def parsePaneOutput (value : Bytes) : Except ControlErr PaneOutput :=
  match cut space value with
  | some (paneId, payload) => .ok ⟨paneId, payload⟩
  | none => .error .invalidPaneOutput

/-- `parsePaneOutputExtended`: the second field is skipped. -/
def parsePaneOutputExtended (value : Bytes) : Except ControlErr PaneOutput :=
  match cut space value with
  | none => .error .invalidPaneOutput
  | some (paneId, rest) =>
    match cut space rest with
    | some (_, payload) => .ok ⟨paneId, payload⟩
    | none => .ok ⟨paneId, []⟩

/-- `parseLine`. -/
def parseLine (line : Bytes) : Except ControlErr Event :=
  if line = [] then .ok (.output line)
  else if line = ascii "%exit" then .ok .exit
  else
    match afterPrefix (ascii "%begin ") line with
    | some value => (parseBoundary value).map .begin
    | none =>
      match afterPrefix (ascii "%end ") line with
      | some value => (parseBoundary value).map .end_
      | none =>
        match afterPrefix (ascii "%error ") line with
        | some value => (parseBoundary value).map .commandError
        | none =>
          match afterPrefix (ascii "%output ") line with
          | some value => (parsePaneOutput value).map .paneOutput
          | none =>
            match afterPrefix (ascii "%extended-output ") line with
            | some value => (parsePaneOutputExtended value).map .paneOutput
            | none =>
              if line.head? = some percent then .ok (.notification (parseNotification line.tail))
              else .ok (.output line)

/-- A line that begins with a word and a space has the prefix of that word only. -/
theorem afterPrefix_word {word name value : Bytes} (hword : space ∉ word) (hname : space ∉ name) :
    afterPrefix (percent :: (word ++ [space])) (percent :: (name ++ space :: value))
      = if name = word then some value else none := by
  split
  · rename_i heq
    rw [heq, show percent :: (word ++ space :: value) = (percent :: (word ++ [space])) ++ value by simp]
    exact afterPrefix_append _ _
  · rename_i hne
    cases hcut : afterPrefix (percent :: (word ++ [space])) (percent :: (name ++ space :: value)) with
    | none => rfl
    | some rest =>
        have heq := afterPrefix_eq_some hcut
        simp only [List.cons_append, List.append_assoc, List.nil_append, List.cons.injEq, true_and]
          at heq
        have hcuts := congrArg (cut space) heq
        rw [cut_append hname, cut_append hword] at hcuts
        cases hcuts
        exact absurd rfl hne

/-- A line without a space has the prefix of no word. -/
theorem afterPrefix_bare {word name : Bytes} (hname : space ∉ name) :
    afterPrefix (percent :: (word ++ [space])) (percent :: name) = none := by
  cases hcut : afterPrefix (percent :: (word ++ [space])) (percent :: name) with
  | none => rfl
  | some rest =>
      have heq := afterPrefix_eq_some hcut
      simp only [List.cons_append, List.append_assoc, List.nil_append, List.cons.injEq, true_and]
        at heq
      exact absurd (heq ▸ List.mem_append_right _ (List.mem_cons_self ..)) hname

/-- The prefixes that `parseLine` looks for. -/
theorem prefixes_eq :
    ascii "%begin " = percent :: (ascii "begin" ++ [space]) ∧
    ascii "%end " = percent :: (ascii "end" ++ [space]) ∧
    ascii "%error " = percent :: (ascii "error" ++ [space]) ∧
    ascii "%output " = percent :: (ascii "output" ++ [space]) ∧
    ascii "%extended-output " = percent :: (ascii "extended-output" ++ [space]) := by decide +kernel

/-- A line of a word, a space and a value is sorted by the word. -/
theorem parseLine_word {name : Bytes} (hname : space ∉ name) (value : Bytes) :
    parseLine (percent :: (name ++ space :: value)) =
      if name = ascii "begin" then (parseBoundary value).map .begin
      else if name = ascii "end" then (parseBoundary value).map .end_
      else if name = ascii "error" then (parseBoundary value).map .commandError
      else if name = ascii "output" then (parsePaneOutput value).map .paneOutput
      else if name = ascii "extended-output" then (parsePaneOutputExtended value).map .paneOutput
      else .ok (.notification ⟨name, value⟩) := by
  obtain ⟨hbegin, hend, herror, houtput, hextended⟩ := prefixes_eq
  -- `%exit` stands alone on its line.
  have hexit : percent :: (name ++ space :: value) ≠ ascii "%exit" := by
    intro h
    have hmem : space ∈ percent :: (name ++ space :: value) := by simp
    rw [h] at hmem
    exact absurd hmem (by decide)
  rw [parseLine, if_neg (List.cons_ne_nil _ _), if_neg hexit, hbegin, hend, herror, houtput,
    hextended, afterPrefix_word (by decide) hname, afterPrefix_word (by decide) hname,
    afterPrefix_word (by decide) hname, afterPrefix_word (by decide) hname,
    afterPrefix_word (by decide) hname]
  have hnotification : parseNotification (name ++ space :: value) = ⟨name, value⟩ := by
    rw [parseNotification, cut_append hname]
  simp only [List.head?_cons, List.tail_cons, if_true, hnotification]
  by_cases hb : name = ascii "begin"
  · simp only [if_pos hb]
  by_cases he : name = ascii "end"
  · simp only [if_neg hb, if_pos he]
  by_cases hr : name = ascii "error"
  · simp only [if_neg hb, if_neg he, if_pos hr]
  by_cases ho : name = ascii "output"
  · simp only [if_neg hb, if_neg he, if_neg hr, if_pos ho]
  by_cases hx : name = ascii "extended-output"
  · simp only [if_neg hb, if_neg he, if_neg hr, if_neg ho, if_pos hx]
  · simp only [if_neg hb, if_neg he, if_neg hr, if_neg ho, if_neg hx]

/-- A line of a percent sign and a word is the end of control mode or a notification. -/
theorem parseLine_bare {name : Bytes} (hname : space ∉ name) :
    parseLine (percent :: name) =
      if name = ascii "exit" then .ok .exit else .ok (.notification ⟨name, []⟩) := by
  obtain ⟨hbegin, hend, herror, houtput, hextended⟩ := prefixes_eq
  have hexit : percent :: name = ascii "%exit" ↔ name = ascii "exit" := by
    rw [show ascii "%exit" = percent :: ascii "exit" by decide, List.cons.injEq]
    exact and_iff_right rfl
  have hnotification : parseNotification name = ⟨name, []⟩ := by
    rw [parseNotification, cut_eq_none.mpr hname]
  rw [parseLine, if_neg (List.cons_ne_nil _ _), hbegin, hend, herror, houtput, hextended,
    afterPrefix_bare hname, afterPrefix_bare hname, afterPrefix_bare hname, afterPrefix_bare hname,
    afterPrefix_bare hname]
  simp only [hexit, List.head?_cons, List.tail_cons, if_true, hnotification]

/-- A pane's output goes over as it is. -/
theorem parseLine_output {paneId : Bytes} (hpane : space ∉ paneId) (payload : Bytes) :
    parseLine (ascii "%output " ++ paneId ++ space :: payload) = .ok (.paneOutput ⟨paneId, payload⟩) := by
  have hline : ascii "%output " ++ paneId ++ space :: payload
      = percent :: (ascii "output" ++ space :: (paneId ++ space :: payload)) := by
    rw [prefixes_eq.2.2.2.1]
    simp
  rw [hline, parseLine_word (by decide), if_neg (by decide), if_neg (by decide), if_neg (by decide),
    if_pos rfl, parsePaneOutput, cut_append hpane]
  rfl

/-! ## The decoders -/

/-- `'\\'`. -/
def backslash : UInt8 := 92

/-- `std.fmt.parseInt(u8, _, 8)` of three octal digits. -/
def parseOctal (d₀ d₁ d₂ : UInt8) : Except ControlErr UInt8 :=
  let value := (d₀.toNat - 48) * 64 + (d₁.toNat - 48) * 8 + (d₂.toNat - 48)
  if value < 256 then .ok (UInt8.ofNat value) else .error .parseInt

namespace Server

/-- `isOctalDigit` of `server.zig`. -/
def isOctalDigit (byte : UInt8) : Bool := 48 ≤ byte.toNat && byte.toNat ≤ 55

/-- The loop of `normalizeTmuxOutputChunk` in `server.zig`, on what is left of the payload. -/
def normalizeLoop (buffer : Bytes) (payload : Bytes) : Except ControlErr Bytes :=
  match payload with
  | [] => .ok buffer
  | char :: rest =>
    if char = backslash then
      match rest with
      | [] => normalizeLoop (buffer ++ [char]) []
      | next :: after =>
        if next = 110 then normalizeLoop (buffer ++ [10]) after
        else if next = 114 then normalizeLoop (buffer ++ [13]) after
        else if next = 116 then normalizeLoop (buffer ++ [9]) after
        else if next = backslash then normalizeLoop (buffer ++ [backslash]) after
        else
          match after with
          | d₁ :: d₂ :: remaining =>
            if isOctalDigit next && isOctalDigit d₁ && isOctalDigit d₂ then
              match parseOctal next d₁ d₂ with
              | .ok byte => normalizeLoop (buffer ++ [byte]) remaining
              | .error e => .error e
            else normalizeLoop (buffer ++ [char]) (next :: d₁ :: d₂ :: remaining)
          | [d₁] => normalizeLoop (buffer ++ [char]) [next, d₁]
          | [] => normalizeLoop (buffer ++ [char]) [next]
    else normalizeLoop (buffer ++ [char]) rest
termination_by payload.length

/-- `normalizeTmuxOutputChunk` of `server.zig`. -/
def normalizeTmuxOutputChunk (payload : Bytes) : Except ControlErr Bytes := normalizeLoop [] payload

end Server

namespace Store

/-- `isOctalDigit` of `store.zig`. -/
def isOctalDigit (char : UInt8) : Bool := 48 ≤ char.toNat && char.toNat ≤ 55

/-- The loop of `normalizeTmuxOutputChunk` in `store.zig`, on what is left of the payload. -/
def normalizeLoop (buffer : Bytes) (payload : Bytes) : Except ControlErr Bytes :=
  match payload with
  | [] => .ok buffer
  | char :: rest =>
    if char = backslash then
      match rest with
      | [] => normalizeLoop (buffer ++ [char]) []
      | next :: after =>
        if next = 110 then normalizeLoop (buffer ++ [10]) after
        else if next = 114 then normalizeLoop (buffer ++ [13]) after
        else if next = 116 then normalizeLoop (buffer ++ [9]) after
        else if next = backslash then normalizeLoop (buffer ++ [backslash]) after
        else
          match after with
          | d₁ :: d₂ :: remaining =>
            if isOctalDigit next && isOctalDigit d₁ && isOctalDigit d₂ then
              match parseOctal next d₁ d₂ with
              | .ok byte => normalizeLoop (buffer ++ [byte]) remaining
              | .error e => .error e
            else normalizeLoop (buffer ++ [char]) (next :: d₁ :: d₂ :: remaining)
          | [d₁] => normalizeLoop (buffer ++ [char]) [next, d₁]
          | [] => normalizeLoop (buffer ++ [char]) [next]
    else normalizeLoop (buffer ++ [char]) rest
termination_by payload.length

/-- `normalizeTmuxOutputChunk` of `store.zig`. -/
def normalizeTmuxOutputChunk (payload : Bytes) : Except ControlErr Bytes := normalizeLoop [] payload

end Store

/-- The two loops take the same branches. -/
theorem normalizeLoop_eq (buffer payload : Bytes) :
    Server.normalizeLoop buffer payload = Store.normalizeLoop buffer payload := by
  have hoctal : Store.isOctalDigit = Server.isOctalDigit := rfl
  -- One case for each way through a turn of the loop.
  induction buffer, payload using Server.normalizeLoop.induct with
  | case1 buffer => rw [Server.normalizeLoop, Store.normalizeLoop]
  | case2 buffer ih => rw [Server.normalizeLoop, Store.normalizeLoop, if_pos rfl, if_pos rfl, ih]
  | case3 buffer after ih =>
      rw [Server.normalizeLoop.eq_def, Store.normalizeLoop.eq_def]
      simp only [if_true, ih]
  | case4 buffer after hn ih =>
      rw [Server.normalizeLoop.eq_def, Store.normalizeLoop.eq_def]
      simp only [if_true, if_neg hn, ih]
  | case5 buffer after hn hr ih =>
      rw [Server.normalizeLoop.eq_def, Store.normalizeLoop.eq_def]
      simp only [if_true, if_neg hn, if_neg hr, ih]
  | case6 buffer after hn hr ht ih =>
      rw [Server.normalizeLoop.eq_def, Store.normalizeLoop.eq_def]
      simp only [if_true, if_neg hn, if_neg hr, if_neg ht, ih]
  | case7 buffer next hn hr ht hslash d₁ d₂ remaining hdigits byte hbyte ih =>
      rw [Server.normalizeLoop.eq_def, Store.normalizeLoop.eq_def]
      simp only [if_true, if_neg hn, if_neg hr, if_neg ht, if_neg hslash, hoctal, hdigits, hbyte, ih]
  | case8 buffer next hn hr ht hslash d₁ d₂ remaining hdigits e hbyte =>
      rw [Server.normalizeLoop.eq_def, Store.normalizeLoop.eq_def]
      simp only [if_true, if_neg hn, if_neg hr, if_neg ht, if_neg hslash, hoctal, hdigits, hbyte]
  | case9 buffer next hn hr ht hslash d₁ d₂ remaining hdigits ih =>
      rw [Server.normalizeLoop.eq_def, Store.normalizeLoop.eq_def]
      simp only [if_true, if_neg hn, if_neg hr, if_neg ht, if_neg hslash, hoctal, if_neg hdigits, ih]
  | case10 buffer next hn hr ht hslash d₁ ih =>
      rw [Server.normalizeLoop.eq_def, Store.normalizeLoop.eq_def]
      simp only [if_true, if_neg hn, if_neg hr, if_neg ht, if_neg hslash, ih]
  | case11 buffer next hn hr ht hslash ih =>
      rw [Server.normalizeLoop.eq_def, Store.normalizeLoop.eq_def]
      simp only [if_true, if_neg hn, if_neg hr, if_neg ht, if_neg hslash, ih]
  | case12 buffer char rest hchar ih =>
      rw [Server.normalizeLoop.eq_def, Store.normalizeLoop.eq_def]
      simp only [if_neg hchar, ih]

/-! ## What tmux writes -/

/-- The octal digit of a number below 8. -/
def octalDigit (n : Nat) : UInt8 := UInt8.ofNat (48 + n)

/-- How tmux writes a byte of a pane's output in control mode. -/
def escapeByte (b : UInt8) : Bytes :=
  if b.toNat < 32 ∨ b = backslash then
    [backslash, octalDigit (b.toNat / 64), octalDigit (b.toNat / 8 % 8), octalDigit (b.toNat % 8)]
  else [b]

/-- How tmux writes a pane's output. -/
def escape (w : Bytes) : Bytes := w.flatMap escapeByte

theorem octalDigit_toNat {n : Nat} (h : n < 8) : (octalDigit n).toNat = 48 + n := by
  rw [octalDigit, UInt8.toNat_ofNat', Nat.mod_eq_of_lt (by omega)]

theorem isOctalDigit_octalDigit {n : Nat} (h : n < 8) : Server.isOctalDigit (octalDigit n) = true := by
  simp only [Server.isOctalDigit, octalDigit_toNat h, Bool.and_eq_true, decide_eq_true_eq]
  omega

/-- The three digits of a byte say which one it is. -/
theorem parseOctal_octalDigit (b : UInt8) :
    parseOctal (octalDigit (b.toNat / 64)) (octalDigit (b.toNat / 8 % 8)) (octalDigit (b.toNat % 8))
      = .ok b := by
  have hb := b.toNat_lt
  have hvalue : (48 + b.toNat / 64 - 48) * 64 + (48 + b.toNat / 8 % 8 - 48) * 8
      + (48 + b.toNat % 8 - 48) = b.toNat := by omega
  simp only [parseOctal, octalDigit_toNat (show b.toNat / 64 < 8 by omega),
    octalDigit_toNat (show b.toNat / 8 % 8 < 8 by omega),
    octalDigit_toNat (show b.toNat % 8 < 8 by omega), hvalue]
  rw [if_pos hb, UInt8.ofNat_toNat]

/-- A digit is none of the letters that the decoder looks for first. -/
theorem octalDigit_ne {n : Nat} (h : n < 8) {c : UInt8} (hc : 56 ≤ c.toNat) : octalDigit n ≠ c := by
  rintro rfl
  rw [octalDigit_toNat h] at hc
  omega

/-- One turn of the loop takes exactly what stands for one byte. -/
theorem normalizeLoop_escapeByte (buffer : Bytes) (b : UInt8) (rest : Bytes) :
    Server.normalizeLoop buffer (escapeByte b ++ rest) = Server.normalizeLoop (buffer ++ [b]) rest := by
  have hb := b.toNat_lt
  have hfirst : b.toNat / 64 < 8 := by omega
  unfold escapeByte
  split
  · simp only [List.cons_append, List.nil_append]
    rw [Server.normalizeLoop.eq_def]
    simp only [if_true, if_neg (octalDigit_ne hfirst (c := 110) (by decide)),
      if_neg (octalDigit_ne hfirst (c := 114) (by decide)),
      if_neg (octalDigit_ne hfirst (c := 116) (by decide)),
      if_neg (octalDigit_ne hfirst (c := backslash) (by decide)),
      isOctalDigit_octalDigit hfirst, isOctalDigit_octalDigit (show b.toNat / 8 % 8 < 8 by omega),
      isOctalDigit_octalDigit (show b.toNat % 8 < 8 by omega), Bool.and_self,
      parseOctal_octalDigit]
  · rename_i hplain
    rw [List.singleton_append, Server.normalizeLoop.eq_def]
    simp only [if_neg fun h => hplain (.inr h)]

/-- The loop takes escaped output for what it stands for, whatever comes after it. -/
theorem normalizeLoop_escape (w : Bytes) (buffer rest : Bytes) :
    Server.normalizeLoop buffer (escape w ++ rest) = Server.normalizeLoop (buffer ++ w) rest := by
  induction w generalizing buffer with
  | nil => rw [escape, List.flatMap_nil, List.nil_append, List.append_nil]
  | cons b w ih =>
      have hsplit : escape (b :: w) ++ rest = escapeByte b ++ (escape w ++ rest) := by
        rw [escape, List.flatMap_cons, List.append_assoc]
        rfl
      rw [hsplit, normalizeLoop_escapeByte, ih, List.append_assoc, List.singleton_append]

theorem normalizeTmuxOutputChunk_escape (w : Bytes) :
    Server.normalizeTmuxOutputChunk (escape w) = .ok w := by
  have hloop := normalizeLoop_escape w [] []
  rw [List.append_nil, List.nil_append] at hloop
  rw [Server.normalizeTmuxOutputChunk, hloop, Server.normalizeLoop]

theorem escape_append (w₁ w₂ : Bytes) : escape (w₁ ++ w₂) = escape w₁ ++ escape w₂ :=
  List.flatMap_append

/-- A pane's output that tmux escapes and frames comes back as it was; decoding goes through escaped
pieces one by one; and the two copies of the decoder are one function. -/
theorem output_decoded :
    (∀ paneId w, space ∉ paneId → ∃ output,
      parseLine (ascii "%output " ++ paneId ++ space :: escape w) = .ok (.paneOutput output) ∧
      output.paneId = paneId ∧
      Server.normalizeTmuxOutputChunk output.payload = .ok w ∧
      Store.normalizeTmuxOutputChunk output.payload = .ok w) ∧
    (∀ w₁ w₂, Server.normalizeTmuxOutputChunk (escape w₁ ++ escape w₂) = do
      let first ← Server.normalizeTmuxOutputChunk (escape w₁)
      let second ← Server.normalizeTmuxOutputChunk (escape w₂)
      return first ++ second) ∧
    ∀ payload, Server.normalizeTmuxOutputChunk payload = Store.normalizeTmuxOutputChunk payload := by
  have hcopies : ∀ payload,
      Server.normalizeTmuxOutputChunk payload = Store.normalizeTmuxOutputChunk payload :=
    normalizeLoop_eq []
  refine ⟨fun paneId w hpane => ⟨⟨paneId, escape w⟩, parseLine_output hpane _, rfl, ?_, ?_⟩,
    fun w₁ w₂ => ?_, hcopies⟩
  · exact normalizeTmuxOutputChunk_escape w
  · rw [← hcopies]
    exact normalizeTmuxOutputChunk_escape w
  · rw [← escape_append, normalizeTmuxOutputChunk_escape, normalizeTmuxOutputChunk_escape,
      normalizeTmuxOutputChunk_escape]
    rfl

/-- A line feed between two letters comes back. -/
theorem output_decoded_lineFeed : ∃ output,
    parseLine (ascii "%output %0 a\\012b") = .ok (.paneOutput output) ∧
      Server.normalizeTmuxOutputChunk output.payload = .ok (ascii "a\nb") := by
  have hline : ascii "%output " ++ ascii "%0" ++ space :: escape (ascii "a\nb")
      = ascii "%output %0 a\\012b" := by decide +kernel
  obtain ⟨output, hparse, -, hdecode, -⟩ :=
    output_decoded.1 (ascii "%0") (ascii "a\nb") (by decide +kernel)
  exact ⟨output, hline ▸ hparse, hdecode⟩

end Muxly.Daemon.ControlMode
