/-
# Muxly.Daemon.CommandBlock -- the output of a tmux command, read between its boundaries

`ControlConnection.runCommandBlock` sends a command and reads lines until tmux closes the block of
that command. It sorts the lines inside the block with the same `parseLine` as those outside, so that
an output line that begins with a percent sign is never taken for output.

A `Transcript` is what tmux writes: notifications and pane output, the opening of the block, the
lines of the command's output, the closing, and notifications and pane output again.
-/
import Muxly.Daemon.TmuxOutput

namespace Muxly.Daemon.ControlMode

open Muxly.Core Muxly.Data
open Muxly.Client (decimalInt newline_not_mem_decimal newline_not_mem_decimalInt
  parseSigned_decimalInt)

/-! ## Reading lines -/

/-- The cap that `runCommandBlock` gives a line, `1 << 20`. -/
def maxLineBytes : Nat := 1048576

/-- `readLineAlloc`, on the bytes of stdout that are still to be read, with the line so far. The
result is the line and what follows it, or nothing at the end of the file. -/
def readLineAlloc (maxBytes : Nat) (buffer : Bytes) :
    Bytes → Except ControlErr (Option (Bytes × Bytes))
  | [] => if buffer = [] then .ok none else .ok (some (buffer, []))
  | byte :: rest =>
    if byte = newline then .ok (some (buffer, rest))
    else if (buffer ++ [byte]).length > maxBytes then .error .messageTooLarge
    else readLineAlloc maxBytes (buffer ++ [byte]) rest

/-! ## The loop -/

/-- `CommandBlock`. -/
structure CommandBlock where
  boundary : CommandBoundary
  outputLines : List Bytes
  completed : Bool
  failed : Bool
  deriving DecidableEq

/-- `CommandBlock.init`. -/
def CommandBlock.init (boundary : CommandBoundary) : CommandBlock := ⟨boundary, [], false, false⟩

/-- The variables of `runCommandBlock`. -/
structure Capture where
  blockStarted : Bool
  block : CommandBlock
  deriving DecidableEq

/-- What the loop does with an event; the flag says that it returns the block. -/
def takeEvent (s : Capture) (event : Event) : Except ControlErr (Bool × Capture) :=
  match event with
  | .begin boundary =>
    if !s.blockStarted then .ok (false, ⟨true, .init boundary⟩) else .ok (false, s)
  | .output line =>
    if !s.blockStarted then .ok (false, s)
    else .ok (false, { s with block := { s.block with outputLines := s.block.outputLines ++ [line] } })
  | .paneOutput _ => .ok (false, s)
  | .end_ boundary =>
    if !s.blockStarted then .ok (false, s)
    else if boundary.commandNumber ≠ s.block.boundary.commandNumber then .ok (false, s)
    else .ok (true, { s with block := { s.block with completed := true } })
  | .commandError boundary =>
    if !s.blockStarted then .ok (false, s)
    else if boundary.commandNumber ≠ s.block.boundary.commandNumber then .ok (false, s)
    else .ok (true, { s with block := { s.block with completed := true, failed := true } })
  | .notification _ => .ok (false, s)
  | .exit => .error .controlModeExited

/-- The loop of `runCommandBlock`, on the bytes of stdout. -/
def runLoop : Nat → Capture → Bytes → Except ControlErr CommandBlock
  | 0, _, _ => .error .outOfFuel
  | fuel + 1, s, stdout => do
    let some (line, rest) ← readLineAlloc maxLineBytes [] stdout | throw .unexpectedEof
    let event ← parseLine line
    let (returns, s) ← takeEvent s event
    if returns then return s.block else runLoop fuel s rest

/-- `runCommandBlock`, after the command was sent: every turn takes at least one byte. -/
def runCommandBlock (stdout : Bytes) : Except ControlErr CommandBlock :=
  runLoop (stdout.length + 1) ⟨false, .init ⟨0, 0, 0⟩⟩ stdout

/-! ## What tmux writes -/

/-- A line, closed by a newline. -/
def framed (line : Bytes) : Bytes := line ++ [newline]

/-- The numbers of a boundary, as tmux prints them. -/
structure Guard where
  timestamp : UInt64
  commandNumber : UInt64
  flags : Int64

def Guard.boundary (g : Guard) : CommandBoundary :=
  ⟨g.timestamp.toNat, g.commandNumber.toNat, g.flags.toInt⟩

/-- The line of a boundary. -/
def Guard.line (word : Bytes) (g : Guard) : Bytes :=
  percent :: (word ++ space :: (decimal g.timestamp.toNat ++ space ::
    (decimal g.commandNumber.toNat ++ space :: decimalInt g.flags.toInt)))

/-- The words that are no notification. -/
def reserved : List Bytes :=
  [ascii "exit", ascii "begin", ascii "end", ascii "error", ascii "output", ascii "extended-output"]

/-- A line that tmux writes on its own account. -/
inductive AsyncLine : Bytes → Prop where
  | notification (name payload : Bytes) : space ∉ name → name ∉ reserved →
      AsyncLine (percent :: (name ++ space :: payload))
  | bare (name : Bytes) : space ∉ name → name ∉ reserved → AsyncLine (percent :: name)
  | output (paneId payload : Bytes) : space ∉ paneId →
      AsyncLine (percent :: (ascii "output" ++ space :: (paneId ++ space :: payload)))
  | extendedOutput (paneId age payload : Bytes) : space ∉ paneId → space ∉ age →
      AsyncLine (percent ::
        (ascii "extended-output" ++ space :: (paneId ++ space :: (age ++ space :: payload))))

/-- A line without a newline that is within the cap. -/
def Fits (line : Bytes) : Prop := newline ∉ line ∧ line.length ≤ maxLineBytes

/-- What tmux writes around the output of one command. -/
structure Transcript where
  before : List Bytes
  opening : Guard
  lines : List Bytes
  closing : Guard
  failed : Bool
  after : List Bytes
  async : ∀ line ∈ before ++ after, AsyncLine line
  fits : ∀ line ∈ before ++ lines ++ after, Fits line
  matching : closing.commandNumber = opening.commandNumber

/-- The line that closes the block. -/
def Transcript.closingLine (t : Transcript) : Bytes :=
  t.closing.line (if t.failed then ascii "error" else ascii "end")

/-- The bytes of a transcript. -/
def Transcript.stdout (t : Transcript) : Bytes :=
  t.before.flatMap framed ++ framed (t.opening.line (ascii "begin")) ++ t.lines.flatMap framed ++
    framed t.closingLine ++ t.after.flatMap framed

/-- The block that is read is the output of the command. -/
def Transcript.Captured (t : Transcript) : Prop :=
  ∃ block, runCommandBlock t.stdout = .ok block ∧ block.outputLines = t.lines ∧
    block.failed = t.failed

/-! ## Lines and events -/

theorem readLineAlloc_framed {line : Bytes} {maxBytes : Nat} (hnewline : newline ∉ line)
    (buffer rest : Bytes) (hlen : buffer.length + line.length ≤ maxBytes) :
    readLineAlloc maxBytes buffer (framed line ++ rest) = .ok (some (buffer ++ line, rest)) := by
  unfold framed
  induction line generalizing buffer with
  | nil =>
      rw [List.nil_append, List.singleton_append, readLineAlloc, if_pos rfl, List.append_nil]
  | cons byte line ih =>
      simp only [List.mem_cons, not_or] at hnewline
      rw [List.length_cons] at hlen
      have hbuffer : (buffer ++ [byte]).length = buffer.length + 1 := List.length_append
      rw [List.cons_append, List.cons_append, readLineAlloc, if_neg (Ne.symm hnewline.1),
        if_neg (by omega), ih hnewline.2 _ (by omega), List.append_assoc, List.singleton_append]

/-- One turn of the loop on a line that fits. -/
theorem runLoop_framed {line : Bytes} (hfits : Fits line) (fuel : Nat) (s : Capture) (rest : Bytes) :
    runLoop (fuel + 1) s (framed line ++ rest) = (do
      let event ← parseLine line
      let (returns, s) ← takeEvent s event
      if returns then return s.block else runLoop fuel s rest) := by
  have hread : readLineAlloc maxLineBytes [] (framed line ++ rest) = .ok (some ([] ++ line, rest)) :=
    readLineAlloc_framed hfits.1 [] rest (by rw [List.length_nil, Nat.zero_add]; exact hfits.2)
  rw [runLoop, hread, List.nil_append]
  rfl

/-- A line that does not begin with a percent sign is output. -/
theorem parseLine_plain {line : Bytes} (h : line.head? ≠ some percent) :
    parseLine line = .ok (.output line) := by
  have hnone : ∀ pre : Bytes, afterPrefix (percent :: pre) line = none := by
    intro pre
    cases hcut : afterPrefix (percent :: pre) line with
    | none => rfl
    | some rest =>
        rw [afterPrefix_eq_some hcut] at h
        exact absurd rfl h
  obtain ⟨hbegin, hend, herror, houtput, hextended⟩ := prefixes_eq
  rw [parseLine, hbegin, hend, herror, houtput, hextended]
  simp only [hnone, if_neg h]
  split
  · rfl
  · rw [if_neg]
    rintro rfl
    exact h rfl

/-- A line that begins with a percent sign is not. -/
theorem parseLine_percent {line out : Bytes} (h : line.head? = some percent) :
    parseLine line ≠ .ok (.output out) := by
  obtain ⟨body, rfl⟩ := List.head?_eq_some_iff.mp h
  cases hcut : cut space body with
  | none =>
      rw [parseLine_bare (cut_eq_none.mp hcut)]
      split <;> simp
  | some p =>
      obtain ⟨name, value⟩ := p
      obtain ⟨rfl, hname⟩ := cut_eq_some.mp hcut
      rw [parseLine_word hname]
      have hmap : ∀ {α : Type} (x : Except ControlErr α) (f : α → Event), (∀ a, f a ≠ .output out) →
          x.map f ≠ .ok (.output out) := by
        intro α x f hf heq
        cases x with
        | error e => cases heq
        | ok a => exact hf a (Except.ok.inj heq)
      split
      · exact hmap _ _ fun a => by simp
      split
      · exact hmap _ _ fun a => by simp
      split
      · exact hmap _ _ fun a => by simp
      split
      · exact hmap _ _ fun a => by simp
      split
      · exact hmap _ _ fun a => by simp
      · simp

/-- What tmux writes on its own account changes nothing. -/
theorem AsyncLine.turn {line : Bytes} (h : AsyncLine line) :
    ∃ event, parseLine line = .ok event ∧ ∀ s, takeEvent s event = .ok (false, s) := by
  cases h with
  | notification name payload hname hreserved =>
      refine ⟨.notification ⟨name, payload⟩, ?_, fun s => rfl⟩
      simp only [reserved, List.mem_cons, List.not_mem_nil, or_false, not_or] at hreserved
      obtain ⟨-, hbegin, hend, herror, houtput, hextended⟩ := hreserved
      rw [parseLine_word hname, if_neg hbegin, if_neg hend, if_neg herror, if_neg houtput,
        if_neg hextended]
  | bare name hname hreserved =>
      refine ⟨.notification ⟨name, []⟩, ?_, fun s => rfl⟩
      simp only [reserved, List.mem_cons, not_or] at hreserved
      rw [parseLine_bare hname, if_neg hreserved.1]
  | output paneId payload hpane =>
      refine ⟨.paneOutput ⟨paneId, payload⟩, ?_, fun s => rfl⟩
      rw [parseLine_word (by decide), if_neg (by decide), if_neg (by decide), if_neg (by decide),
        if_pos rfl, parsePaneOutput, cut_append hpane]
      rfl
  | extendedOutput paneId age payload hpane hage =>
      refine ⟨.paneOutput ⟨paneId, payload⟩, ?_, fun s => rfl⟩
      rw [parseLine_word (by decide), if_neg (by decide), if_neg (by decide), if_neg (by decide),
        if_neg (by decide), if_pos rfl, parsePaneOutputExtended, cut_append hpane]
      simp only [cut_append hage]
      rfl

/-! ## Boundaries -/

theorem space_not_mem_decimal (n : Nat) : space ∉ decimal n := fun h =>
  absurd (mem_decimal h).1 (by decide)

theorem space_not_mem_decimalInt (i : Int) : space ∉ decimalInt i := by
  unfold decimalInt
  split
  · exact List.mem_cons.not.mpr (not_or.mpr ⟨by decide, space_not_mem_decimal _⟩)
  · exact space_not_mem_decimal _

theorem parseBoundary_guard (g : Guard) :
    parseBoundary (decimal g.timestamp.toNat ++ space ::
      (decimal g.commandNumber.toNat ++ space :: decimalInt g.flags.toInt)) = .ok g.boundary := by
  have htimestamp : parseUnsigned (decimal g.timestamp.toNat) = some g.timestamp.toNat :=
    parseUnsigned_decimal g.timestamp.toNat_lt
  have hnumber : parseUnsigned (decimal g.commandNumber.toNat) = some g.commandNumber.toNat :=
    parseUnsigned_decimal g.commandNumber.toNat_lt
  rw [parseBoundary, cut_append (space_not_mem_decimal _)]
  simp only [cut_append (space_not_mem_decimal _), cut_eq_none.mpr (space_not_mem_decimalInt _),
    htimestamp, hnumber, parseSigned_decimalInt]
  rfl

theorem parseLine_begin (g : Guard) :
    parseLine (g.line (ascii "begin")) = .ok (.begin g.boundary) := by
  rw [Guard.line, parseLine_word (by decide), if_pos rfl, parseBoundary_guard]
  rfl

/-- The line that closes a block says whether the command failed. -/
theorem Transcript.parseLine_closingLine (t : Transcript) :
    parseLine t.closingLine
      = .ok (if t.failed then .commandError t.closing.boundary else .end_ t.closing.boundary) := by
  rw [closingLine]
  split
  · rw [Guard.line, parseLine_word (by decide), if_neg (by decide), if_neg (by decide), if_pos rfl,
      parseBoundary_guard]
    rfl
  · rw [Guard.line, parseLine_word (by decide), if_neg (by decide), if_pos rfl, parseBoundary_guard]
    rfl

theorem length_decimal_le {n : Nat} (h : n < u64Limit) : (decimal n).length ≤ 20 := by
  rw [decimal, List.length_map, Nat.length_toDigits_le_iff (by decide) (by decide)]
  exact h.trans (by decide)

theorem Guard.fits {word : Bytes} (hnewline : newline ∉ word) (hword : word.length ≤ 5) (g : Guard) :
    Fits (g.line word) := by
  have hflags : (decimalInt g.flags.toInt).length ≤ 21 := by
    have hle := g.flags.le_toInt
    have hlt := g.flags.toInt_lt
    have habs : g.flags.toInt.natAbs < u64Limit := by
      unfold u64Limit
      omega
    have := length_decimal_le habs
    unfold decimalInt
    split
    · rw [List.length_cons]
      omega
    · omega
  have htimestamp := length_decimal_le g.timestamp.toNat_lt
  have hnumber := length_decimal_le g.commandNumber.toNat_lt
  constructor
  · simp only [Guard.line, List.mem_cons, List.mem_append, not_or]
    exact ⟨by decide, hnewline, by decide, newline_not_mem_decimal _, by decide,
      newline_not_mem_decimal _, by decide, newline_not_mem_decimalInt _⟩
  · simp only [Guard.line, List.length_cons, List.length_append, maxLineBytes]
    omega

theorem Transcript.closingLine_fits (t : Transcript) : Fits t.closingLine := by
  rw [closingLine]
  split
  · exact Guard.fits (by decide) (by decide) _
  · exact Guard.fits (by decide) (by decide) _

/-! ## Runs of the loop -/

theorem length_le_flatMap_framed (lines : List Bytes) :
    lines.length ≤ (lines.flatMap framed).length := by
  induction lines with
  | nil => exact Nat.le_refl _
  | cons line lines ih =>
      rw [List.flatMap_cons, List.length_append, framed, List.length_append, List.length_cons,
        List.length_singleton]
      omega

/-- The loop skips what tmux writes on its own account. -/
theorem runLoop_async {lines : List Bytes} (hasync : ∀ line ∈ lines, AsyncLine line)
    (hfits : ∀ line ∈ lines, Fits line) (fuel : Nat) (s : Capture) (rest : Bytes) :
    runLoop (lines.length + fuel) s (lines.flatMap framed ++ rest) = runLoop fuel s rest := by
  induction lines with
  | nil => rw [List.length_nil, Nat.zero_add, List.flatMap_nil, List.nil_append]
  | cons line lines ih =>
      obtain ⟨event, hparse, hturn⟩ := (hasync line (List.mem_cons_self ..)).turn
      rw [List.length_cons, Nat.add_right_comm, List.flatMap_cons, List.append_assoc,
        runLoop_framed (hfits line (List.mem_cons_self ..)), hparse]
      show (takeEvent s event >>= _) = _
      rw [hturn s]
      exact ih (fun l hl => hasync l (List.mem_cons_of_mem _ hl))
        fun l hl => hfits l (List.mem_cons_of_mem _ hl)

/-- Inside the block the loop keeps every line that does not begin with a percent sign. -/
theorem runLoop_plain {lines : List Bytes} (hplain : ∀ line ∈ lines, line.head? ≠ some percent)
    (hfits : ∀ line ∈ lines, Fits line) (fuel : Nat) (block : CommandBlock) (rest : Bytes) :
    runLoop (lines.length + fuel) ⟨true, block⟩ (lines.flatMap framed ++ rest)
      = runLoop fuel ⟨true, { block with outputLines := block.outputLines ++ lines }⟩ rest := by
  induction lines generalizing block with
  | nil => rw [List.length_nil, Nat.zero_add, List.flatMap_nil, List.nil_append, List.append_nil]
  | cons line lines ih =>
      rw [List.length_cons, Nat.add_right_comm, List.flatMap_cons, List.append_assoc,
        runLoop_framed (hfits line (List.mem_cons_self ..)),
        parseLine_plain (hplain line (List.mem_cons_self ..))]
      have hrest := ih (fun l hl => hplain l (List.mem_cons_of_mem _ hl))
        (fun l hl => hfits l (List.mem_cons_of_mem _ hl))
        { block with outputLines := block.outputLines ++ [line] }
      rw [List.append_assoc, List.singleton_append] at hrest
      exact hrest

/-- Inside the block an event other than output leaves the output and the boundary alone. -/
theorem takeEvent_started {block : CommandBlock} {event : Event} {returns : Bool} {s : Capture}
    (hevent : ∀ line, event ≠ .output line)
    (h : takeEvent ⟨true, block⟩ event = .ok (returns, s)) :
    s.blockStarted = true ∧ s.block.outputLines = block.outputLines ∧
      s.block.boundary = block.boundary := by
  cases event with
  | begin boundary =>
      cases h
      exact ⟨rfl, rfl, rfl⟩
  | end_ boundary =>
      simp only [takeEvent, Bool.not_true, Bool.false_eq_true, if_false] at h
      split at h
      · cases h
        exact ⟨rfl, rfl, rfl⟩
      · cases h
        exact ⟨rfl, rfl, rfl⟩
  | commandError boundary =>
      simp only [takeEvent, Bool.not_true, Bool.false_eq_true, if_false] at h
      split at h
      · cases h
        exact ⟨rfl, rfl, rfl⟩
      · cases h
        exact ⟨rfl, rfl, rfl⟩
  | notification notification =>
      cases h
      exact ⟨rfl, rfl, rfl⟩
  | paneOutput output =>
      cases h
      exact ⟨rfl, rfl, rfl⟩
  | output line => exact absurd rfl (hevent line)
  | exit => cases h

/-- The closing line of the block returns it. -/
theorem Transcript.runLoop_closing (t : Transcript) {block : CommandBlock}
    (hblock : block.boundary = t.opening.boundary) (fuel : Nat) (rest : Bytes) :
    runLoop (fuel + 1) ⟨true, block⟩ (framed t.closingLine ++ rest)
      = .ok { block with completed := true, failed := t.failed || block.failed } := by
  have hnumber : t.closing.boundary.commandNumber = block.boundary.commandNumber := by
    rw [hblock]
    exact congrArg UInt64.toNat t.matching
  have hnumber' : ¬ t.closing.boundary.commandNumber ≠ block.boundary.commandNumber :=
    not_not_intro hnumber
  rw [runLoop_framed t.closingLine_fits, t.parseLine_closingLine]
  cases t.failed with
  | true =>
      show (takeEvent ⟨true, block⟩ (.commandError t.closing.boundary) >>= _) = _
      simp only [takeEvent, Bool.not_true, Bool.false_eq_true, if_false, if_neg hnumber']
      rfl
  | false =>
      show (takeEvent ⟨true, block⟩ (.end_ t.closing.boundary) >>= _) = _
      simp only [takeEvent, Bool.not_true, Bool.false_eq_true, if_false, if_neg hnumber']
      rfl

/-- A line that begins with a percent sign adds nothing to the output: the loop returns on it, or
goes on with the same output. -/
theorem runLoop_percent {line : Bytes} (hfits : Fits line) (hpercent : line.head? = some percent)
    {fuel : Nat} {block result : CommandBlock} {rest : Bytes}
    (h : runLoop (fuel + 1) ⟨true, block⟩ (framed line ++ rest) = .ok result) :
    result.outputLines = block.outputLines ∨
      ∃ next, next.outputLines = block.outputLines ∧ next.boundary = block.boundary ∧
        runLoop fuel ⟨true, next⟩ rest = .ok result := by
  rw [runLoop_framed hfits] at h
  cases hparse : parseLine line with
  | error e =>
      rw [hparse] at h
      cases h
  | ok event =>
      have hevent : ∀ out, event ≠ .output out := fun out heq =>
        parseLine_percent hpercent (hparse.trans (congrArg Except.ok heq))
      rw [hparse] at h
      change (takeEvent ⟨true, block⟩ event >>= _) = _ at h
      cases hturn : takeEvent ⟨true, block⟩ event with
      | error e =>
          rw [hturn] at h
          cases h
      | ok p =>
          obtain ⟨returns, started, next⟩ := p
          obtain ⟨hstarted, houtput, hboundary⟩ := takeEvent_started hevent hturn
          obtain rfl : started = true := hstarted
          rw [hturn] at h
          cases returns with
          | true =>
              cases h
              exact .inl houtput
          | false => exact .inr ⟨next, houtput, hboundary, h⟩

/-- A block never has more lines than output lines that do not begin with a percent sign. -/
theorem Transcript.length_le_of_runLoop (t : Transcript) {lines : List Bytes}
    (hfits : ∀ line ∈ lines, Fits line) {fuel : Nat} {s : Capture} {rest : Bytes}
    (hstarted : s.blockStarted = true) (hblock : s.block.boundary = t.opening.boundary)
    {result : CommandBlock}
    (h : runLoop fuel s (lines.flatMap framed ++ (framed t.closingLine ++ rest)) = .ok result) :
    result.outputLines.length
      ≤ s.block.outputLines.length + lines.countP fun line => line.head? ≠ some percent := by
  obtain ⟨started, block⟩ := s
  obtain rfl : started = true := hstarted
  induction lines generalizing fuel block with
  | nil =>
      cases fuel with
      | zero => cases h
      | succ fuel =>
          rw [List.flatMap_nil, List.nil_append, t.runLoop_closing hblock] at h
          cases h
          exact Nat.le_add_right _ _
  | cons line lines ih =>
      cases fuel with
      | zero => cases h
      | succ fuel =>
          have hline := hfits line (List.mem_cons_self ..)
          have hlines : ∀ l ∈ lines, Fits l := fun l hl => hfits l (List.mem_cons_of_mem _ hl)
          rw [List.flatMap_cons, List.append_assoc] at h
          by_cases hpercent : line.head? = some percent
          · rw [List.countP_cons_of_neg (by simpa using hpercent)]
            rcases runLoop_percent hline hpercent h with heq | ⟨next, houtput, hboundary, hnext⟩
            · rw [heq]
              exact Nat.le_add_right _ _
            · have hle := ih hlines next (hboundary.trans hblock) hnext
              rw [houtput] at hle
              exact hle
          · rw [runLoop_framed hline, parseLine_plain hpercent] at h
            rw [List.countP_cons_of_pos (by simpa using hpercent)]
            have hle := ih hlines { block with outputLines := block.outputLines ++ [line] } hblock h
            rw [show (block.outputLines ++ [line]).length = block.outputLines.length + 1 from
              List.length_append] at hle
            show _ ≤ block.outputLines.length + (_ + 1)
            omega

/-- The loop reaches the output of the command with enough fuel to read it. -/
theorem Transcript.runCommandBlock_eq (t : Transcript) : ∃ fuel,
    runCommandBlock t.stdout = runLoop (t.lines.length + (fuel + 1)) ⟨true, .init t.opening.boundary⟩
      (t.lines.flatMap framed ++ (framed t.closingLine ++ t.after.flatMap framed)) := by
  have hstdout : t.stdout = t.before.flatMap framed ++ (framed (t.opening.line (ascii "begin")) ++
      (t.lines.flatMap framed ++ (framed t.closingLine ++ t.after.flatMap framed))) := by
    simp only [stdout, List.append_assoc]
  have hbefore := length_le_flatMap_framed t.before
  have hlines := length_le_flatMap_framed t.lines
  have hframed : ∀ line, 1 ≤ (framed line).length := fun line => by
    rw [framed, List.length_append, List.length_singleton]
    omega
  have hopening := hframed (t.opening.line (ascii "begin"))
  have hclosing := hframed t.closingLine
  -- Every line has a newline at least, so the length of the text is fuel for all of its lines.
  obtain ⟨fuel, hfuel⟩ : ∃ fuel,
      t.stdout.length + 1 = t.before.length + (t.lines.length + (fuel + 1) + 1) := by
    rw [hstdout]
    simp only [List.length_append]
    refine ⟨(t.before.flatMap framed).length - t.before.length +
      ((t.lines.flatMap framed).length - t.lines.length) +
      ((framed (t.opening.line (ascii "begin"))).length - 1) + ((framed t.closingLine).length - 1) +
      (t.after.flatMap framed).length + 1, ?_⟩
    omega
  refine ⟨fuel, ?_⟩
  have hasync : ∀ line ∈ t.before, AsyncLine line := fun line hline =>
    t.async line (List.mem_append_left _ hline)
  have hfits : ∀ line ∈ t.before, Fits line := fun line hline =>
    t.fits line (List.mem_append_left _ (List.mem_append_left _ hline))
  rw [runCommandBlock, hfuel, hstdout, runLoop_async hasync hfits,
    runLoop_framed (Guard.fits (by decide) (by decide) _), parseLine_begin]
  rfl

/-- The block that `runCommandBlock` returns is the command's output, and marked as failed when the
command failed, exactly when no line of the output begins with a percent sign. -/
theorem captured_iff (t : Transcript) :
    t.Captured ↔ ∀ line ∈ t.lines, line.head? ≠ some percent := by
  obtain ⟨fuel, hrun⟩ := t.runCommandBlock_eq
  have hfits : ∀ line ∈ t.lines, Fits line := fun line hline =>
    t.fits line (List.mem_append_left _ (List.mem_append_right _ hline))
  constructor
  · rintro ⟨block, hblock, hlines, -⟩
    rw [hrun] at hblock
    have hle := t.length_le_of_runLoop hfits rfl rfl hblock
    rw [hlines] at hle
    change t.lines.length ≤ 0 + _ at hle
    rw [Nat.zero_add] at hle
    have hcount : t.lines.countP (fun line => line.head? ≠ some percent) = t.lines.length :=
      Nat.le_antisymm List.countP_le_length hle
    intro line hline
    exact of_decide_eq_true (List.countP_eq_length.mp hcount line hline)
  · intro hplain
    rw [runLoop_plain hplain hfits, t.runLoop_closing rfl] at hrun
    refine ⟨_, hrun, List.nil_append _, ?_⟩
    exact Bool.or_false _

/-- A transcript of a command that prints the id of a pane. -/
def paneIdTranscript : Transcript where
  before := []
  opening := ⟨1, 7, 1⟩
  lines := [ascii "%0"]
  closing := ⟨1, 7, 1⟩
  failed := false
  after := []
  async := by simp
  fits := by
    intro line hline
    rw [List.append_nil, List.nil_append, List.mem_singleton] at hline
    rw [hline]
    exact ⟨by decide, by decide⟩
  matching := rfl

/-- The id of the pane is taken for a notification, and the block is empty. -/
theorem paneId_lost : ¬ ∀ t : Transcript, t.Captured := by
  intro h
  obtain ⟨block, hblock, hlines, -⟩ := h paneIdTranscript
  have hrun : (runCommandBlock paneIdTranscript.stdout).toOption.map (·.outputLines) = some [] := by
    decide +kernel
  rw [hblock] at hrun
  cases hlines.symm.trans (Option.some.inj hrun)

end Muxly.Daemon.ControlMode
