/-
# Muxly.Bridge.Lines -- the two line readers of the bridge

`read_line_message` takes one line at a time from a buffered reader; `H2LineDecoder` takes the chunks
of a body as they come and gives out the lines that end in them. The reader measures each line
against the cap, the decoder everything it holds, before it looks for lines; and the reader takes a
carriage return off the line at the end of the stream, which `finish` leaves there.

Both are run here as their callers run them, up to the end of the bytes or the first error. Their
results on one stream agree for some cuttings and differ for others: `Agrees` says for which.
-/
import Muxly.Control.Action
import Muxly.Core.Projection
import Muxly.Data.Lines

namespace Muxly.Bridge

open Muxly.Core Muxly.Data
open Muxly.Control (ok_bind)

/-! ## Errors -/

/-- What stops a reader. -/
inductive ReadError where
  /-- `attempt to add with overflow`, the panic of a build that checks for it. -/
  | addOverflow
  /-- `message exceeds buffered bridge cap of {max_bytes} bytes`. -/
  | exceedsCap (maxBytes : UInt64)
  deriving DecidableEq

/-- `n + 1` of a `usize`, which wraps unless the build checks for overflow. -/
def addOne (overflowChecks : Bool) (n : UInt64) : Except ReadError UInt64 :=
  if overflowChecks ∧ n.toNat + 1 = u64Limit then .error .addOverflow else .ok (n + 1)

/-! ## Bytes -/

/-- `b'\r'`. -/
def carriageReturn : UInt8 := 13

/-- `pop`, if the last byte is the given one. -/
def popLast (byte : UInt8) (line : Bytes) : Bytes :=
  if line.getLast? = some byte then line.dropLast else line

@[simp]
theorem popLast_append (byte : UInt8) (line : Bytes) : popLast byte (line ++ [byte]) = line := by
  simp [popLast]

theorem popLast_eq_self {byte : UInt8} {line : Bytes} :
    popLast byte line = line ↔ line.getLast? ≠ some byte := by
  rw [popLast]
  split
  · rename_i h
    refine ⟨fun heq => ?_, fun hne => absurd h hne⟩
    have hlength := congrArg List.length heq
    have hpos : 0 < line.length := List.length_pos_iff.mpr fun hnil => by simp [hnil] at h
    rw [List.length_dropLast] at hlength
    omega
  · rename_i h
    exact ⟨fun _ => h, fun _ => rfl⟩

@[simp]
theorem popLast_nil (byte : UInt8) : popLast byte [] = [] := rfl

/-! ## The decoder -/

/-- `H2LineDecoder`. -/
structure H2LineDecoder where
  buffer : Bytes
  maxMessageBytes : UInt64
  deriving DecidableEq

namespace H2LineDecoder

/-- `new`. -/
def new (maxMessageBytes : UInt64) : H2LineDecoder := ⟨[], maxMessageBytes⟩

theorem length_lt_of_cut {buffer before after : Bytes}
    (h : cut newline buffer = some (before, after)) : after.length < buffer.length := by
  rw [(cut_eq_some.mp h).1, List.length_append, List.length_cons]
  omega

/-- The loop of `push_chunk`: the lines of the buffer, and what remains in it. -/
def drainLines (buffer : Bytes) : List Bytes × Bytes :=
  match h : cut newline buffer with
  | some (before, after) =>
    have := length_lt_of_cut h
    let line := popLast carriageReturn (popLast newline (before ++ [newline]))
    ((line :: (drainLines after).1), (drainLines after).2)
  | none => ([], buffer)
termination_by buffer.length

/-- `push_chunk`. -/
def pushChunk (decoder : H2LineDecoder) (chunk : Bytes) :
    H2LineDecoder × Except ReadError (List Bytes) :=
  let buffer := decoder.buffer ++ chunk
  if decoder.maxMessageBytes.toNat < buffer.length then
    ({ decoder with buffer }, .error (.exceedsCap decoder.maxMessageBytes))
  else ({ decoder with buffer := (drainLines buffer).2 }, .ok (drainLines buffer).1)

/-- `finish`. -/
def finish (decoder : H2LineDecoder) : H2LineDecoder × List Bytes :=
  if decoder.buffer = [] then (decoder, [])
  else ({ decoder with buffer := [] }, [decoder.buffer])

/-- What the callers do with a body: `push_chunk` on each chunk until one fails, then `finish`. The
lines that came out, and the error. -/
def decodeChunks : H2LineDecoder → List Bytes → List Bytes × Option ReadError
  | decoder, [] => (decoder.finish.2, none)
  | decoder, chunk :: chunks =>
    match decoder.pushChunk chunk with
    | (decoder, .ok lines) =>
      (lines ++ (decoder.decodeChunks chunks).1, (decoder.decodeChunks chunks).2)
    | (_, .error error) => ([], some error)

end H2LineDecoder

/-! ## The reader -/

/-- `read_until(b'\n')` of `take(limit)`: what is read, and what is left in the reader. -/
def readUntil : Nat → Bytes → Bytes × Bytes
  | _, [] => ([], [])
  | limit, c :: bytes =>
    if limit = 0 then ([], c :: bytes)
    else if c = newline then ([c], bytes)
    else (c :: (readUntil (limit - 1) bytes).1, (readUntil (limit - 1) bytes).2)

/-- `read_line_message_with_cap` into an empty buffer: the buffer, which is as long as the number
that it returns, and what is left in the reader. -/
def readLineMessageWithCap (overflowChecks : Bool) (maxBytes : UInt64) (reader : Bytes) :
    Except ReadError (Bytes × Bytes) := do
  let limit ← addOne overflowChecks maxBytes
  let (buffer, rest) := readUntil limit.toNat reader
  if maxBytes.toNat < buffer.length then throw (.exceedsCap maxBytes) else return (buffer, rest)

/-- `read_line_message`. -/
def readLineMessage (overflowChecks : Bool) (maxMessageBytes : UInt64) (reader : Bytes) :
    Except ReadError (Option Bytes × Bytes) := do
  let (line, rest) ← readLineMessageWithCap overflowChecks maxMessageBytes reader
  if line.length = 0 then return (none, rest)
  else return (some (popLast carriageReturn (popLast newline line)), rest)

theorem readUntil_append (limit : Nat) (bytes : Bytes) :
    (readUntil limit bytes).1 ++ (readUntil limit bytes).2 = bytes := by
  fun_induction readUntil limit bytes with
  | case4 limit c bytes hlimit hc ih => rw [List.cons_append, ih]
  | _ => rfl

/-- What is read and what is left are the bytes of the reader. -/
theorem append_of_readLineMessageWithCap {overflowChecks : Bool} {maxBytes : UInt64}
    {reader buffer rest : Bytes}
    (h : readLineMessageWithCap overflowChecks maxBytes reader = .ok (buffer, rest)) :
    buffer ++ rest = reader := by
  rw [readLineMessageWithCap] at h
  cases hlimit : addOne overflowChecks maxBytes with
  | error error =>
      rw [hlimit] at h
      cases h
  | ok limit =>
      rw [hlimit, ok_bind] at h
      have happend := readUntil_append limit.toNat reader
      split at h
      rename_i buffer' rest' hparts
      rw [hparts] at happend
      split at h
      · cases h
      · cases h
        exact happend

/-- A line takes at least one byte out of the reader. -/
theorem length_lt_of_readLineMessage {overflowChecks : Bool} {maxMessageBytes : UInt64}
    {reader line rest : Bytes}
    (h : readLineMessage overflowChecks maxMessageBytes reader = .ok (some line, rest)) :
    rest.length < reader.length := by
  rw [readLineMessage] at h
  cases hread : readLineMessageWithCap overflowChecks maxMessageBytes reader with
  | error error =>
      rw [hread] at h
      cases h
  | ok parts =>
      obtain ⟨buffer, rest'⟩ := parts
      rw [hread, ok_bind] at h
      dsimp only at h
      split at h
      · cases h
      · rename_i hne
        cases h
        rw [← append_of_readLineMessageWithCap hread, List.length_append]
        omega

/-- What the callers do with a reader: `read_line_message` until it finds the end, or fails. The
lines that came out, and the error. -/
def readLines (overflowChecks : Bool) (maxMessageBytes : UInt64) (reader : Bytes) :
    List Bytes × Option ReadError :=
  match h : readLineMessage overflowChecks maxMessageBytes reader with
  | .ok (some line, rest) =>
    have := length_lt_of_readLineMessage h
    (line :: (readLines overflowChecks maxMessageBytes rest).1,
      (readLines overflowChecks maxMessageBytes rest).2)
  | .ok (none, _) => ([], none)
  | .error error => ([], some error)
termination_by reader.length

/-! ## One line of a reader -/

section Reader

variable {overflowChecks : Bool} {maxBytes : UInt64} {bytes line rest : Bytes} {limit : Nat}

theorem readUntil_line (hline : newline ∉ line) (hlimit : line.length < limit) :
    readUntil limit (line ++ newline :: rest) = (line ++ [newline], rest) := by
  induction line generalizing limit with
  | nil =>
      rw [List.length_nil] at hlimit
      rw [List.nil_append, readUntil, if_neg (Nat.ne_of_gt hlimit), if_pos rfl]
      rfl
  | cons c line ih =>
      obtain ⟨hc, hline⟩ := not_or.mp (mt List.mem_cons.mpr hline)
      rw [List.length_cons] at hlimit
      rw [List.cons_append, readUntil, if_neg (by omega), if_neg (Ne.symm hc),
        ih hline (by omega)]
      rfl

theorem readUntil_take (h : newline ∉ bytes.take limit) :
    readUntil limit bytes = (bytes.take limit, bytes.drop limit) := by
  induction bytes generalizing limit with
  | nil => simp [readUntil]
  | cons c bytes ih =>
      cases limit with
      | zero => simp [readUntil]
      | succ limit =>
          rw [List.take_succ_cons, List.mem_cons, not_or] at h
          rw [readUntil, if_neg (Nat.succ_ne_zero limit), if_neg (Ne.symm h.1),
            Nat.add_sub_cancel, ih h.2]
          rfl

theorem readLineMessageWithCap_eq (hcap : maxBytes.toNat + 1 < u64Limit) :
    readLineMessageWithCap overflowChecks maxBytes bytes =
      if maxBytes.toNat < (readUntil (maxBytes.toNat + 1) bytes).1.length then
        .error (.exceedsCap maxBytes)
      else .ok (readUntil (maxBytes.toNat + 1) bytes) := by
  have hsum : (maxBytes + 1).toNat = maxBytes.toNat + 1 := by
    rw [UInt64.toNat_add]
    exact Nat.mod_eq_of_lt hcap
  have hlimit : addOne overflowChecks maxBytes = .ok (maxBytes + 1) := by
    rw [addOne, if_neg fun h => by omega]
  rw [readLineMessageWithCap, hlimit, ok_bind, hsum]
  rfl

/-- A line that fits with its newline is read as it is. -/
theorem readLineMessageWithCap_line (hcap : maxBytes.toNat + 1 < u64Limit) (hline : newline ∉ line)
    (hfits : line.length < maxBytes.toNat) :
    readLineMessageWithCap overflowChecks maxBytes (line ++ newline :: rest) =
      .ok (line ++ [newline], rest) := by
  rw [readLineMessageWithCap_eq hcap, readUntil_line hline (Nat.lt_succ_of_lt hfits), if_neg]
  rw [List.length_append, List.length_singleton]
  omega

/-- Without a newline within the cap, there are too many bytes. -/
theorem readLineMessageWithCap_exceeds (hcap : maxBytes.toNat + 1 < u64Limit)
    (hlong : maxBytes.toNat < bytes.length) (hnot : newline ∉ bytes.take maxBytes.toNat) :
    readLineMessageWithCap overflowChecks maxBytes bytes = .error (.exceedsCap maxBytes) := by
  rw [readLineMessageWithCap_eq hcap, if_pos]
  have hsplit : bytes = bytes.take maxBytes.toNat ++ bytes[maxBytes.toNat] ::
      bytes.drop (maxBytes.toNat + 1) := by
    rw [← List.drop_eq_getElem_cons hlong, List.take_append_drop]
  have hlength : (bytes.take maxBytes.toNat).length = maxBytes.toNat :=
    List.length_take_of_le hlong.le
  -- The byte after the cap is read in either case, and is one too many even as a newline.
  by_cases hnext : bytes[maxBytes.toNat] = newline
  · rw [hnext] at hsplit
    rw [hsplit, readUntil_line hnot (by omega), List.length_append, hlength]
    exact Nat.lt_succ_self _
  · have hmore : newline ∉ bytes.take (maxBytes.toNat + 1) := by
      rw [List.take_succ_eq_append_getElem hlong, List.mem_append, List.mem_singleton, not_or]
      exact ⟨hnot, Ne.symm hnext⟩
    rw [readUntil_take hmore, List.length_take_of_le hlong]
    exact Nat.lt_succ_self _

/-- The end of the stream ends a line that fits. -/
theorem readLineMessageWithCap_rest (hcap : maxBytes.toNat + 1 < u64Limit)
    (hfits : bytes.length ≤ maxBytes.toNat) (hnot : newline ∉ bytes) :
    readLineMessageWithCap overflowChecks maxBytes bytes = .ok (bytes, []) := by
  have hwhole : bytes.take (maxBytes.toNat + 1) = bytes :=
    List.take_of_length_le (Nat.le_succ_of_le hfits)
  rw [readLineMessageWithCap_eq hcap, readUntil_take (by rwa [hwhole]), hwhole,
    List.drop_of_length_le (Nat.le_succ_of_le hfits), if_neg (Nat.not_lt.mpr hfits)]

/-- At the largest cap the limit wraps to zero, or the build notices. -/
theorem readLineMessageWithCap_of_overflow (hcap : maxBytes.toNat + 1 = u64Limit) :
    readLineMessageWithCap overflowChecks maxBytes bytes =
      if overflowChecks then .error .addOverflow else .ok ([], bytes) := by
  have hwrap : (maxBytes + 1).toNat = 0 := by
    rw [UInt64.toNat_add]
    change (maxBytes.toNat + 1) % 2 ^ 64 = 0
    rw [hcap]
    decide
  cases overflowChecks with
  | true =>
      rw [readLineMessageWithCap, addOne, if_pos ⟨rfl, hcap⟩]
      rfl
  | false =>
      have hnothing : readUntil 0 bytes = ([], bytes) := by
        cases bytes <;> rfl
      rw [readLineMessageWithCap, addOne, if_neg (by simp), ok_bind, hwrap, hnothing]
      rfl

theorem readLineMessage_of_cap
    (h : readLineMessageWithCap overflowChecks maxBytes bytes = .ok (line, rest)) (hne : line ≠ []) :
    readLineMessage overflowChecks maxBytes bytes =
      .ok (some (popLast carriageReturn (popLast newline line)), rest) := by
  rw [readLineMessage, h, ok_bind]
  exact if_neg fun hlength => hne (List.length_eq_zero_iff.mp hlength)

/-! ## All the lines of a reader -/

theorem readLines_eq (overflowChecks : Bool) (maxBytes : UInt64) (bytes : Bytes) :
    readLines overflowChecks maxBytes bytes =
      match readLineMessage overflowChecks maxBytes bytes with
      | .ok (some line, rest) =>
        (line :: (readLines overflowChecks maxBytes rest).1,
          (readLines overflowChecks maxBytes rest).2)
      | .ok (none, _) => ([], none)
      | .error error => ([], some error) := by
  rw [readLines]
  split
  all_goals
    rename_i heq
    simp only [heq]

theorem readLines_of_line
    (h : readLineMessage overflowChecks maxBytes bytes = .ok (some line, rest)) :
    readLines overflowChecks maxBytes bytes =
      (line :: (readLines overflowChecks maxBytes rest).1,
        (readLines overflowChecks maxBytes rest).2) := by
  rw [readLines_eq, h]

theorem readLines_of_end (h : readLineMessage overflowChecks maxBytes bytes = .ok (none, rest)) :
    readLines overflowChecks maxBytes bytes = ([], none) := by
  rw [readLines_eq, h]

theorem readLines_of_error {error : ReadError}
    (h : readLineMessage overflowChecks maxBytes bytes = .error error) :
    readLines overflowChecks maxBytes bytes = ([], some error) := by
  rw [readLines_eq, h]

/-- Lines that fit come first. -/
theorem readLines_append (hcap : maxBytes.toNat + 1 < u64Limit) {lines : List Bytes} {tail : Bytes}
    (hlines : Lines newline bytes lines tail) (hfits : ∀ line ∈ lines, line.length < maxBytes.toNat)
    (rest : Bytes) :
    readLines overflowChecks maxBytes (bytes ++ rest) =
      (lines.map (popLast carriageReturn) ++ (readLines overflowChecks maxBytes (tail ++ rest)).1,
        (readLines overflowChecks maxBytes (tail ++ rest)).2) := by
  induction lines generalizing bytes with
  | nil =>
      obtain ⟨rfl, -⟩ := Lines.nil_iff.mp hlines
      rfl
  | cons line lines ih =>
      obtain ⟨more, rfl, hline, hmore⟩ := hlines.of_cons
      obtain ⟨hfirst, hothers⟩ := List.forall_mem_cons.mp hfits
      have hread : readLineMessage overflowChecks maxBytes (line ++ newline :: (more ++ rest)) =
          .ok (some (popLast carriageReturn line), more ++ rest) := by
        rw [readLineMessage_of_cap (readLineMessageWithCap_line hcap hline hfirst) (by simp),
          popLast_append]
      rw [List.append_assoc, List.cons_append, readLines_of_line hread, ih hmore hothers]
      rfl

/-- Without a newline within the cap, nothing comes out. -/
theorem readLines_exceeds (hcap : maxBytes.toNat + 1 < u64Limit)
    (hlong : maxBytes.toNat < bytes.length) (hnot : newline ∉ bytes.take maxBytes.toNat) :
    readLines overflowChecks maxBytes bytes = ([], some (.exceedsCap maxBytes)) := by
  refine readLines_of_error ?_
  rw [readLineMessage, readLineMessageWithCap_exceeds hcap hlong hnot]
  rfl

/-- The end of the stream ends a line that fits, and a carriage return is taken off it. -/
theorem readLines_rest (hcap : maxBytes.toNat + 1 < u64Limit)
    (hfits : bytes.length ≤ maxBytes.toNat) (hnot : newline ∉ bytes) :
    readLines overflowChecks maxBytes bytes =
      (if bytes = [] then [] else [popLast carriageReturn bytes], none) := by
  have hend : readLineMessage overflowChecks maxBytes [] = .ok (none, []) := by
    rw [readLineMessage, readLineMessageWithCap_rest hcap (Nat.zero_le _) List.not_mem_nil]
    rfl
  by_cases hempty : bytes = []
  · rw [if_pos hempty, hempty, readLines_of_end hend]
  · have hpop : popLast newline bytes = bytes :=
      popLast_eq_self.mpr fun hlast => hnot (List.mem_of_getLast? hlast)
    have hread : readLineMessage overflowChecks maxBytes bytes =
        .ok (some (popLast carriageReturn bytes), []) := by
      rw [readLineMessage_of_cap (readLineMessageWithCap_rest hcap hfits hnot) hempty, hpop]
    rw [if_neg hempty, readLines_of_line hread, readLines_of_end hend]

/-- At the largest cap the limit wraps to zero and the reader finds the end at once, or the build
notices. -/
theorem readLines_of_overflow (hcap : maxBytes.toNat + 1 = u64Limit) :
    readLines overflowChecks maxBytes bytes =
      if overflowChecks then ([], some .addOverflow) else ([], none) := by
  cases overflowChecks with
  | true =>
      refine readLines_of_error ?_
      rw [readLineMessage, readLineMessageWithCap_of_overflow hcap]
      rfl
  | false =>
      have hread : readLineMessage false maxBytes bytes = .ok (none, bytes) := by
        rw [readLineMessage, readLineMessageWithCap_of_overflow hcap]
        rfl
      exact readLines_of_end hread

end Reader

open H2LineDecoder

/-! ## The lines of a decoder -/

section Decoder

variable {maxBytes : UInt64} {buffer tail : Bytes} {chunks lines : List Bytes}

namespace H2LineDecoder

theorem drainLines_of_lines (h : Lines newline buffer lines tail) :
    drainLines buffer = (lines.map (popLast carriageReturn), tail) := by
  induction lines generalizing buffer with
  | nil =>
      obtain ⟨rfl, hnot⟩ := Lines.nil_iff.mp h
      rw [drainLines]
      split
      · rename_i before after hcut
        rw [cut_eq_none.mpr hnot] at hcut
        cases hcut
      · rfl
  | cons line lines ih =>
      obtain ⟨rest, rfl, hline, hrest⟩ := h.of_cons
      rw [drainLines]
      split
      · rename_i before after hcut
        rw [cut_append hline] at hcut
        cases hcut
        rw [ih hrest]
        simp
      · rename_i hcut
        rw [cut_append hline] at hcut
        cases hcut

theorem decodeChunks_of_fits {chunk : Bytes} (h : Lines newline (buffer ++ chunk) lines tail)
    (hfits : (buffer ++ chunk).length ≤ maxBytes.toNat) :
    decodeChunks ⟨buffer, maxBytes⟩ (chunk :: chunks) =
      (lines.map (popLast carriageReturn) ++ (decodeChunks ⟨tail, maxBytes⟩ chunks).1,
        (decodeChunks ⟨tail, maxBytes⟩ chunks).2) := by
  rw [decodeChunks, pushChunk, if_neg (Nat.not_lt.mpr hfits), drainLines_of_lines h]

theorem decodeChunks_of_exceeds {chunk : Bytes}
    (hlong : maxBytes.toNat < (buffer ++ chunk).length) :
    decodeChunks ⟨buffer, maxBytes⟩ (chunk :: chunks) = ([], some (.exceedsCap maxBytes)) := by
  rw [decodeChunks, pushChunk, if_pos hlong]

/-- Bytes within the cap come out as their lines, and the rest as it is. -/
theorem decodeChunks_of_short (h : Lines newline (buffer ++ chunks.flatten) lines tail)
    (hshort : (buffer ++ chunks.flatten).length ≤ maxBytes.toNat) (hnot : newline ∉ buffer) :
    decodeChunks ⟨buffer, maxBytes⟩ chunks =
      (lines.map (popLast carriageReturn) ++ (if tail = [] then [] else [tail]), none) := by
  induction chunks generalizing buffer lines with
  | nil =>
      rw [List.flatten_nil, List.append_nil] at h
      cases lines with
      | nil =>
          obtain ⟨rfl, -⟩ := Lines.nil_iff.mp h
          rw [decodeChunks, finish]
          by_cases hempty : buffer = [] <;> simp [hempty]
      | cons line lines => exact absurd h.sep_mem hnot
  | cons chunk chunks ih =>
      have hassoc : buffer ++ (chunk :: chunks).flatten = (buffer ++ chunk) ++ chunks.flatten := by
        simp
      rw [hassoc] at h hshort
      obtain ⟨lines₁, tail₁, hfirst⟩ := Lines.exists_lines newline (buffer ++ chunk)
      obtain ⟨lines₂, rfl, hrest⟩ := h.tail_of_append hfirst
      have hlength := hfirst.length_tail_le
      rw [List.length_append] at hshort
      rw [decodeChunks_of_fits hfirst (by omega), ih hrest _ hfirst.tail, List.map_append,
        List.append_assoc]
      rw [List.length_append]
      omega

/-- Without a newline within the cap, nothing comes out. -/
theorem decodeChunks_of_long (hlong : maxBytes.toNat < (buffer ++ chunks.flatten).length)
    (hnot : newline ∉ (buffer ++ chunks.flatten).take maxBytes.toNat)
    (hbuffer : buffer.length ≤ maxBytes.toNat) :
    decodeChunks ⟨buffer, maxBytes⟩ chunks = ([], some (.exceedsCap maxBytes)) := by
  induction chunks generalizing buffer with
  | nil =>
      rw [List.flatten_nil, List.append_nil] at hlong
      omega
  | cons chunk chunks ih =>
      by_cases hfits : (buffer ++ chunk).length ≤ maxBytes.toNat
      · have hassoc : buffer ++ (chunk :: chunks).flatten =
            (buffer ++ chunk) ++ chunks.flatten := by
          simp
        rw [hassoc] at hlong hnot
        have hquiet : newline ∉ buffer ++ chunk := by
          rw [List.take_append, List.mem_append, not_or, List.take_of_length_le hfits] at hnot
          exact hnot.1
        rw [decodeChunks_of_fits (Lines.nil_iff.mpr ⟨rfl, hquiet⟩) hfits, ih hlong hnot hfits]
        rfl
      · exact decodeChunks_of_exceeds (Nat.not_le.mp hfits)

/-- Only no bytes at all give no line and no error. -/
theorem eq_nil_of_decodeChunks (h : decodeChunks ⟨buffer, maxBytes⟩ chunks = ([], none)) :
    buffer ++ chunks.flatten = [] := by
  induction chunks generalizing buffer with
  | nil =>
      rw [decodeChunks, finish] at h
      by_cases hempty : buffer = []
      · simp [hempty]
      · rw [if_neg hempty] at h
        cases h
  | cons chunk chunks ih =>
      by_cases hfits : (buffer ++ chunk).length ≤ maxBytes.toNat
      · obtain ⟨lines, tail, hlines⟩ := Lines.exists_lines newline (buffer ++ chunk)
        rw [decodeChunks_of_fits hlines hfits, Prod.mk.injEq, List.append_eq_nil_iff,
          List.map_eq_nil_iff] at h
        obtain ⟨⟨rfl, hrest⟩, herror⟩ := h
        obtain ⟨rfl, -⟩ := Lines.nil_iff.mp hlines
        have hnil := ih (Prod.ext hrest herror)
        rw [List.flatten_cons, ← List.append_assoc, hnil]
      · rw [decodeChunks_of_exceeds (Nat.not_le.mp hfits)] at h
        cases h

theorem decodeChunks_ne_addOverflow :
    (decodeChunks ⟨buffer, maxBytes⟩ chunks).2 ≠ some .addOverflow := by
  induction chunks generalizing buffer with
  | nil => simp [decodeChunks]
  | cons chunk chunks ih =>
      by_cases hfits : (buffer ++ chunk).length ≤ maxBytes.toNat
      · obtain ⟨lines, tail, hlines⟩ := Lines.exists_lines newline (buffer ++ chunk)
        rw [decodeChunks_of_fits hlines hfits]
        exact ih
      · rw [decodeChunks_of_exceeds (Nat.not_le.mp hfits)]
        simp

end H2LineDecoder

/-! ## Agreement -/

/-- The decoder gives what the reader gives, where it holds `buffer` and is given `chunks`. It gives
up on a chunk that brings it over the cap: so does the reader if the first `maxBytes` of the bytes
that are not given out lack a newline. A carriage return at the very end it does not remove. -/
def Agrees (maxBytes : Nat) : Bytes → List Bytes → Prop
  | buffer, [] => buffer.getLast? ≠ some carriageReturn
  | buffer, chunk :: chunks =>
    if (buffer ++ chunk).length ≤ maxBytes then
      Agrees maxBytes (unfinished newline (buffer ++ chunk)) chunks
    else newline ∉ (buffer ++ chunk).take maxBytes

variable {overflowChecks : Bool}

theorem decodeChunks_eq_iff_agrees (hcap : maxBytes.toNat + 1 < u64Limit)
    (hbuffer : buffer.length ≤ maxBytes.toNat) (hnot : newline ∉ buffer) :
    decodeChunks ⟨buffer, maxBytes⟩ chunks =
        readLines overflowChecks maxBytes (buffer ++ chunks.flatten) ↔
      Agrees maxBytes.toNat buffer chunks := by
  induction chunks generalizing buffer with
  | nil =>
      rw [List.flatten_nil, List.append_nil, readLines_rest hcap hbuffer hnot, decodeChunks, finish,
        Agrees, ← popLast_eq_self]
      by_cases hempty : buffer = []
      · simp [hempty]
      · simp [hempty, eq_comm]
  | cons chunk chunks ih =>
      have hassoc : buffer ++ (chunk :: chunks).flatten = (buffer ++ chunk) ++ chunks.flatten := by
        simp
      rw [Agrees, hassoc]
      by_cases hfits : (buffer ++ chunk).length ≤ maxBytes.toNat
      · -- Both give out the lines that the chunk completes, and go on with what is left.
        obtain ⟨lines, tail, hlines⟩ := Lines.exists_lines newline (buffer ++ chunk)
        have hshort : ∀ line ∈ lines, line.length < maxBytes.toNat := fun line hmem =>
          lt_of_lt_of_le (hlines.length_lt hmem) hfits
        rw [if_pos hfits, decodeChunks_of_fits hlines hfits, readLines_append hcap hlines hshort,
          hlines.unfinished_eq, ← ih (hlines.length_tail_le.trans hfits) hlines.tail,
          Prod.mk.injEq, List.append_cancel_left_eq, ← Prod.ext_iff]
      · -- The decoder gives up; the reader does so too, unless a line ends within the cap.
        have hlong := Nat.not_le.mp hfits
        rw [if_neg hfits, decodeChunks_of_exceeds hlong]
        have hwhole : maxBytes.toNat < ((buffer ++ chunk) ++ chunks.flatten).length := by
          rw [List.length_append]
          omega
        have htake : ((buffer ++ chunk) ++ chunks.flatten).take maxBytes.toNat =
            (buffer ++ chunk).take maxBytes.toNat :=
          List.take_append_of_le_length hlong.le
        constructor
        · intro heq hmem
          rw [← htake] at hmem
          obtain ⟨line, rest, hstream, hline, hlength⟩ := exists_line_of_mem_take hmem
          rw [hstream, readLines_of_line (readLineMessage_of_cap
            (readLineMessageWithCap_line hcap hline hlength) (by simp))] at heq
          cases heq
        · intro hquiet
          rw [readLines_exceeds hcap hwhole (by rwa [htake])]

end Decoder

section Cuttings

variable {maxBytes : Nat} {buffer : Bytes} {chunks : List Bytes}

/-- Bytes within the cap are cut in vain: only the last of them counts. -/
theorem agrees_of_short (buffer : Bytes)
    (hshort : (buffer ++ chunks.flatten).length ≤ maxBytes)
    (hnot : newline ∉ buffer) :
    Agrees maxBytes buffer chunks ↔
      (unfinished newline (buffer ++ chunks.flatten)).getLast? ≠ some carriageReturn := by
  induction chunks generalizing buffer with
  | nil => rw [Agrees, List.flatten_nil, List.append_nil, unfinished_eq_self hnot]
  | cons chunk chunks ih =>
      have hassoc : buffer ++ (chunk :: chunks).flatten = (buffer ++ chunk) ++ chunks.flatten := by
        simp
      have hless := length_unfinished_le newline (buffer ++ chunk)
      rw [hassoc, List.length_append] at hshort
      rw [Agrees, if_pos (by omega), ih _ _ (sep_notMem_unfinished newline _),
        unfinished_append, hassoc]
      rw [List.length_append]
      omega

/-- Without a newline within the cap, it does not count where the bytes are cut. -/
theorem agrees_of_long (buffer : Bytes)
    (hlong : maxBytes < (buffer ++ chunks.flatten).length)
    (hnot : newline ∉ (buffer ++ chunks.flatten).take maxBytes) (hbuffer : buffer.length ≤ maxBytes) :
    Agrees maxBytes buffer chunks := by
  induction chunks generalizing buffer with
  | nil =>
      rw [List.flatten_nil, List.append_nil] at hlong
      omega
  | cons chunk chunks ih =>
      have hassoc : buffer ++ (chunk :: chunks).flatten = (buffer ++ chunk) ++ chunks.flatten := by
        simp
      rw [hassoc] at hlong hnot
      rw [Agrees]
      split
      · rename_i hfits
        rw [List.take_append, List.mem_append, not_or, List.take_of_length_le hfits] at hnot
        rw [unfinished_eq_self hnot.1]
        refine ih _ hlong ?_ hfits
        rw [List.take_append, List.mem_append, not_or, List.take_of_length_le hfits]
        exact hnot
      · rename_i hexceeds
        rwa [List.take_append_of_le_length (Nat.not_le.mp hexceeds).le] at hnot

end Cuttings

/-- A way to cut a stream into chunks. -/
structure Cutting (stream : Bytes) where
  chunks : List Bytes
  whole : chunks.flatten = stream

/-- The lines, or the error, that the decoder makes of a cutting. -/
def decode (maxBytes : UInt64) {stream : Bytes} (cutting : Cutting stream) :
    List Bytes × Option ReadError :=
  (H2LineDecoder.new maxBytes).decodeChunks cutting.chunks

theorem new_eq (maxBytes : UInt64) : H2LineDecoder.new maxBytes = ⟨[], maxBytes⟩ := rfl

section Streams

variable {overflowChecks : Bool} {maxBytes : UInt64} {stream : Bytes}

theorem decode_of_short (cutting : Cutting stream) {lines : List Bytes} {tail : Bytes}
    (hlines : Lines newline stream lines tail) (hshort : stream.length ≤ maxBytes.toNat) :
    decode maxBytes cutting =
      (lines.map (popLast carriageReturn) ++ (if tail = [] then [] else [tail]), none) := by
  obtain ⟨chunks, rfl⟩ := cutting
  rw [decode, new_eq]
  exact decodeChunks_of_short hlines hshort List.not_mem_nil

theorem decode_of_long (cutting : Cutting stream) (hlong : maxBytes.toNat < stream.length)
    (hnot : newline ∉ stream.take maxBytes.toNat) :
    decode maxBytes cutting = ([], some (.exceedsCap maxBytes)) := by
  obtain ⟨chunks, rfl⟩ := cutting
  rw [decode, new_eq]
  exact decodeChunks_of_long hlong hnot (Nat.zero_le _)

/-- At the largest cap the decoder is alone: the reader reads nothing, or the build stops it. -/
theorem decode_eq_iff_of_overflow (hcap : maxBytes.toNat + 1 = u64Limit)
    (cutting : Cutting stream) :
    decode maxBytes cutting = readLines overflowChecks maxBytes stream ↔
      overflowChecks = false ∧ stream = [] := by
  rw [readLines_of_overflow hcap]
  constructor
  · intro h
    obtain ⟨chunks, rfl⟩ := cutting
    rw [decode, new_eq] at h
    cases overflowChecks with
    | true => exact absurd (congrArg Prod.snd h) decodeChunks_ne_addOverflow
    | false => exact ⟨rfl, eq_nil_of_decodeChunks h⟩
  · rintro ⟨rfl, rfl⟩
    rw [decode_of_short cutting (Lines.nil_iff.mpr ⟨rfl, List.not_mem_nil⟩) (Nat.zero_le _)]
    rfl

/-- The decoder and the reader on one cutting. -/
theorem decode_eq_iff (cutting : Cutting stream) :
    decode maxBytes cutting = readLines overflowChecks maxBytes stream ↔
      (maxBytes.toNat + 1 < u64Limit ∧ Agrees maxBytes.toNat [] cutting.chunks) ∨
      (maxBytes.toNat + 1 = u64Limit ∧ overflowChecks = false ∧ stream = []) := by
  rcases Nat.lt_or_eq_of_le (show maxBytes.toNat + 1 ≤ u64Limit from maxBytes.toNat_lt) with
    hcap | hcap
  · obtain ⟨chunks, rfl⟩ := cutting
    have hiff : decodeChunks ⟨[], maxBytes⟩ chunks =
          readLines overflowChecks maxBytes ([] ++ chunks.flatten) ↔
        Agrees maxBytes.toNat [] chunks :=
      decodeChunks_eq_iff_agrees hcap (Nat.zero_le _) List.not_mem_nil
    rw [List.nil_append] at hiff
    rw [decode, new_eq, hiff]
    exact ⟨fun h => .inl ⟨hcap, h⟩, fun h => h.elim And.right fun h => by omega⟩
  · rw [decode_eq_iff_of_overflow hcap]
    exact ⟨fun h => .inr ⟨hcap, h⟩, fun h => h.elim (fun h => by omega) And.right⟩

/-- Every cutting agrees when the whole stream in one chunk does. -/
theorem forall_agrees_iff :
    (∀ cutting : Cutting stream, Agrees maxBytes.toNat [] cutting.chunks) ↔
      if stream.length ≤ maxBytes.toNat then
        (unfinished newline stream).getLast? ≠ some carriageReturn
      else newline ∉ stream.take maxBytes.toNat := by
  constructor
  · intro h
    have hwhole := h ⟨[stream], by simp⟩
    rwa [Agrees, List.nil_append, Agrees] at hwhole
  · rintro h ⟨chunks, rfl⟩
    split at h
    · rename_i hshort
      exact (agrees_of_short [] hshort List.not_mem_nil).mpr h
    · rename_i hlong
      exact agrees_of_long [] (Nat.not_le.mp hlong) h (Nat.zero_le _)

/-- The decoder does not see where a stream is cut as long as it has no line to give out before
the bytes exceed the cap. -/
theorem decode_eq_decode_iff :
    (∀ cutting cutting' : Cutting stream, decode maxBytes cutting = decode maxBytes cutting') ↔
      stream.length ≤ maxBytes.toNat ∨ newline ∉ stream.take maxBytes.toNat := by
  constructor
  · intro h
    by_contra hboth
    obtain ⟨hlong, hmem⟩ := not_or.mp hboth
    obtain ⟨line, rest, rfl, hline, hlength⟩ := exists_line_of_mem_take (not_not.mp hmem)
    have hcut := h ⟨[line ++ [newline], rest], by simp⟩ ⟨[line ++ newline :: rest], by simp⟩
    have hlines : Lines newline ([] ++ (line ++ [newline])) [line] [] :=
      Lines.cons hline (Lines.nil_iff.mpr ⟨rfl, List.not_mem_nil⟩)
    have hfits : ([] ++ (line ++ [newline])).length ≤ maxBytes.toNat := by
      simpa using Nat.succ_le_of_lt hlength
    have hwhole : decodeChunks ⟨[], maxBytes⟩ [line ++ newline :: rest] =
        ([], some (.exceedsCap maxBytes)) := decodeChunks_of_exceeds (Nat.not_le.mp hlong)
    rw [decode, decode, new_eq, decodeChunks_of_fits hlines hfits, hwhole] at hcut
    cases hcut
  · intro h cutting cutting'
    by_cases hshort : stream.length ≤ maxBytes.toNat
    · obtain ⟨lines, tail, hlines⟩ := Lines.exists_lines newline stream
      rw [decode_of_short cutting hlines hshort, decode_of_short cutting' hlines hshort]
    · have hlong := Nat.not_le.mp hshort
      have hnot := h.resolve_left hshort
      rw [decode_of_long cutting hlong hnot, decode_of_long cutting' hlong hnot]

end Streams

/-- The decoder and the reader on one stream, cutting by cutting and for all cuttings, and the
cuttings among each other. -/
theorem decode_agrees_iff (overflowChecks : Bool) (maxBytes : UInt64) (stream : Bytes) :
    (∀ cutting : Cutting stream,
      decode maxBytes cutting = readLines overflowChecks maxBytes stream ↔
        (maxBytes.toNat + 1 < u64Limit ∧ Agrees maxBytes.toNat [] cutting.chunks) ∨
        (maxBytes.toNat + 1 = u64Limit ∧ overflowChecks = false ∧ stream = [])) ∧
    ((∀ cutting : Cutting stream,
        decode maxBytes cutting = readLines overflowChecks maxBytes stream) ↔
      (maxBytes.toNat + 1 < u64Limit ∧
        if stream.length ≤ maxBytes.toNat then
          (unfinished newline stream).getLast? ≠ some carriageReturn
        else newline ∉ stream.take maxBytes.toNat) ∨
      (maxBytes.toNat + 1 = u64Limit ∧ overflowChecks = false ∧ stream = [])) ∧
    ((∀ cutting cutting' : Cutting stream, decode maxBytes cutting = decode maxBytes cutting') ↔
      stream.length ≤ maxBytes.toNat ∨ newline ∉ stream.take maxBytes.toNat) := by
  refine ⟨decode_eq_iff, ?_, decode_eq_decode_iff⟩
  rw [← forall_agrees_iff]
  simp only [decode_eq_iff]
  constructor
  · intro h
    rcases h ⟨[stream], by simp⟩ with ⟨hcap, -⟩ | hlast
    · exact .inl ⟨hcap, fun cutting => (h cutting).elim And.right fun hlast => by omega⟩
    · exact .inr hlast
  · rintro (⟨hcap, hall⟩ | hlast) cutting
    · exact .inl ⟨hcap, hall cutting⟩
    · exact .inr hlast

/-- Two lines of two bytes, under a cap of four bytes, come out one by one but not together; and a
carriage return at the very end is kept. -/
theorem cutting_decides_lines :
    ¬∀ (overflowChecks : Bool) (maxBytes : UInt64) (stream : Bytes),
      (∀ cutting : Cutting stream,
        decode maxBytes cutting = readLines overflowChecks maxBytes stream) ∧
      ∀ cutting cutting' : Cutting stream, decode maxBytes cutting = decode maxBytes cutting' := by
  intro h
  have hcut := (h false 4 (ascii "ab" ++ newline :: (ascii "cd" ++ [newline]))).2
    ⟨[ascii "ab" ++ [newline], ascii "cd" ++ [newline]], by decide⟩
    ⟨[ascii "ab" ++ newline :: (ascii "cd" ++ [newline])], by decide⟩
  have hlines : Lines newline ([] ++ (ascii "ab" ++ [newline])) [ascii "ab"] [] :=
    ⟨rfl, by simp [ascii, newline], List.not_mem_nil⟩
  have hwhole : decodeChunks ⟨[], 4⟩ [ascii "ab" ++ newline :: (ascii "cd" ++ [newline])] =
      ([], some (.exceedsCap 4)) := decodeChunks_of_exceeds (by decide)
  rw [decode, decode, new_eq, decodeChunks_of_fits hlines (by decide), hwhole] at hcut
  cases hcut

end Muxly.Bridge
