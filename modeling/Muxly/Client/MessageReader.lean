/-
# Muxly.Client.MessageReader -- lines out of the bytes that arrive

`MessageReader` of `transport.zig`, which the client and the daemon share. How the bytes of a peer
are split into reads is up to the outside: `Read` says how much arrives at once. What carries all
results is `readMessageLine_conserves`: the bytes that the reader holds, followed by those that have
not arrived yet, change by the line that is returned and by nothing else.
-/
import Muxly.Core.Projection

namespace Muxly.Client

open Muxly.Core

/-! ## Lines -/

/-- The first line of a text, and what follows its newline. -/
def splitLine : Bytes → Option (Bytes × Bytes)
  | [] => none
  | c :: rest =>
    if c = newline then some ([], rest) else (splitLine rest).map fun (line, rest) => (c :: line, rest)

theorem splitLine_eq_some {text line rest : Bytes} :
    splitLine text = some (line, rest) ↔ text = line ++ newline :: rest ∧ newline ∉ line := by
  induction text generalizing line with
  | nil => simp [splitLine]
  | cons c more ih =>
      rw [splitLine]
      by_cases hc : c = newline
      · subst hc
        rw [if_pos rfl]
        cases line with
        | nil => simp
        | cons d line =>
            simp only [Option.some.injEq, Prod.mk.injEq, List.cons_append, List.cons.injEq,
              List.mem_cons, not_or]
            refine ⟨fun h => ?_, fun h => absurd h.1.1 h.2.1⟩
            cases h.1
      · rw [if_neg hc]
        cases line with
        | nil => simp [hc]
        | cons d line =>
            simp only [Option.map_eq_some_iff, Prod.mk.injEq, List.cons.injEq, List.cons_append,
              List.mem_cons, not_or, Prod.exists]
            constructor
            · rintro ⟨line', rest', h, ⟨rfl, rfl⟩, rfl⟩
              obtain ⟨rfl, hnot⟩ := ih.mp h
              exact ⟨⟨rfl, rfl⟩, Ne.symm hc, hnot⟩
            · rintro ⟨⟨rfl, rfl⟩, -, hnot⟩
              exact ⟨line, rest, ih.mpr ⟨rfl, hnot⟩, ⟨rfl, rfl⟩, rfl⟩

theorem splitLine_eq_none {text : Bytes} : splitLine text = none ↔ newline ∉ text := by
  induction text with
  | nil => simp [splitLine]
  | cons c more ih =>
      rw [splitLine]
      by_cases hc : c = newline
      · simp [hc]
      · simp [hc, ih, Ne.symm hc]

/-- A text has one first line. -/
theorem line_inj {line line' rest rest' : Bytes} (hnot : newline ∉ line) (hnot' : newline ∉ line')
    (h : line ++ newline :: rest = line' ++ newline :: rest') : line = line' ∧ rest = rest' := by
  have hsplit := splitLine_eq_some.mpr ⟨h, hnot'⟩
  rw [splitLine_eq_some.mpr ⟨rfl, hnot⟩] at hsplit
  cases hsplit
  exact ⟨rfl, rfl⟩

/-- A text with a newline has a first line. -/
theorem exists_line_of_mem {text : Bytes} (h : newline ∈ text) :
    ∃ line rest, text = line ++ newline :: rest ∧ newline ∉ line := by
  obtain ⟨⟨line, rest⟩, hsplit⟩ : ∃ split, splitLine text = some split :=
    Option.ne_none_iff_exists'.mp fun hnone => splitLine_eq_none.mp hnone h
  exact ⟨line, rest, splitLine_eq_some.mp hsplit⟩

/-! ## The reader -/

/-- What a call of `read` meets. -/
inductive Read where
  /-- At most `most + 1` bytes arrive. -/
  | bytes (most : Nat)
  /-- The peer has closed, after what it sent. -/
  | closed
  | failed
  deriving DecidableEq

/-- The bytes that the reader holds, and those that it has not read yet. -/
structure MessageReader where
  pending : Bytes
  incoming : Bytes
  deriving DecidableEq

/-- How `readMessageLine` ends. -/
inductive ReadOutcome where
  | line (line : Bytes)
  | endOfStream
  | failed
  | messageTooLarge
  /-- Not yet: the last read has not returned. -/
  | waiting
  deriving DecidableEq

namespace MessageReader

/-- The size of the buffer. -/
def bufferSize : Nat := 4096

/-- The bytes that the reader can still return. -/
def stream (reader : MessageReader) : Bytes := reader.pending ++ reader.incoming

/-- What one read moves into the reader. -/
def receive (reader : MessageReader) (most : Nat) : MessageReader :=
  let count := min (most + 1) bufferSize
  { pending := reader.pending ++ reader.incoming.take count
    incoming := reader.incoming.drop count }

/-- `readMessageLine`. -/
def readMessageLine (maxBytes : Nat) : List Read → MessageReader → ReadOutcome × MessageReader
  | reads, reader =>
    match splitLine reader.pending, reads with
    | some (line, rest), _ => (.line line, { reader with pending := rest })
    | none, [] => (.waiting, reader)
    | none, .failed :: _ => (.failed, reader)
    | none, .closed :: _ =>
      if reader.incoming = [] then
        if reader.pending = [] then (.endOfStream, reader)
        else (.line reader.pending, { reader with pending := [] })
      else (.waiting, reader)
    | none, .bytes most :: reads =>
      if reader.incoming = [] then (.waiting, reader)
      else
        let reader := reader.receive most
        if maxBytes < reader.pending.length then (.messageTooLarge, reader)
        else readMessageLine maxBytes reads reader

variable (reader : MessageReader)

@[simp]
theorem stream_receive (most : Nat) : (reader.receive most).stream = reader.stream := by
  simp [stream, receive]

theorem length_pending_le : reader.pending.length ≤ reader.stream.length := by
  simp [stream]

/-- What a call can do. Nothing is lost and nothing is added: only a line leaves the stream. -/
inductive Returns (maxBytes : Nat) (reads : List Read) (reader : MessageReader) :
    ReadOutcome → MessageReader → Prop
  | line {line : Bytes} {reader' : MessageReader} (hline : newline ∉ line)
      (hstream : reader.stream = line ++ newline :: reader'.stream)
      (hfits : newline ∈ reader.pending ∨ line.length < maxBytes) :
      Returns maxBytes reads reader (.line line) reader'
  | last {reader' : MessageReader} (hclosed : .closed ∈ reads) (hline : newline ∉ reader.stream)
      (hstream : reader'.stream = []) : Returns maxBytes reads reader (.line reader.stream) reader'
  | endOfStream {reader' : MessageReader} (hempty : reader.stream = [])
      (hstream : reader'.stream = reader.stream) : Returns maxBytes reads reader .endOfStream reader'
  | failed {reader' : MessageReader} (hfailed : .failed ∈ reads)
      (hstream : reader'.stream = reader.stream) : Returns maxBytes reads reader .failed reader'
  | messageTooLarge {reader' : MessageReader} (hlarge : maxBytes < reader.stream.length)
      (hstream : reader'.stream = reader.stream) :
      Returns maxBytes reads reader .messageTooLarge reader'
  | waiting {reader' : MessageReader} (hstream : reader'.stream = reader.stream) :
      Returns maxBytes reads reader .waiting reader'

theorem Returns.of_receive {maxBytes most : Nat} {reads : List Read} {reader reader' : MessageReader}
    {outcome : ReadOutcome} (h : Returns maxBytes reads (reader.receive most) outcome reader')
    (hpending : (reader.receive most).pending.length ≤ maxBytes) :
    Returns maxBytes (.bytes most :: reads) reader outcome reader' := by
  cases h with
  | @line line _ hline hstream hfits =>
      refine .line hline (by rw [← hstream, stream_receive]) (.inr ?_)
      rcases hfits with hmem | hfits
      · obtain ⟨first, rest, htext, hnot⟩ := exists_line_of_mem hmem
        have hstream' : (reader.receive most).stream =
            first ++ newline :: (rest ++ (reader.receive most).incoming) := by simp [stream, htext]
        obtain ⟨rfl, -⟩ := line_inj hline hnot (hstream.symm.trans hstream')
        rw [htext] at hpending
        simp only [List.length_append, List.length_cons] at hpending
        omega
      · exact hfits
  | last hclosed hline hstream =>
      rw [stream_receive] at hline ⊢
      exact .last (List.mem_cons_of_mem _ hclosed) hline hstream
  | endOfStream hempty hstream => exact .endOfStream (by simpa using hempty) (by simpa using hstream)
  | failed hfailed hstream => exact .failed (List.mem_cons_of_mem _ hfailed) (by simpa using hstream)
  | messageTooLarge hlarge hstream =>
      exact .messageTooLarge (by simpa using hlarge) (by simpa using hstream)
  | waiting hstream => exact .waiting (by simpa using hstream)

/-- While the peer has not closed, a line that is returned holds no newline. -/
theorem Returns.newline_not_mem {maxBytes : Nat} {reads : List Read} {reader reader' : MessageReader}
    {line : Bytes} (h : Returns maxBytes reads reader (.line line) reader')
    (hopen : .closed ∉ reads) : newline ∉ line := by
  generalize hline : ReadOutcome.line line = outcome at h
  cases h with
  | line hnot =>
      cases hline
      exact hnot
  | last hclosed => exact absurd hclosed hopen
  | _ => cases hline

/-- The specification of `readMessageLine`, for every way in which the bytes arrive. -/
theorem readMessageLine_returns (maxBytes : Nat) (reads : List Read) (reader : MessageReader) :
    Returns maxBytes reads reader (readMessageLine maxBytes reads reader).1
      (readMessageLine maxBytes reads reader).2 := by
  fun_induction readMessageLine maxBytes reads reader with
  | case1 reads reader line rest hsplit =>
      obtain ⟨htext, hline⟩ := splitLine_eq_some.mp hsplit
      exact .line hline (by simp [stream, htext]) (.inl (by simp [htext]))
  | case2 reader => exact .waiting rfl
  | case3 reader reads => exact .failed (List.mem_cons_self ..) rfl
  | case4 reader reads hsplit hincoming hpending =>
      exact .endOfStream (by simp [stream, hincoming, hpending]) rfl
  | case5 reader reads hsplit hincoming hpending =>
      have hstream : reader.stream = reader.pending := by simp [stream, hincoming]
      rw [← hstream]
      exact .last (List.mem_cons_self ..) (hstream ▸ splitLine_eq_none.mp hsplit)
        (by simp [stream, hincoming])
  | case6 reader reads => exact .waiting rfl
  | case7 reader most reads => exact .waiting rfl
  | case8 reader most reads hsplit hincoming received hlarge =>
      refine .messageTooLarge (lt_of_lt_of_le hlarge ?_) (stream_receive ..)
      rw [← stream_receive reader most]
      exact length_pending_le _
  | case9 reader most reads hsplit hincoming received hlarge ih =>
      exact ih.of_receive (Nat.not_lt.mp hlarge)

/-- Once everything has arrived, the reader does not wait for more. -/
theorem readMessageLine_ne_waiting {maxBytes : Nat} {reads : List Read} {reader : MessageReader}
    (hreads : ∀ read ∈ reads, ∃ most, read = .bytes most)
    (hall : reader.incoming.length ≤ reads.length) (hline : newline ∈ reader.stream) :
    (readMessageLine maxBytes reads reader).1 ≠ .waiting := by
  fun_induction readMessageLine maxBytes reads reader with
  | case1 => simp
  | case2 reader hsplit =>
      have hincoming : reader.incoming = [] := List.length_eq_zero_iff.mp (Nat.le_zero.mp hall)
      rw [stream, hincoming, List.append_nil] at hline
      exact absurd hline (splitLine_eq_none.mp hsplit)
  | case3 => simp
  | case4 => simp
  | case5 => simp
  | case6 =>
      obtain ⟨most, heq⟩ := hreads _ (List.mem_cons_self ..)
      cases heq
  | case7 reader most reads hsplit hincoming =>
      rw [stream, hincoming, List.append_nil] at hline
      exact absurd hline (splitLine_eq_none.mp hsplit)
  | case8 => simp
  | case9 reader most reads hsplit hincoming received hlarge ih =>
      refine ih (fun read hread => hreads read (List.mem_cons_of_mem _ hread)) ?_ (by simpa [received])
      have hpos := List.length_pos_iff.mpr hincoming
      simp only [List.length_cons] at hall
      simp only [received, receive, bufferSize, List.length_drop]
      omega

/-- A single line that arrives in any pieces is read as that line, unless it is too long. -/
theorem readMessageLine_single {maxBytes : Nat} {reads : List Read} {line : Bytes}
    (hnot : newline ∉ line) (hreads : ∀ read ∈ reads, ∃ most, read = .bytes most)
    (hall : line.length < reads.length) :
    (line.length < maxBytes → ∃ reader', reader'.stream = [] ∧
      readMessageLine maxBytes reads ⟨[], line ++ [newline]⟩ = (.line line, reader')) ∧
    (maxBytes ≤ line.length →
      (readMessageLine maxBytes reads ⟨[], line ++ [newline]⟩).1 = .messageTooLarge) := by
  have hlength : (MessageReader.mk [] (line ++ [newline])).incoming.length ≤ reads.length := by
    simpa using Nat.succ_le_of_lt hall
  have hwaiting := @readMessageLine_ne_waiting maxBytes _ _ hreads hlength (by simp [stream])
  have hreturns := readMessageLine_returns maxBytes reads ⟨[], line ++ [newline]⟩
  generalize readMessageLine maxBytes reads ⟨[], line ++ [newline]⟩ = result at hwaiting hreturns
  obtain ⟨outcome, reader'⟩ := result
  have hstream₀ : (MessageReader.mk [] (line ++ [newline])).stream = line ++ [newline] := rfl
  cases hreturns with
  | line hline hstream hfits =>
      obtain ⟨rfl, hrest⟩ := line_inj hnot hline (hstream₀ ▸ hstream)
      have hfits : line.length < maxBytes := by simpa using hfits
      exact ⟨fun _ => ⟨reader', hrest.symm, rfl⟩, fun hlarge => by omega⟩
  | last hclosed =>
      obtain ⟨most, heq⟩ := hreads _ hclosed
      cases heq
  | endOfStream hempty => simp [stream] at hempty
  | failed hfailed =>
      obtain ⟨most, heq⟩ := hreads _ hfailed
      cases heq
  | messageTooLarge hlarge =>
      simp only [hstream₀, List.length_append, List.length_singleton] at hlarge
      exact ⟨fun hfits => by omega, fun _ => rfl⟩
  | waiting => exact absurd rfl hwaiting

end MessageReader

end Muxly.Client
