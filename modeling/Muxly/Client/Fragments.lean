/-
# Muxly.Client.Fragments -- the lines of a stream that arrives in pieces

`readMessageLine` called again and again on one stream, for every way in which its bytes are split
into reads. The cap is compared with all the bytes that are pending after a read, the newline and
what follows it included. A line of exactly the cap is therefore refused, and so are two short lines
that one read brings together: whether the lines come out depends on the split.

What a call does to a split stream is `Call`, a single step; the calls after it meet what it left.
-/
import Muxly.Client.MessageReader
import Muxly.Data.Lines

namespace Muxly.Client.MessageReader

open Muxly.Core Muxly.Data

/-! ## Calls on one stream -/

/-- The reads that a call of `readMessageLine` leaves to the calls after it. -/
def readsLeft (maxBytes : Nat) : List Read → MessageReader → List Read
  | reads, reader =>
    match splitLine reader.pending, reads with
    | some _, reads => reads
    | none, [] => []
    | none, .failed :: reads => reads
    | none, .closed :: reads => reads
    | none, .bytes most :: reads =>
      if reader.incoming = [] then reads
      else
        let reader := reader.receive most
        if maxBytes < reader.pending.length then reads
        else readsLeft maxBytes reads reader

/-- What `calls` calls of `readMessageLine` return, whatever the ones before return. -/
def readMessages (maxBytes : Nat) : Nat → List Read → MessageReader → List ReadOutcome
  | 0, _, _ => []
  | calls + 1, reads, reader =>
    let result := readMessageLine maxBytes reads reader
    result.1 :: readMessages maxBytes calls (readsLeft maxBytes reads reader) result.2

/-- The reads that bring a stream in the given pieces. -/
def chunkReads (chunks : List Bytes) : List Read :=
  chunks.map fun chunk => .bytes (chunk.length - 1)

/-- A way in which reads can split a stream: no read is empty, or larger than the buffer. -/
structure Fragments (stream : Bytes) where
  chunks : List Bytes
  whole : chunks.flatten = stream
  sizes : ∀ chunk ∈ chunks, chunk ≠ [] ∧ chunk.length ≤ bufferSize

/-- What `calls` calls return on a stream that arrives in fragments, and then ends. -/
def readFragments (maxBytes calls : Nat) {stream : Bytes} (fragments : Fragments stream) :
    List ReadOutcome :=
  readMessages maxBytes calls (chunkReads fragments.chunks ++ List.replicate calls .closed)
    ⟨[], stream⟩

/-- No read brings the pending bytes over the cap: what the reads before it left of a line, and the
whole of what it brings. -/
def Fits (maxBytes : Nat) : Bytes → List Bytes → Prop
  | _, [] => True
  | pending, chunk :: chunks =>
    (unfinished newline pending).length + chunk.length ≤ maxBytes ∧
      Fits maxBytes (unfinished newline pending ++ chunk) chunks

instance Fits.decidable (maxBytes : Nat) (pending : Bytes) (chunks : List Bytes) :
    Decidable (Fits maxBytes pending chunks) :=
  match chunks with
  | [] => isTrue trivial
  | chunk :: chunks =>
    haveI := Fits.decidable maxBytes (unfinished newline pending ++ chunk) chunks
    inferInstanceAs (Decidable (_ ∧ _))

/-- What the calls are to return: the lines, the rest if there is one, and then the end. -/
def expected : Nat → List Bytes → Bytes → List ReadOutcome
  | 0, _, _ => []
  | calls + 1, line :: lines, tail => .line line :: expected calls lines tail
  | calls + 1, [], tail =>
    (if tail = [] then .endOfStream else .line tail) :: expected calls [] []

/-! ## One call -/

variable {maxBytes calls : Nat} {pending pending' line tail : Bytes} {chunks chunks' : List Bytes}
  {lines : List Bytes} {outcome : ReadOutcome}

/-- Only the unfinished line of what is pending counts. -/
theorem Fits.congr (h : unfinished newline pending = unfinished newline pending') :
    Fits maxBytes pending chunks ↔ Fits maxBytes pending' chunks := by
  cases chunks with
  | nil => exact Iff.rfl
  | cons chunk chunks => simp only [Fits, h]

/-- What one call does: on what is pending, on the chunks that are still to come, and on whether
those fit. -/
inductive Call (maxBytes : Nat) (pending : Bytes) (chunks : List Bytes) :
    ReadOutcome → Bytes → List Bytes → Prop
  | line {line pending' : Bytes} {chunks' : List Bytes} (hline : newline ∉ line)
      (hstream : pending ++ chunks.flatten = line ++ newline :: (pending' ++ chunks'.flatten))
      (hfits : Fits maxBytes pending chunks ↔ Fits maxBytes pending' chunks')
      (hless : chunks'.length ≤ chunks.length) :
      Call maxBytes pending chunks (.line line) pending' chunks'
  | last (hline : newline ∉ pending ++ chunks.flatten) (hne : pending ++ chunks.flatten ≠ [])
      (hfits : Fits maxBytes pending chunks) :
      Call maxBytes pending chunks (.line (pending ++ chunks.flatten)) [] []
  | endOfStream (hempty : pending = []) (hchunks : chunks = []) :
      Call maxBytes pending chunks .endOfStream [] []
  | messageTooLarge {pending' : Bytes} {chunks' : List Bytes}
      (hstream : pending' ++ chunks'.flatten = pending ++ chunks.flatten)
      (hfits : ¬Fits maxBytes pending chunks) (hless : chunks'.length < chunks.length) :
      Call maxBytes pending chunks .messageTooLarge pending' chunks'

/-- A call that reads a chunk goes on as a call that has it. -/
theorem Call.of_receive {chunk : Bytes} (hpending : newline ∉ pending) (hchunk : chunk ≠ [])
    (hroom : (pending ++ chunk).length ≤ maxBytes)
    (h : Call maxBytes (pending ++ chunk) chunks outcome pending' chunks') :
    Call maxBytes pending (chunk :: chunks) outcome pending' chunks' := by
  have hstream : (pending ++ chunk) ++ chunks.flatten = pending ++ (chunk :: chunks).flatten := by
    simp
  have hfits : Fits maxBytes pending (chunk :: chunks) ↔ Fits maxBytes (pending ++ chunk) chunks := by
    rw [Fits, unfinished_eq_self hpending, ← List.length_append]
    exact and_iff_right hroom
  cases h with
  | line hline hwhole hiff hless =>
      exact .line hline (hstream ▸ hwhole) (hfits.trans hiff) (Nat.le_succ_of_le hless)
  | last hline hne hlast =>
      rw [hstream] at hline hne ⊢
      exact .last hline hne (hfits.mpr hlast)
  | endOfStream hempty => exact absurd (List.append_eq_nil_iff.mp hempty).2 hchunk
  | messageTooLarge hwhole hnot hless =>
      exact .messageTooLarge (hwhole.trans hstream) (mt hfits.mp hnot) (Nat.lt_succ_of_lt hless)

section Unfold

variable (maxBytes : Nat) (reads : List Read)

theorem readMessageLine_of_line {reader : MessageReader} {rest : Bytes}
    (h : splitLine reader.pending = some (line, rest)) :
    readMessageLine maxBytes reads reader = (.line line, { reader with pending := rest }) ∧
      readsLeft maxBytes reads reader = reads := by
  rw [readMessageLine.eq_def, readsLeft.eq_def]
  simp only [h, and_self]

theorem readMessageLine_of_closed (h : newline ∉ pending) :
    readMessageLine maxBytes (.closed :: reads) ⟨pending, []⟩ =
        (if pending = [] then .endOfStream else .line pending, ⟨[], []⟩) ∧
      readsLeft maxBytes (.closed :: reads) ⟨pending, []⟩ = reads := by
  rw [readMessageLine.eq_def, readsLeft.eq_def]
  simp only [splitLine_eq_none.mpr h, and_true]
  by_cases hempty : pending = [] <;> simp [hempty]

/-- A read takes exactly a chunk. -/
theorem readMessageLine_of_chunk (chunks : List Bytes) {chunk : Bytes} (h : newline ∉ pending)
    (hchunk : chunk ≠ []) (hsize : chunk.length ≤ bufferSize) :
    (readMessageLine maxBytes (.bytes (chunk.length - 1) :: reads)
        ⟨pending, (chunk :: chunks).flatten⟩ =
      if maxBytes < (pending ++ chunk).length then
        (.messageTooLarge, ⟨pending ++ chunk, chunks.flatten⟩)
      else readMessageLine maxBytes reads ⟨pending ++ chunk, chunks.flatten⟩) ∧
    readsLeft maxBytes (.bytes (chunk.length - 1) :: reads) ⟨pending, (chunk :: chunks).flatten⟩ =
      if maxBytes < (pending ++ chunk).length then reads
      else readsLeft maxBytes reads ⟨pending ++ chunk, chunks.flatten⟩ := by
  have hincoming : (chunk :: chunks).flatten ≠ [] := by simp [hchunk]
  have hpos := List.length_pos_iff.mpr hchunk
  have hcount : min (chunk.length - 1 + 1) bufferSize = chunk.length := by omega
  have hreceive : (MessageReader.mk pending (chunk :: chunks).flatten).receive (chunk.length - 1) =
      ⟨pending ++ chunk, chunks.flatten⟩ := by
    simp [receive, hcount]
  rw [readMessageLine.eq_def, readsLeft.eq_def]
  simp only [splitLine_eq_none.mpr h, hreceive]
  rw [if_neg hincoming, if_neg hincoming]
  exact ⟨rfl, rfl⟩

end Unfold

/-- What a call does and leaves, where `closed` reads find the end of the stream after the chunks. -/
def Calls (maxBytes : Nat) (pending : Bytes) (chunks : List Bytes) (closed : Nat) : Prop :=
  ∃ outcome pending' chunks' closed', Call maxBytes pending chunks outcome pending' chunks' ∧
    readMessageLine maxBytes (chunkReads chunks ++ List.replicate closed .closed)
      ⟨pending, chunks.flatten⟩ = (outcome, ⟨pending', chunks'.flatten⟩) ∧
    readsLeft maxBytes (chunkReads chunks ++ List.replicate closed .closed)
      ⟨pending, chunks.flatten⟩ = chunkReads chunks' ++ List.replicate closed' .closed ∧
    closed ≤ closed' + 1 ∧ ∀ chunk ∈ chunks', chunk ∈ chunks

theorem calls_of_line {closed : Nat} (h : newline ∈ pending) :
    Calls maxBytes pending chunks closed := by
  obtain ⟨line, rest, rfl, hline⟩ := exists_line_of_mem h
  have hsplit : splitLine (MessageReader.mk (line ++ newline :: rest) chunks.flatten).pending =
      some (line, rest) := splitLine_eq_some.mpr ⟨rfl, hline⟩
  obtain ⟨hresult, hleft⟩ := readMessageLine_of_line maxBytes
    (chunkReads chunks ++ List.replicate closed .closed) hsplit
  refine ⟨_, rest, chunks, closed, ?_, hresult, hleft, Nat.le_succ closed, fun _ h => h⟩
  exact .line hline (by simp) (Fits.congr (unfinished_cons_line line rest)) (Nat.le_refl _)

/-- The specification of a call on a stream that arrives in chunks. -/
theorem calls_of_chunks (maxBytes : Nat) (pending : Bytes)
    (hsizes : ∀ chunk ∈ chunks, chunk ≠ [] ∧ chunk.length ≤ bufferSize) (closed : Nat) :
    Calls maxBytes pending chunks (closed + 1) := by
  induction chunks generalizing pending with
  | nil =>
      by_cases hnot : newline ∈ pending
      · exact calls_of_line hnot
      · obtain ⟨hresult, hleft⟩ := readMessageLine_of_closed maxBytes
          (List.replicate closed .closed) hnot
        refine ⟨_, [], [], closed, ?_, hresult, hleft, Nat.le_refl _, fun _ h => h⟩
        by_cases hempty : pending = []
        · rw [if_pos hempty]
          exact .endOfStream hempty rfl
        · rw [if_neg hempty]
          have hlast : Call maxBytes pending [] (.line (pending ++ [].flatten)) [] [] :=
            .last (by simpa using hnot) (by simpa using hempty) trivial
          simpa using hlast
  | cons chunk chunks ih =>
      by_cases hnot : newline ∈ pending
      · exact calls_of_line hnot
      · obtain ⟨⟨hchunk, hsize⟩, hrest⟩ := List.forall_mem_cons.mp hsizes
        obtain ⟨hresult, hleft⟩ := readMessageLine_of_chunk maxBytes
          (chunkReads chunks ++ List.replicate (closed + 1) .closed) chunks hnot hchunk hsize
        by_cases hlarge : maxBytes < (pending ++ chunk).length
        · -- The cap is compared with all that is pending, not with the line that the chunk ends.
          rw [if_pos hlarge] at hresult hleft
          refine ⟨_, pending ++ chunk, chunks, closed + 1, ?_, hresult, hleft, Nat.le_succ _,
            fun _ h => List.mem_cons_of_mem _ h⟩
          refine .messageTooLarge (by simp) (fun hfits => ?_) (Nat.lt_succ_self _)
          have hroom := hfits.1
          rw [unfinished_eq_self hnot, ← List.length_append] at hroom
          omega
        · rw [if_neg hlarge] at hresult hleft
          have hcalls : Calls maxBytes (pending ++ chunk) chunks (closed + 1) := ih _ hrest
          obtain ⟨outcome, pending', chunks', closed', hcall, hreader, hreads, hclosed, hmem⟩ := hcalls
          exact ⟨outcome, pending', chunks', closed',
            hcall.of_receive hnot hchunk (Nat.not_lt.mp hlarge), hresult.trans hreader,
            hleft.trans hreads, hclosed, fun _ h => List.mem_cons_of_mem _ (hmem _ h)⟩

/-! ## Runs of calls -/

/-- What calls return in the middle of a stream. -/
def outcomes (maxBytes calls closed : Nat) (pending : Bytes) (chunks : List Bytes) :
    List ReadOutcome :=
  readMessages maxBytes calls (chunkReads chunks ++ List.replicate closed .closed)
    ⟨pending, chunks.flatten⟩

theorem expected_nil (calls : Nat) : expected calls [] [] = List.replicate calls .endOfStream := by
  induction calls with
  | zero => rfl
  | succ calls ih =>
      rw [expected, ih, if_pos rfl]
      rfl

theorem messageTooLarge_notMem_expected (calls : Nat) (lines : List Bytes) (tail : Bytes) :
    .messageTooLarge ∉ expected calls lines tail := by
  fun_induction expected calls lines tail with
  | case1 => exact List.not_mem_nil
  | case2 calls line lines tail ih => simpa using ih
  | case3 calls tail ih =>
      rw [List.mem_cons, not_or]
      refine ⟨?_, ih⟩
      split <;> simp

section Runs

variable {closed : Nat} (hsizes : ∀ chunk ∈ chunks, chunk ≠ [] ∧ chunk.length ≤ bufferSize)

include hsizes

/-- A call, and the calls after it. -/
theorem outcomes_succ (maxBytes : Nat) (pending : Bytes) (h : calls < closed) :
    ∃ outcome pending' chunks' closed', Call maxBytes pending chunks outcome pending' chunks' ∧
      (∀ chunk ∈ chunks', chunk ≠ [] ∧ chunk.length ≤ bufferSize) ∧ calls ≤ closed' ∧
      outcomes maxBytes (calls + 1) closed pending chunks =
        outcome :: outcomes maxBytes calls closed' pending' chunks' := by
  obtain ⟨closed, rfl⟩ : ∃ n, closed = n + 1 := ⟨closed - 1, by omega⟩
  obtain ⟨outcome, pending', chunks', closed', hcall, hresult, hleft, hclosed, hmem⟩ :=
    calls_of_chunks maxBytes pending hsizes closed
  refine ⟨outcome, pending', chunks', closed', hcall, fun c hc => hsizes c (hmem c hc), by omega, ?_⟩
  rw [outcomes, readMessages, hresult, hleft]
  rfl

/-- As long as every read fits, the calls return what they are to return. -/
theorem outcomes_of_fits (hlines : Lines newline (pending ++ chunks.flatten) lines tail)
    (hfits : Fits maxBytes pending chunks) (hclosed : calls ≤ closed) :
    outcomes maxBytes calls closed pending chunks = expected calls lines tail := by
  induction calls generalizing closed pending chunks lines tail with
  | zero => rfl
  | succ calls ih =>
      obtain ⟨outcome, pending', chunks', closed', hcall, hsizes', hle, hstep⟩ :=
        outcomes_succ hsizes maxBytes pending hclosed
      rw [hstep]
      cases hcall with
      | line hline hstream hiff =>
          rw [hstream] at hlines
          obtain ⟨lines', rfl, hrest⟩ := hlines.tail_of_cons hline
          rw [expected, ih hsizes' hrest (hiff.mp hfits) hle]
      | last hline hne =>
          have hnil : lines = [] := List.eq_nil_iff_forall_not_mem.mpr fun line hmem => by
            obtain ⟨first, more, rfl⟩ := List.exists_cons_of_ne_nil (List.ne_nil_of_mem hmem)
            exact hline hlines.sep_mem
          subst hnil
          obtain ⟨rfl, -⟩ := Lines.nil_iff.mp hlines
          have hend : Lines newline ([] ++ [].flatten) [] [] := Lines.nil_iff.mpr ⟨rfl, by simp⟩
          rw [expected, if_neg hne, ih hsizes' hend trivial hle]
      | endOfStream hempty hchunks =>
          subst hempty hchunks
          cases lines with
          | nil =>
              obtain ⟨rfl, -⟩ := Lines.nil_iff.mp hlines
              rw [expected, ih hsizes' hlines trivial hle]
              rfl
          | cons line lines => exact absurd hlines.sep_mem (by simp)
      | messageTooLarge _ hnot => exact absurd hfits hnot

/-- A read that does not fit is met by a call. -/
theorem messageTooLarge_mem_outcomes
    (hlines : Lines newline (pending ++ chunks.flatten) lines tail)
    (hfits : ¬Fits maxBytes pending chunks) (hclosed : lines.length < closed) :
    .messageTooLarge ∈ outcomes maxBytes (lines.length + 1) closed pending chunks := by
  induction lines generalizing closed pending chunks with
  | nil =>
      rw [List.length_nil] at hclosed ⊢
      obtain ⟨outcome, pending', chunks', closed', hcall, -, -, hstep⟩ :=
        outcomes_succ hsizes maxBytes pending hclosed
      rw [hstep]
      cases hcall with
      | line hline hstream =>
          rw [hstream] at hlines
          have hnot := (Lines.nil_iff.mp hlines).2
          simp at hnot
      | last _ _ hlast => exact absurd hlast hfits
      | endOfStream _ hchunks =>
          subst hchunks
          exact absurd trivial hfits
      | messageTooLarge => exact List.mem_cons_self ..
  | cons line lines ih =>
      rw [List.length_cons] at hclosed ⊢
      obtain ⟨outcome, pending', chunks', closed', hcall, hsizes', hle, hstep⟩ :=
        outcomes_succ hsizes maxBytes pending hclosed
      rw [hstep]
      cases hcall with
      | line hline hstream hiff =>
          rw [hstream] at hlines
          obtain ⟨lines', heq, hrest⟩ := hlines.tail_of_cons hline
          cases heq
          exact List.mem_cons_of_mem _ (ih hsizes' hrest (mt hiff.mpr hfits) hle)
      | last _ _ hlast => exact absurd hlast hfits
      | endOfStream _ hchunks =>
          subst hchunks
          exact absurd trivial hfits
      | messageTooLarge => exact List.mem_cons_self ..

/-- Whoever goes on after an error gets every line in the end, long ones too. -/
theorem line_mem_outcomes (maxBytes : Nat)
    (hlines : Lines newline (pending ++ chunks.flatten) lines tail)
    (hcalls : lines.length + chunks.length < calls) (hclosed : calls ≤ closed) :
    (∀ line ∈ lines, .line line ∈ outcomes maxBytes calls closed pending chunks) ∧
      (tail ≠ [] → .line tail ∈ outcomes maxBytes calls closed pending chunks) := by
  induction calls generalizing closed pending chunks lines with
  | zero => exact absurd hcalls (Nat.not_lt_zero _)
  | succ calls ih =>
      obtain ⟨outcome, pending', chunks', closed', hcall, hsizes', hle, hstep⟩ :=
        outcomes_succ hsizes maxBytes pending hclosed
      rw [hstep]
      cases hcall with
      | line hline hstream _ hless =>
          rw [hstream] at hlines
          obtain ⟨lines', rfl, hrest⟩ := hlines.tail_of_cons hline
          rw [List.length_cons] at hcalls
          obtain ⟨hmore, hlast⟩ := ih hsizes' hrest (by omega) hle
          refine ⟨fun line hmem => ?_, fun hne => List.mem_cons_of_mem _ (hlast hne)⟩
          rcases List.mem_cons.mp hmem with rfl | hmem
          · exact List.mem_cons_self ..
          · exact List.mem_cons_of_mem _ (hmore line hmem)
      | last hline hne =>
          cases lines with
          | nil =>
              obtain ⟨rfl, -⟩ := Lines.nil_iff.mp hlines
              exact ⟨fun _ hmem => absurd hmem List.not_mem_nil, fun _ => List.mem_cons_self ..⟩
          | cons line lines => exact absurd hlines.sep_mem hline
      | endOfStream hempty hchunks =>
          subst hempty hchunks
          cases lines with
          | nil =>
              obtain ⟨rfl, -⟩ := Lines.nil_iff.mp hlines
              exact ⟨fun _ hmem => absurd hmem List.not_mem_nil, fun hne => absurd rfl hne⟩
          | cons line lines => exact absurd hlines.sep_mem (by simp)
      | messageTooLarge hstream _ hless =>
          obtain ⟨hmore, hlast⟩ := ih hsizes' (hstream ▸ hlines) (by omega) hle
          exact ⟨fun line hmem => List.mem_cons_of_mem _ (hmore line hmem),
            fun hne => List.mem_cons_of_mem _ (hlast hne)⟩

/-- Nothing but the lines of the stream is returned. -/
theorem mem_of_line_mem_outcomes (hlines : Lines newline (pending ++ chunks.flatten) lines tail)
    (hclosed : calls ≤ closed) (hmem : .line line ∈ outcomes maxBytes calls closed pending chunks) :
    line ∈ lines ∨ line = tail := by
  induction calls generalizing closed pending chunks lines tail with
  | zero => exact absurd hmem List.not_mem_nil
  | succ calls ih =>
      obtain ⟨outcome, pending', chunks', closed', hcall, hsizes', hle, hstep⟩ :=
        outcomes_succ hsizes maxBytes pending hclosed
      rw [hstep] at hmem
      cases hcall with
      | line hline hstream =>
          rw [hstream] at hlines
          obtain ⟨lines', rfl, hrest⟩ := hlines.tail_of_cons hline
          rcases List.mem_cons.mp hmem with heq | hmem
          · cases heq
            exact .inl (List.mem_cons_self ..)
          · exact (ih hsizes' hrest hle hmem).imp_left (List.mem_cons_of_mem _)
      | last hline hne =>
          cases lines with
          | nil =>
              obtain ⟨rfl, -⟩ := Lines.nil_iff.mp hlines
              rcases List.mem_cons.mp hmem with heq | hmem
              · cases heq
                exact .inr rfl
              · have hend : Lines newline ([] ++ [].flatten) [] [] := Lines.nil_iff.mpr ⟨rfl, by simp⟩
                rw [outcomes_of_fits hsizes' hend trivial hle, expected_nil] at hmem
                cases List.eq_of_mem_replicate hmem
          | cons line lines => exact absurd hlines.sep_mem hline
      | endOfStream hempty hchunks =>
          subst hempty hchunks
          rcases List.mem_cons.mp hmem with heq | hmem
          · cases heq
          · exact ih hsizes' hlines hle hmem
      | messageTooLarge hstream =>
          rcases List.mem_cons.mp hmem with heq | hmem
          · cases heq
          · exact ih hsizes' (hstream ▸ hlines) hle hmem

end Runs

/-! ## Short lines -/

/-- As long as no error was returned, what is pending is within the cap, and so is the line. -/
theorem readMessageLine_bounded (reads : List Read) (reader : MessageReader)
    (h : reader.pending.length ≤ maxBytes) :
    (∀ line, (readMessageLine maxBytes reads reader).1 = .line line → line.length ≤ maxBytes) ∧
      ((readMessageLine maxBytes reads reader).1 ≠ .messageTooLarge →
        (readMessageLine maxBytes reads reader).2.pending.length ≤ maxBytes) := by
  fun_induction readMessageLine maxBytes reads reader with
  | case1 reads reader line rest hsplit =>
      obtain ⟨htext, -⟩ := splitLine_eq_some.mp hsplit
      rw [htext, List.length_append, List.length_cons] at h
      refine ⟨fun line' heq => ?_, fun _ => ?_⟩
      · cases heq
        omega
      · show rest.length ≤ maxBytes
        omega
  | case5 reader reads hsplit hincoming hpending =>
      refine ⟨fun line' heq => ?_, fun _ => Nat.zero_le _⟩
      cases heq
      exact h
  | case8 => exact ⟨fun _ heq => absurd heq (by simp), fun hne => absurd rfl hne⟩
  | case9 reader most reads hsplit hincoming received hroom ih => exact ih (Nat.not_lt.mp hroom)
  | _ => exact ⟨fun _ heq => absurd heq (by simp), fun _ => h⟩

/-- The lines that are returned before the first error are within the cap, however they arrive. -/
theorem length_le_of_line_mem (reads : List Read) (reader : MessageReader)
    (h : reader.pending.length ≤ maxBytes)
    (hmem : .line line ∈
      (readMessages maxBytes calls reads reader).takeWhile (· ≠ .messageTooLarge)) :
    line.length ≤ maxBytes := by
  induction calls generalizing reads reader with
  | zero => exact absurd hmem List.not_mem_nil
  | succ calls ih =>
      obtain ⟨hline, hpending⟩ := readMessageLine_bounded reads reader h
      rw [readMessages, List.takeWhile_cons] at hmem
      split at hmem
      · rename_i hne
        rcases List.mem_cons.mp hmem with heq | hmem
        · exact hline line heq.symm
        · exact ih _ _ (hpending (by simpa using hne)) hmem
      · exact absurd hmem List.not_mem_nil

/-- The lines of a stream come out, in order and before the end, exactly when every read leaves room
for what it brings. No line over the cap comes out before the first error; a caller that goes on
after it gets no such line only where the stream has none. -/
theorem readFragments_iff (maxBytes : Nat) {stream : Bytes} (fragments : Fragments stream)
    (hlines : Lines newline stream lines tail) :
    ((∀ calls, readFragments maxBytes calls fragments = expected calls lines tail) ↔
        Fits maxBytes [] fragments.chunks) ∧
      (∀ calls reads line,
        .line line ∈ (readMessages maxBytes calls reads ⟨[], stream⟩).takeWhile
          (· ≠ .messageTooLarge) → line.length ≤ maxBytes) ∧
      ((∀ calls line, .line line ∈ readFragments maxBytes calls fragments →
          line.length ≤ maxBytes) ↔
        (∀ line ∈ lines, line.length ≤ maxBytes) ∧ tail.length ≤ maxBytes) := by
  obtain ⟨chunks, rfl, hsizes⟩ := fragments
  rw [← List.nil_append chunks.flatten] at hlines
  refine ⟨⟨fun h => ?_, fun hfits calls => ?_⟩, fun calls reads line hmem => ?_, fun h => ?_, ?_⟩
  · by_contra hfits
    have hmem := messageTooLarge_mem_outcomes hsizes hlines hfits (Nat.lt_succ_self _)
    have hexact : outcomes maxBytes (lines.length + 1) (lines.length + 1) [] chunks =
      expected (lines.length + 1) lines tail := h (lines.length + 1)
    exact messageTooLarge_notMem_expected _ _ _ (hexact ▸ hmem)
  · exact outcomes_of_fits hsizes hlines hfits (Nat.le_refl calls)
  · exact length_le_of_line_mem reads _ (Nat.zero_le _) hmem
  · obtain ⟨hall, hlast⟩ :=
      line_mem_outcomes hsizes maxBytes hlines (Nat.lt_succ_self _) (Nat.le_refl _)
    refine ⟨fun line hmem => h _ line (hall line hmem), ?_⟩
    by_cases htail : tail = []
    · simp [htail]
    · exact h _ tail (hlast htail)
  · rintro ⟨hall, hlast⟩ calls line hmem
    rcases mem_of_line_mem_outcomes hsizes hlines (Nat.le_refl calls) hmem with hline | rfl
    · exact hall line hline
    · exact hlast

/-- Two lines of two bytes, and a rest, that three reads bring. -/
def threeReads : Fragments (ascii "ab" ++ newline :: (ascii "cd" ++ newline :: ascii "e")) where
  chunks := [ascii "ab", newline :: ascii "c", ascii "d" ++ newline :: ascii "e"]
  whole := by decide
  sizes := by decide

theorem threeReads_lines :
    Lines newline (ascii "ab" ++ newline :: (ascii "cd" ++ newline :: ascii "e"))
      [ascii "ab", ascii "cd"] (ascii "e") := by
  refine ⟨by decide, ?_, by decide⟩
  decide

theorem readFragments_iff_three_reads :
    readFragments 4 4 threeReads = expected 4 [ascii "ab", ascii "cd"] (ascii "e") :=
  (readFragments_iff 4 threeReads threeReads_lines).1.mpr (by decide) 4

/-- Two lines of two bytes, under a cap of four bytes, that one read brings. -/
theorem short_lines_refused :
    ¬∀ (maxBytes : Nat) (stream : Bytes) (lines : List Bytes) (tail : Bytes)
        (fragments : Fragments stream), Lines newline stream lines tail →
      (∀ line ∈ lines, line.length ≤ maxBytes) → tail.length ≤ maxBytes →
        ∀ calls, readFragments maxBytes calls fragments = expected calls lines tail := by
  intro h
  have hread := h 4 (ascii "ab" ++ newline :: (ascii "cd" ++ [newline])) [ascii "ab", ascii "cd"] []
    ⟨[ascii "ab" ++ newline :: (ascii "cd" ++ [newline])], by decide, by decide⟩
    ⟨by decide, by decide, by decide⟩ (by decide) (by decide) 1
  exact absurd hread (by decide)

end Muxly.Client.MessageReader
