/-
# Muxly.Daemon.TtyQueue -- the output queue of a TTY stream

`TtyStreamHandle` of `server.zig`: the reader of a pane puts chunks into a queue of bounded size, the
connection takes them out. What does not fit drops the oldest chunks, and an overflow item tells the
client that something was dropped. Every call holds the mutex of the handle from its beginning to its
end, or to the condition that it waits on; a run is the calls in the order in which they hold it.
-/
import Mathlib.Algebra.BigOperators.Ring.List
import Mathlib.Algebra.Order.Ring.Nat
import Mathlib.Data.List.Chain
import Muxly.Core.Text
import Muxly.Data.Pieces

namespace Muxly.Daemon.Tty

open Muxly.Core Muxly.Data

/-! ## The handle -/

/-- `max_tty_output_chunk_bytes`. -/
def maxTtyOutputChunkBytes : Nat := 16 * 1024

/-- `max_tty_output_queue_bytes`. -/
def maxTtyOutputQueueBytes : Nat := 4 * 1024 * 1024

/-- A chunk, and how many were enqueued before it. No code reads the number. -/
structure Chunk where
  number : Nat
  bytes : Bytes
  deriving DecidableEq

/-- `TtyQueuedChunk`. -/
inductive TtyQueuedChunk where
  | data (chunk : Chunk)
  | overflow
  deriving DecidableEq

/-- `TtyStreamHandle`. -/
structure TtyStreamHandle where
  queue : List TtyQueuedChunk
  queuedBytes : Nat
  overflowPending : Bool
  closing : Bool
  readerDone : Bool
  deriving DecidableEq

/-- `NextChunk`. -/
inductive NextChunk where
  | data (chunk : Chunk)
  | overflow
  | closed
  deriving DecidableEq

/-- Why a call does not return: it waits on the condition, or a subtraction underflows. -/
inductive Stop where
  | waits
  | underflow
  deriving DecidableEq

/-- Subtraction of `usize`. -/
def subtract (a b : Nat) : Except Stop Nat := if b ≤ a then .ok (a - b) else .error .underflow

/-- The first data chunk of the queue, and the queue without it. -/
def oldestData : List TtyQueuedChunk → Option (Chunk × List TtyQueuedChunk)
  | [] => none
  | .data chunk :: rest => some (chunk, rest)
  | .overflow :: rest => (oldestData rest).map fun p => (p.1, .overflow :: p.2)

namespace TtyStreamHandle

/-- `TtyStreamHandle.init`. -/
def init : TtyStreamHandle where
  queue := []
  queuedBytes := 0
  overflowPending := false
  closing := false
  readerDone := false

/-- `dropOldestDataLocked`; `none` is `false`. -/
def dropOldestDataLocked (handle : TtyStreamHandle) : Except Stop (Option TtyStreamHandle) :=
  match oldestData handle.queue with
  | none => .ok none
  | some (chunk, rest) =>
    (subtract handle.queuedBytes chunk.bytes.length).map fun queuedBytes =>
      some { handle with queue := rest, queuedBytes := queuedBytes }

/-- The loop of `enqueueOwnedChunk`. Every turn but the last takes an item out of the queue. -/
def makeRoom (length : Nat) : Nat → TtyStreamHandle → Except Stop TtyStreamHandle
  | 0, handle => .ok handle
  | turns + 1, handle =>
    if handle.queuedBytes + length ≤ maxTtyOutputQueueBytes then .ok handle
    else do
      match ← handle.dropOldestDataLocked with
      | none => .ok handle
      | some dropped => makeRoom length turns { dropped with overflowPending := true }

/-- The end of `enqueueOwnedChunk` with a data chunk. -/
def appendData (handle : TtyStreamHandle) (chunk : Chunk) : TtyStreamHandle :=
  { handle with
    queue := handle.queue ++ (if handle.overflowPending then [.overflow] else []) ++ [.data chunk]
    queuedBytes := handle.queuedBytes + chunk.bytes.length
    overflowPending := false }

/-- `enqueueOwnedChunk`. -/
def enqueueOwnedChunk (handle : TtyStreamHandle) (queued : TtyQueuedChunk) :
    Except Stop TtyStreamHandle :=
  if handle.closing then .ok handle
  else
    match queued with
    | .data chunk =>
      (makeRoom chunk.bytes.length handle.queue.length handle).map fun handle =>
        handle.appendData chunk
    | .overflow => .ok { handle with queue := handle.queue ++ [.overflow] }

/-- `waitNextChunk`. -/
def waitNextChunk (handle : TtyStreamHandle) : Except Stop (NextChunk × TtyStreamHandle) :=
  match handle.queue with
  | [] => if handle.closing || handle.readerDone then .ok (.closed, handle) else .error .waits
  | .data chunk :: rest =>
    (subtract handle.queuedBytes chunk.bytes.length).map fun queuedBytes =>
      (.data chunk, { handle with queue := rest, queuedBytes := queuedBytes })
  | .overflow :: rest => .ok (.overflow, { handle with queue := rest })

/-- `clearQueueLocked`. -/
def clearQueueLocked (handle : TtyStreamHandle) : TtyStreamHandle :=
  { handle with queue := [], queuedBytes := 0, overflowPending := false }

/-- `requestClose`. -/
def requestClose (handle : TtyStreamHandle) : TtyStreamHandle :=
  { handle with closing := true }.clearQueueLocked

/-- `finishReader`. -/
def finishReader (handle : TtyStreamHandle) : TtyStreamHandle := { handle with readerDone := true }

end TtyStreamHandle

/-! ## Runs -/

/-- A part that `enqueueNormalized` hands to `enqueueOwnedChunk`. -/
structure Part where
  bytes : Bytes
  cut : ∃ chunk, bytes ∈ pieces maxTtyOutputChunkBytes chunk

/-- The calls on a handle. -/
inductive Act where
  | part (part : Part)
  | next
  | requestClose
  | finishReader

/-- The calls of `enqueueNormalized`. It takes the mutex for each, so that others come in between. -/
def enqueueNormalized (chunk : Bytes) : List Act :=
  (pieces maxTtyOutputChunkBytes chunk).attach.map fun part => .part ⟨part.1, chunk, part.2⟩

/-- A handle, with all chunks that were enqueued and all that `waitNextChunk` returned. -/
structure Stream where
  handle : TtyStreamHandle
  sent : List Chunk
  delivered : List NextChunk

/-- A new handle. -/
def Stream.init : Stream := ⟨.init, [], []⟩

/-- One call. -/
def Stream.step (s : Stream) : Act → Except Stop Stream
  | .part part =>
    let chunk : Chunk := ⟨s.sent.length, part.bytes⟩
    (s.handle.enqueueOwnedChunk (.data chunk)).map fun handle =>
      { s with handle := handle, sent := s.sent ++ [chunk] }
  | .next => s.handle.waitNextChunk.map fun p =>
    { s with handle := p.2, delivered := s.delivered ++ [p.1] }
  | .requestClose => .ok { s with handle := s.handle.requestClose }
  | .finishReader => .ok { s with handle := s.handle.finishReader }

/-- The calls of a run, one after the other. -/
def run (acts : List Act) : Except Stop Stream := acts.foldlM Stream.step .init

theorem run_concat (acts : List Act) (act : Act) :
    run (acts ++ [act]) = (run acts).bind fun s => s.step act := by
  unfold run
  rw [List.foldlM_append]
  cases acts.foldlM Stream.step Stream.init with
  | error e => rfl
  | ok s =>
      simp only [List.foldlM_cons, List.foldlM_nil, bind_pure]
      rfl

/-! ## What a call does -/

/-- The data chunks of a queue. -/
def chunksOf (queue : List TtyQueuedChunk) : List Chunk :=
  queue.filterMap fun
    | .data chunk => some chunk
    | .overflow => none

/-- The bytes of chunks. -/
def bytesOf (chunks : List Chunk) : Nat := (chunks.map fun chunk => chunk.bytes.length).sum

/-- A queue without its first `count` data chunks. -/
def dropData : Nat → List TtyQueuedChunk → List TtyQueuedChunk
  | 0, queue => queue
  | _ + 1, [] => []
  | count + 1, .data _ :: rest => dropData count rest
  | count + 1, .overflow :: rest => .overflow :: dropData (count + 1) rest

@[simp] theorem chunksOf_nil : chunksOf [] = [] := rfl

@[simp] theorem chunksOf_data (chunk : Chunk) (rest : List TtyQueuedChunk) :
    chunksOf (.data chunk :: rest) = chunk :: chunksOf rest := rfl

@[simp] theorem chunksOf_overflow (rest : List TtyQueuedChunk) :
    chunksOf (.overflow :: rest) = chunksOf rest := rfl

@[simp] theorem chunksOf_append (queue rest : List TtyQueuedChunk) :
    chunksOf (queue ++ rest) = chunksOf queue ++ chunksOf rest := List.filterMap_append

@[simp] theorem bytesOf_nil : bytesOf [] = 0 := rfl

@[simp] theorem bytesOf_cons (chunk : Chunk) (chunks : List Chunk) :
    bytesOf (chunk :: chunks) = chunk.bytes.length + bytesOf chunks := rfl

@[simp] theorem bytesOf_append (chunks chunks' : List Chunk) :
    bytesOf (chunks ++ chunks') = bytesOf chunks + bytesOf chunks' := by
  simp [bytesOf]

@[simp] theorem dropData_zero (queue : List TtyQueuedChunk) : dropData 0 queue = queue := by
  rw [dropData]

theorem oldestData_eq_none {queue : List TtyQueuedChunk} (h : oldestData queue = none) :
    chunksOf queue = [] := by
  induction queue with
  | nil => rfl
  | cons queued rest ih =>
      cases queued with
      | data chunk => cases h
      | overflow => exact ih (Option.map_eq_none_iff.mp h)

/-- The oldest chunk is the first data chunk. -/
theorem oldestData_eq_some {queue rest : List TtyQueuedChunk} {chunk : Chunk}
    (h : oldestData queue = some (chunk, rest)) :
    chunksOf queue = chunk :: chunksOf rest ∧
      rest.length + 1 = queue.length ∧ ∀ count, dropData (count + 1) queue = dropData count rest := by
  induction queue generalizing rest with
  | nil => cases h
  | cons queued queue ih =>
      cases queued with
      | data chunk =>
          cases h
          exact ⟨rfl, rfl, fun _ => rfl⟩
      | overflow =>
          obtain ⟨⟨chunk', rest'⟩, hrest, heq⟩ := Option.map_eq_some_iff.mp h
          cases heq
          obtain ⟨hchunks, hlength, hdrop⟩ := ih hrest
          refine ⟨hchunks, by simp only [List.length_cons, hlength], fun count => ?_⟩
          cases count with
          | zero => simp only [dropData, hdrop 0]
          | succ count => exact congrArg (TtyQueuedChunk.overflow :: ·) (hdrop (count + 1))

/-- How many chunks the loop drops: as many as are needed, all of them if that is not enough. -/
structure Drops (length : Nat) (chunks : List Chunk) (count : Nat) : Prop where
  le : count ≤ chunks.length
  enough : bytesOf (chunks.drop count) + length ≤ maxTtyOutputQueueBytes ∨ count = chunks.length
  needed : ∀ fewer < count, maxTtyOutputQueueBytes < bytesOf (chunks.drop fewer) + length

/-- The loop drops the oldest chunks, and its subtractions are those of chunks that were added. -/
theorem makeRoom_eq {length turns : Nat} {handle : TtyStreamHandle}
    (hturns : handle.queue.length ≤ turns)
    (hbytes : handle.queuedBytes = bytesOf (chunksOf handle.queue)) :
    ∃ count, Drops length (chunksOf handle.queue) count ∧
      handle.makeRoom length turns = .ok
        { handle with
          queue := dropData count handle.queue
          queuedBytes := bytesOf ((chunksOf handle.queue).drop count)
          overflowPending := handle.overflowPending || decide (0 < count) } := by
  induction turns generalizing handle with
  | zero =>
      obtain ⟨queue, queuedBytes, overflowPending, closing, readerDone⟩ := handle
      obtain rfl : queue = [] := List.length_eq_zero_iff.mp (Nat.le_zero.mp hturns)
      obtain rfl : queuedBytes = 0 := hbytes
      refine ⟨0, ⟨Nat.zero_le _, .inr rfl, fun fewer h => absurd h (Nat.not_lt_zero _)⟩, ?_⟩
      simp [TtyStreamHandle.makeRoom, dropData]
  | succ turns ih =>
      rw [TtyStreamHandle.makeRoom]
      by_cases hfits : handle.queuedBytes + length ≤ maxTtyOutputQueueBytes
      · refine ⟨0, ⟨Nat.zero_le _, .inl (hbytes ▸ hfits), fun fewer h => absurd h (Nat.not_lt_zero _)⟩, ?_⟩
        rw [if_pos hfits]
        simp [← hbytes]
      · rw [if_neg hfits, TtyStreamHandle.dropOldestDataLocked]
        cases holdest : oldestData handle.queue with
        | none =>
            have hnone := oldestData_eq_none holdest
            refine ⟨0, ⟨Nat.zero_le _, .inr (by rw [hnone]; rfl), fun fewer h => absurd h (Nat.not_lt_zero _)⟩, ?_⟩
            simp only [dropData, List.drop_zero, ← hbytes]
            simp [bind, Except.bind]
        | some p =>
            obtain ⟨chunk, rest⟩ := p
            obtain ⟨hchunks, hlength, hdrop⟩ := oldestData_eq_some holdest
            have hsum : handle.queuedBytes = chunk.bytes.length + bytesOf (chunksOf rest) := by
              rw [hbytes, hchunks, bytesOf_cons]
            have hsub : subtract handle.queuedBytes chunk.bytes.length =
                .ok (bytesOf (chunksOf rest)) := by
              rw [subtract, if_pos (by omega), hsum, Nat.add_sub_cancel_left]
            obtain ⟨count, hdrops, hrun⟩ := @ih
              { handle with
                queue := rest
                queuedBytes := bytesOf (chunksOf rest)
                overflowPending := true }
              (by show rest.length ≤ turns; omega) rfl
            refine ⟨count + 1, ⟨?_, ?_, ?_⟩, ?_⟩
            · rw [hchunks, List.length_cons]
              exact Nat.succ_le_succ hdrops.le
            · rw [hchunks, List.drop_succ_cons, List.length_cons]
              exact hdrops.enough.imp_right (congrArg (· + 1))
            · intro fewer hfewer
              cases fewer with
              | zero =>
                  rw [List.drop_zero, ← hbytes]
                  omega
              | succ fewer =>
                  rw [hchunks, List.drop_succ_cons]
                  exact hdrops.needed fewer (by omega)
            · simp only [hsub, Except.map, bind, Except.bind, hrun, hdrop, hchunks,
                List.drop_succ_cons]
              simp

theorem Part.length_le (part : Part) : part.bytes.length ≤ maxTtyOutputChunkBytes := by
  obtain ⟨bytes, chunk, hmem⟩ := part
  exact (length_of_mem_pieces (by decide) hmem).2

theorem Part.ne_nil (part : Part) : part.bytes ≠ [] := by
  obtain ⟨bytes, chunk, hmem⟩ := part
  exact (length_of_mem_pieces (by decide) hmem).1

/-! ## Accounting -/

/-- The data chunks that were delivered. -/
def dataOf (delivered : List NextChunk) : List Chunk :=
  delivered.filterMap fun
    | .data chunk => some chunk
    | .overflow => none
    | .closed => none

/-- The next chunk of a stream. -/
def Stream.chunk (s : Stream) (part : Part) : Chunk := ⟨s.sent.length, part.bytes⟩

/-- What holds between the calls. -/
structure Kept (s : Stream) : Prop where
  bytes : s.handle.queuedBytes = bytesOf (chunksOf s.handle.queue)
  cap : s.handle.queuedBytes ≤ maxTtyOutputQueueBytes
  order : (dataOf s.delivered ++ chunksOf s.handle.queue).Sublist s.sent
  filled : ∀ chunk ∈ s.sent, chunk.bytes ≠ []
  settled : s.handle.overflowPending = false
  numbered : s.sent.map Chunk.number = List.range s.sent.length

theorem kept_init : Kept .init where
  bytes := rfl
  cap := Nat.zero_le _
  order := List.Sublist.slnil
  filled := by simp [Stream.init]
  settled := rfl
  numbered := rfl

theorem chunksOf_dropData (count : Nat) (queue : List TtyQueuedChunk) :
    chunksOf (dropData count queue) = (chunksOf queue).drop count := by
  induction queue generalizing count with
  | nil => cases count <;> simp [dropData]
  | cons queued rest ih =>
      cases count with
      | zero => simp
      | succ count =>
          cases queued with
          | data chunk => simp [dropData, ih]
          | overflow => simp [dropData, ih]

/-- The handle after a part: the oldest chunks are dropped, a marker is put before the new one. -/
def TtyStreamHandle.afterPart (handle : TtyStreamHandle) (chunk : Chunk) (count : Nat) :
    TtyStreamHandle :=
  { handle with
    queue := dropData count handle.queue ++ (if 0 < count then [.overflow] else []) ++ [.data chunk]
    queuedBytes := bytesOf ((chunksOf handle.queue).drop count) + chunk.bytes.length
    overflowPending := false }

theorem chunksOf_afterPart (handle : TtyStreamHandle) (chunk : Chunk) (count : Nat) :
    chunksOf (handle.afterPart chunk count).queue =
      (chunksOf handle.queue).drop count ++ [chunk] := by
  unfold TtyStreamHandle.afterPart
  split <;> simp [chunksOf_dropData]

theorem step_part {s : Stream} (h : Kept s) (hopen : s.handle.closing = false) (part : Part) :
    ∃ count, Drops part.bytes.length (chunksOf s.handle.queue) count ∧
      s.step (.part part) = .ok
        { handle := s.handle.afterPart (s.chunk part) count
          sent := s.sent ++ [s.chunk part]
          delivered := s.delivered } := by
  obtain ⟨count, hdrops, hroom⟩ :=
    @makeRoom_eq part.bytes.length s.handle.queue.length s.handle (Nat.le_refl _) h.bytes
  refine ⟨count, hdrops, ?_⟩
  rw [Stream.step, TtyStreamHandle.enqueueOwnedChunk, hopen, if_neg (by decide)]
  simp only [hroom, Except.map, h.settled, Bool.false_or]
  rw [TtyStreamHandle.appendData, TtyStreamHandle.afterPart]
  simp [Stream.chunk]

theorem step_part_closed {s : Stream} (hclosed : s.handle.closing = true) (part : Part) :
    s.step (.part part) = .ok { s with sent := s.sent ++ [s.chunk part] } := by
  rw [Stream.step, TtyStreamHandle.enqueueOwnedChunk, hclosed, if_pos rfl]
  rfl

theorem Kept.part {s s' : Stream} (h : Kept s) {part : Part} (hstep : s.step (.part part) = .ok s') :
    Kept s' := by
  have hfilled : ∀ chunk ∈ s.sent ++ [s.chunk part], chunk.bytes ≠ [] := by
    intro chunk hmem
    rcases List.mem_append.mp hmem with hmem | hmem
    · exact h.filled chunk hmem
    · rw [List.mem_singleton.mp hmem]
      exact part.ne_nil
  have hnumbered : (s.sent ++ [s.chunk part]).map Chunk.number =
      List.range (s.sent ++ [s.chunk part]).length := by
    rw [List.map_append, h.numbered, List.length_append, List.length_singleton, List.range_succ]
    rfl
  cases hclosed : s.handle.closing with
  | true =>
      rw [step_part_closed hclosed] at hstep
      cases hstep
      exact ⟨h.bytes, h.cap, h.order.trans (List.sublist_append_left _ _), hfilled, h.settled,
        hnumbered⟩
  | false =>
      obtain ⟨count, hdrops, hrun⟩ := step_part h hclosed part
      rw [hrun] at hstep
      cases hstep
      have hchunks := chunksOf_afterPart s.handle (s.chunk part) count
      refine ⟨?_, ?_, ?_, hfilled, rfl, hnumbered⟩
      · rw [hchunks]
        simp [TtyStreamHandle.afterPart]
      · show bytesOf ((chunksOf s.handle.queue).drop count) + part.bytes.length ≤ _
        rcases hdrops.enough with hfits | hall
        · exact hfits
        · rw [hall, List.drop_length, bytesOf_nil, Nat.zero_add]
          exact part.length_le.trans (by decide)
      · rw [hchunks, ← List.append_assoc]
        refine List.Sublist.append ?_ (List.Sublist.refl _)
        exact ((List.Sublist.refl _).append (List.drop_sublist _ _)).trans h.order

/-- Taking out the first item: it is delivered, or the call waits. -/
theorem step_next {s : Stream} (h : Kept s) :
    (s.handle.queue = [] ∧ s.handle.closing = false ∧ s.handle.readerDone = false ∧
        s.step .next = .error .waits) ∨
      (s.handle.queue = [] ∧
        s.step .next = .ok { s with delivered := s.delivered ++ [.closed] }) ∨
      (∃ rest, s.handle.queue = .overflow :: rest ∧
        s.step .next = .ok
          { s with
            handle := { s.handle with queue := rest }
            delivered := s.delivered ++ [.overflow] }) ∨
      (∃ chunk rest, s.handle.queue = .data chunk :: rest ∧
        s.step .next = .ok
          { s with
            handle := { s.handle with queue := rest, queuedBytes := bytesOf (chunksOf rest) }
            delivered := s.delivered ++ [.data chunk] }) := by
  rw [Stream.step, TtyStreamHandle.waitNextChunk]
  cases hqueue : s.handle.queue with
  | nil =>
      cases hclosing : s.handle.closing with
      | true => exact .inr (.inl ⟨rfl, rfl⟩)
      | false =>
          cases hdone : s.handle.readerDone with
          | true => exact .inr (.inl ⟨rfl, rfl⟩)
          | false => exact .inl ⟨rfl, rfl, rfl, rfl⟩
  | cons queued rest =>
      cases queued with
      | overflow => exact .inr (.inr (.inl ⟨rest, rfl, rfl⟩))
      | data chunk =>
          have hsum : s.handle.queuedBytes = chunk.bytes.length + bytesOf (chunksOf rest) := by
            rw [h.bytes, hqueue, chunksOf_data, bytesOf_cons]
          have hsub : subtract s.handle.queuedBytes chunk.bytes.length =
              .ok (bytesOf (chunksOf rest)) := by
            rw [subtract, if_pos (by omega), hsum, Nat.add_sub_cancel_left]
          refine .inr (.inr (.inr ⟨chunk, rest, rfl, ?_⟩))
          simp only [hsub]
          rfl

theorem Kept.next {s s' : Stream} (h : Kept s) (hstep : s.step .next = .ok s') : Kept s' := by
  rcases step_next h with ⟨-, -, -, heq⟩ | ⟨-, heq⟩ | ⟨rest, hqueue, heq⟩ | ⟨chunk, rest, hqueue, heq⟩
  · rw [heq] at hstep
    cases hstep
  · rw [heq] at hstep
    cases hstep
    refine ⟨h.bytes, h.cap, ?_, h.filled, h.settled, h.numbered⟩
    simpa [dataOf] using h.order
  · rw [heq] at hstep
    cases hstep
    have hbytes := h.bytes
    have horder := h.order
    rw [hqueue, chunksOf_overflow] at hbytes horder
    refine ⟨hbytes, h.cap, ?_, h.filled, h.settled, h.numbered⟩
    simpa [dataOf] using horder
  · rw [heq] at hstep
    cases hstep
    have hbytes := h.bytes
    have horder := h.order
    have hcap := h.cap
    rw [hqueue, chunksOf_data] at hbytes horder
    refine ⟨rfl, ?_, ?_, h.filled, h.settled, h.numbered⟩
    · show bytesOf (chunksOf rest) ≤ _
      rw [hbytes, bytesOf_cons] at hcap
      omega
    · simpa [dataOf] using horder

theorem Kept.step {s s' : Stream} (h : Kept s) {act : Act} (hstep : s.step act = .ok s') :
    Kept s' := by
  cases act with
  | part part => exact h.part hstep
  | next => exact h.next hstep
  | requestClose =>
      cases hstep
      refine ⟨rfl, Nat.zero_le _, ?_, h.filled, rfl, h.numbered⟩
      have hfront : (dataOf s.delivered).Sublist s.sent :=
        (List.sublist_append_left _ _).trans h.order
      simpa [TtyStreamHandle.requestClose, TtyStreamHandle.clearQueueLocked] using hfront
  | finishReader =>
      cases hstep
      exact ⟨h.bytes, h.cap, h.order, h.filled, h.settled, h.numbered⟩

theorem ok_ne_underflow (s : Stream) : (.ok s : Except Stop Stream) ≠ .error .underflow := by
  rintro ⟨⟩

/-- No subtraction underflows. -/
theorem Kept.step_ne_underflow {s : Stream} (h : Kept s) (act : Act) :
    s.step act ≠ .error .underflow := by
  cases act with
  | part part =>
      cases hclosed : s.handle.closing with
      | true =>
          rw [step_part_closed hclosed]
          exact ok_ne_underflow _
      | false =>
          obtain ⟨count, -, hrun⟩ := step_part h hclosed part
          rw [hrun]
          exact ok_ne_underflow _
  | next =>
      rcases step_next h with ⟨-, -, -, heq⟩ | ⟨-, heq⟩ | ⟨rest, -, heq⟩ | ⟨chunk, rest, -, heq⟩
      · rw [heq]
        rintro ⟨⟩
      all_goals
        rw [heq]
        exact ok_ne_underflow _
  | requestClose => exact ok_ne_underflow _
  | finishReader => exact ok_ne_underflow _

/-- The run lemma: what a step keeps, a run keeps. -/
theorem kept_run {acts : List Act} {s : Stream} (h : run acts = .ok s) : Kept s := by
  induction acts using List.reverseRecOn generalizing s with
  | nil =>
      cases h
      exact kept_init
  | append_singleton acts act ih =>
      rw [run_concat] at h
      cases hrun : run acts with
      | error stop =>
          rw [hrun] at h
          cases h
      | ok s' =>
          rw [hrun] at h
          exact (ih hrun).step h

theorem run_ne_underflow (acts : List Act) : run acts ≠ .error .underflow := by
  induction acts using List.reverseRecOn with
  | nil => exact ok_ne_underflow _
  | append_singleton acts act ih =>
      rw [run_concat]
      cases hrun : run acts with
      | error stop =>
          rw [hrun] at ih
          exact ih
      | ok s => exact (kept_run hrun).step_ne_underflow act

/-! ## How long the queue gets -/

/-- The overflow items of a queue. -/
def markers (queue : List TtyQueuedChunk) : Nat := queue.count .overflow

theorem length_queue (queue : List TtyQueuedChunk) :
    queue.length = (chunksOf queue).length + markers queue := by
  induction queue with
  | nil => rfl
  | cons queued rest ih =>
      cases queued with
      | data chunk =>
          simp only [markers, List.length_cons, chunksOf_data, List.count_cons] at ih ⊢
          simp
          omega
      | overflow =>
          simp only [markers, List.length_cons, chunksOf_overflow, List.count_cons] at ih ⊢
          simp
          omega

/-- Dropping data leaves the markers. -/
theorem markers_dropData (count : Nat) (queue : List TtyQueuedChunk) :
    markers (dropData count queue) = markers queue := by
  induction queue generalizing count with
  | nil => cases count <;> simp [dropData]
  | cons queued rest ih =>
      cases count with
      | zero => simp
      | succ count =>
          cases queued with
          | data chunk =>
              have hrest := ih count
              simpa [markers, dropData] using hrest
          | overflow =>
              have hrest := ih (count + 1)
              simpa [markers, dropData] using hrest

theorem markers_afterPart (handle : TtyStreamHandle) (chunk : Chunk) (count : Nat) :
    markers (handle.afterPart chunk count).queue =
      markers handle.queue + if 0 < count then 1 else 0 := by
  have hdrop := markers_dropData count handle.queue
  unfold markers TtyStreamHandle.afterPart at *
  simp only [List.count_append, hdrop]
  split <;> simp

/-- Whenever an open queue is too full for a part, fewer than `limit` markers wait in it. -/
def MarkersLeave (limit : Nat) (acts : List Act) : Prop :=
  ∀ before part after s, acts = before ++ .part part :: after → run before = .ok s →
    s.handle.closing = false →
    maxTtyOutputQueueBytes < s.handle.queuedBytes + part.bytes.length →
    markers s.handle.queue < limit

theorem MarkersLeave.front {limit : Nat} {acts : List Act} {act : Act}
    (h : MarkersLeave limit (acts ++ [act])) : MarkersLeave limit acts := by
  intro before part after s heq hrun
  exact h before part (after ++ [act]) s (by rw [heq]; simp) hrun

theorem markers_step {limit : Nat} {s s' : Stream} (hkept : Kept s) (hle : markers s.handle.queue ≤ limit)
    {act : Act} (hstep : s.step act = .ok s')
    (hleave : ∀ part, act = .part part → s.handle.closing = false →
      maxTtyOutputQueueBytes < s.handle.queuedBytes + part.bytes.length →
      markers s.handle.queue < limit) : markers s'.handle.queue ≤ limit := by
  cases act with
  | part part =>
      cases hclosed : s.handle.closing with
      | true =>
          rw [step_part_closed hclosed] at hstep
          cases hstep
          exact hle
      | false =>
          obtain ⟨count, hdrops, hrun⟩ := step_part hkept hclosed part
          rw [hrun] at hstep
          cases hstep
          rw [markers_afterPart]
          split
          · rename_i hcount
            have hfull := hdrops.needed 0 hcount
            rw [List.drop_zero, ← hkept.bytes] at hfull
            exact hleave part rfl hclosed hfull
          · exact hle
  | next =>
      rcases step_next hkept with ⟨-, -, -, heq⟩ | ⟨-, heq⟩ | ⟨rest, hqueue, heq⟩ |
        ⟨chunk, rest, hqueue, heq⟩
      · rw [heq] at hstep
        cases hstep
      · rw [heq] at hstep
        cases hstep
        exact hle
      all_goals
        rw [heq] at hstep
        cases hstep
        rw [hqueue] at hle
        exact (List.count_le_count_cons ..).trans hle
  | requestClose =>
      cases hstep
      exact Nat.zero_le _
  | finishReader =>
      cases hstep
      exact hle

theorem markers_run {limit : Nat} {acts : List Act} {s : Stream} (h : run acts = .ok s)
    (hleave : MarkersLeave limit acts) : markers s.handle.queue ≤ limit := by
  induction acts using List.reverseRecOn generalizing s with
  | nil =>
      cases h
      exact Nat.zero_le _
  | append_singleton acts act ih =>
      rw [run_concat] at h
      cases hrun : run acts with
      | error stop =>
          rw [hrun] at h
          cases h
      | ok s' =>
          rw [hrun] at h
          refine markers_step (kept_run hrun) (ih hrun hleave.front) h ?_
          rintro part rfl hopen hfull
          exact hleave acts part [] s' rfl hrun hopen hfull

theorem length_le_bytesOf {chunks : List Chunk} (h : ∀ chunk ∈ chunks, chunk.bytes ≠ []) :
    chunks.length ≤ bytesOf chunks := by
  induction chunks with
  | nil => exact Nat.le_refl _
  | cons chunk rest ih =>
      have hpos := List.length_pos_iff.mpr (h chunk (List.mem_cons_self ..))
      have hrest := ih fun chunk hmem => h chunk (List.mem_cons_of_mem _ hmem)
      rw [List.length_cons, bytesOf_cons]
      omega

theorem Kept.length_chunks {s : Stream} (h : Kept s) :
    (chunksOf s.handle.queue).length ≤ maxTtyOutputQueueBytes := by
  have hfilled : ∀ chunk ∈ chunksOf s.handle.queue, chunk.bytes ≠ [] := fun chunk hmem =>
    h.filled chunk (h.order.subset (List.mem_append_right _ hmem))
  exact (length_le_bytesOf hfilled).trans (h.bytes.ge.trans h.cap)

/-- A part of one byte. -/
def smallPart : Part where
  bytes := [65]
  cut := ⟨[65], by decide⟩

/-- The longest part. -/
def fullPart : Part where
  bytes := List.replicate maxTtyOutputChunkBytes 0
  cut := ⟨List.replicate maxTtyOutputChunkBytes 0, by
    have hne : List.replicate maxTtyOutputChunkBytes (0 : UInt8) ≠ [] :=
      List.ne_nil_of_length_pos (by rw [List.length_replicate]; decide)
    rw [pieces_of_length_le hne (List.length_replicate ..).le]
    exact List.mem_singleton_self _⟩

theorem length_fullPart : fullPart.bytes.length = maxTtyOutputChunkBytes := List.length_replicate ..

theorem bytesOf_eq {chunks : List Chunk}
    (h : ∀ chunk ∈ chunks, chunk.bytes.length = maxTtyOutputChunkBytes) :
    bytesOf chunks = maxTtyOutputChunkBytes * chunks.length := by
  induction chunks with
  | nil => rfl
  | cons chunk rest ih =>
      rw [bytesOf_cons, h chunk (List.mem_cons_self ..),
        ih fun chunk hmem => h chunk (List.mem_cons_of_mem _ hmem), List.length_cons, Nat.mul_succ,
        Nat.add_comm]

/-- A queue of full parts drops one of them, and only if 256 are there. -/
theorem drops_full {chunks : List Chunk} {count : Nat}
    (h : ∀ chunk ∈ chunks, chunk.bytes.length = maxTtyOutputChunkBytes) (hle : chunks.length ≤ 256)
    (hdrops : Drops maxTtyOutputChunkBytes chunks count) :
    count = if chunks.length = 256 then 1 else 0 := by
  have hbytes (k : Nat) : bytesOf (chunks.drop k) = maxTtyOutputChunkBytes * (chunks.length - k) := by
    rw [bytesOf_eq fun chunk hmem => h chunk (List.mem_of_mem_drop hmem), List.length_drop]
  have henough := hdrops.enough
  have hneeded := hdrops.needed
  simp only [hbytes, maxTtyOutputChunkBytes, maxTtyOutputQueueBytes] at henough hneeded
  split
  · rename_i hfull
    have htwo : ¬1 < count := fun hcount => by
      have := hneeded 1 hcount
      omega
    omega
  · have hone : ¬0 < count := fun hcount => by
      have := hneeded 0 hcount
      omega
    omega

/-- Parts that nobody takes: 256 of them are kept, and each further one leaves a marker. -/
theorem stalled (parts : Nat) : ∃ s, run (List.replicate parts (.part fullPart)) = .ok s ∧
    s.handle.closing = false ∧
    (∀ chunk ∈ chunksOf s.handle.queue, chunk.bytes.length = maxTtyOutputChunkBytes) ∧
    (chunksOf s.handle.queue).length = min parts 256 ∧ markers s.handle.queue = parts - 256 := by
  induction parts with
  | zero => exact ⟨.init, rfl, rfl, by simp [Stream.init, TtyStreamHandle.init], rfl, rfl⟩
  | succ parts ih =>
      obtain ⟨s, hrun, hopen, hfull, hchunks, hmarkers⟩ := ih
      obtain ⟨count, hdrops, hstep⟩ := step_part (kept_run hrun) hopen fullPart
      rw [length_fullPart] at hdrops
      have hcount := drops_full hfull (by omega) hdrops
      refine ⟨{ handle := s.handle.afterPart (s.chunk fullPart) count
                sent := s.sent ++ [s.chunk fullPart]
                delivered := s.delivered }, ?_, hopen, ?_, ?_, ?_⟩
      · rw [List.replicate_succ', run_concat, hrun]
        exact hstep
      · intro chunk hmem
        rw [chunksOf_afterPart] at hmem
        rcases List.mem_append.mp hmem with hmem | hmem
        · exact hfull chunk (List.mem_of_mem_drop hmem)
        · rw [List.mem_singleton.mp hmem]
          exact length_fullPart
      · rw [chunksOf_afterPart, List.length_append, List.length_drop, List.length_singleton]
        split at hcount <;> omega
      · rw [markers_afterPart, hmarkers, hcount, hchunks]
        by_cases hfilled : min parts 256 = 256
        · rw [if_pos hfilled, if_pos Nat.one_pos]
          omega
        · rw [if_neg hfilled, if_neg (Nat.lt_irrefl 0)]
          omega

end Muxly.Daemon.Tty
