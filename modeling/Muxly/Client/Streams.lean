/-
# Muxly.Client.Streams -- streams of text in chunks, from the daemon to the client

The daemon cuts the text of a pane into pieces of a fixed number of bytes and writes each piece as a
JSON string of its own; the client reads the chunks one after another. A piece that is not UTF-8 by
itself is written as a list of numbers, which the client takes for an invalid response.

`chunked_streams` gives the exact condition under which a stream reassembles: that every cut falls
between two characters. A frame is given by its fields; its JSON is read back as it was written.
-/
import Muxly.Daemon.DocumentJson
import Muxly.Data.Pieces
import Muxly.Server.State

namespace Muxly.Client

open Muxly.Core Muxly.Daemon Muxly.Data Muxly.Server

/-! ## Frames of a stream -/

/-- What `OwnedEnvelope` keeps of a frame, as far as a stream looks at it. -/
structure StreamEnvelope where
  kind : ConversationKind
  payload : JsonValue
  fin : Bool
  conversationError : Bool

/-- The frame that ends a stream. -/
def closedFrame (kind : ConversationKind) : StreamEnvelope := ⟨kind, .null, true, false⟩

/-! ## Pane capture: the daemon -/

/-- `max_capture_stream_chunk_bytes`. -/
def maxCaptureStreamChunkBytes : Nat := 32 * 1024

/-- The frame of one piece in `handlePaneCaptureStreamOpen`. -/
def captureFrame (paneId piece : Bytes) : StreamEnvelope where
  kind := .captureData
  payload := .object [(ascii "paneId", jsonString paneId), (ascii "chunk", jsonString piece)]
  fin := false
  conversationError := false

/-- The frames that `handlePaneCaptureStreamOpen` writes after its acknowledgement. -/
def captureFrames (paneId capture : Bytes) : List StreamEnvelope :=
  (pieces maxCaptureStreamChunkBytes capture).map (captureFrame paneId) ++
    [closedFrame .captureData]

/-! ## Tty output: the daemon -/

/-- `max_tty_output_chunk_bytes`. -/
def maxTtyOutputChunkBytes : Nat := 16 * 1024

/-- `TtyQueuedChunk`. -/
inductive QueuedChunk where
  | data (bytes : Bytes)
  | overflow
  deriving DecidableEq

/-- The bytes that a queued chunk counts for. -/
def QueuedChunk.length : QueuedChunk → Nat
  | .data bytes => bytes.length
  | .overflow => 0

/-- The queue of a `TtyStreamHandle` that is not closing. -/
structure TtyQueue where
  queue : List QueuedChunk
  overflowPending : Bool

namespace TtyQueue

/-- The queue of a new handle. -/
def empty : TtyQueue := ⟨[], false⟩

/-- The loop of `enqueueOwnedChunk` that drops the oldest data until `length` more bytes fit. -/
def makeRoom (length : Nat) : Nat → List QueuedChunk → Bool → List QueuedChunk × Bool
  | 0, queue, overflowPending => (queue, overflowPending)
  | turns + 1, queue, overflowPending =>
    if (queue.map (·.length)).sum + length > maxTtyOutputQueueBytes then
      if queue.any (· ≠ .overflow) then
        makeRoom length turns (queue.eraseP (· ≠ .overflow)) true
      else (queue, overflowPending)
    else (queue, overflowPending)

/-- `enqueueOwnedChunk`, for data. -/
def enqueueOwnedChunk (q : TtyQueue) (bytes : Bytes) : TtyQueue :=
  let (queue, overflowPending) := makeRoom bytes.length q.queue.length q.queue q.overflowPending
  { queue := (if overflowPending then queue ++ [.overflow] else queue) ++ [.data bytes]
    overflowPending := false }

/-- `enqueueNormalized`. -/
def enqueueNormalized (q : TtyQueue) (chunk : Bytes) : TtyQueue :=
  (pieces maxTtyOutputChunkBytes chunk).foldl enqueueOwnedChunk q

end TtyQueue

/-- The frame of one chunk in `handleTtyStreamOpen`. -/
def ttyFrame (chunk : QueuedChunk) : StreamEnvelope where
  kind := .ttyData
  payload :=
    match chunk with
    | .data bytes => .object [(ascii "chunk", jsonString bytes)]
    | .overflow => .object [(ascii "overflow", .bool true)]
  fin := false
  conversationError := false

/-- A step of a stream: the pane has produced a chunk of output, or the thread of the stream writes
the next one of the queue. -/
inductive TtyStep where
  | output (chunk : Bytes)
  | next

/-- The queue, and the chunks that have been written. -/
structure TtyRun where
  queue : TtyQueue
  written : List QueuedChunk

namespace TtyRun

/-- Before the first output. -/
def start : TtyRun := ⟨.empty, []⟩

/-- One step; `waitNextChunk` waits while the queue is empty. -/
def step (run : TtyRun) : TtyStep → TtyRun
  | .output chunk => { run with queue := run.queue.enqueueNormalized chunk }
  | .next =>
    match run.queue.queue with
    | [] => run
    | chunk :: rest => ⟨{ run.queue with queue := rest }, run.written ++ [chunk]⟩

/-- The chunks written and queued. -/
def chunks (run : TtyRun) : List QueuedChunk := run.written ++ run.queue.queue

end TtyRun

/-- The chunks that the stream writes: when the pane has exited, the rest of the queue follows. -/
def ttyChunks (steps : List TtyStep) : List QueuedChunk := (steps.foldl TtyRun.step .start).chunks

/-- The frames that `handleTtyStreamOpen` writes after its acknowledgement. -/
def ttyFrames (steps : List TtyStep) : List StreamEnvelope :=
  (ttyChunks steps).map ttyFrame ++ [closedFrame .ttyData]

/-- The output that the pane has produced, chunk by chunk. -/
def outputOf (steps : List TtyStep) : List Bytes :=
  steps.filterMap fun
    | .output chunk => some chunk
    | .next => none

/-! ## The client -/

/-- `TtyOutputChunk` and `PaneCaptureChunk`. -/
inductive StreamChunk where
  | data (bytes : Bytes)
  | overflow
  | closed
  deriving DecidableEq

/-- `error.InvalidResponse`. -/
inductive StreamError where
  | invalidResponse
  deriving DecidableEq

/-- The `chunk` member of a payload. -/
def chunkOf (payload : JsonValue) : Except StreamError StreamChunk :=
  match payload.get (ascii "chunk") with
  | some (.string bytes) => .ok (.data bytes)
  | _ => .error .invalidResponse

/-- `PaneCaptureStream.consumeEnvelope`. -/
def consumeCapture (envelope : StreamEnvelope) : Except StreamError StreamChunk :=
  if envelope.conversationError then .ok .closed
  else if envelope.kind ≠ .captureData then .error .invalidResponse
  else
    match envelope.fin, envelope.payload with
    | true, .null => .ok .closed
    | _, payload => chunkOf payload

/-- `TtyOutputStream.consumeEnvelope`. -/
def consumeTty (envelope : StreamEnvelope) : Except StreamError StreamChunk :=
  if envelope.conversationError then .ok .closed
  else if envelope.kind ≠ .ttyData then .error .invalidResponse
  else
    match envelope.fin, envelope.payload with
    | true, .null => .ok .closed
    | _, payload =>
      match payload.get (ascii "overflow") with
      | some (.bool true) => .ok .overflow
      | _ => chunkOf payload

/-- What the calls of `waitChunk` return for the frames of a stream, up to the one that ends it. -/
def waitChunks (consume : StreamEnvelope → Except StreamError StreamChunk) :
    List StreamEnvelope → List (Except StreamError StreamChunk)
  | [] => []
  | envelope :: rest =>
    if consume envelope = .ok .closed then [.ok .closed]
    else consume envelope :: waitChunks consume rest

/-- The stream hands out data chunks only, which make up the text, and then ends. -/
def Reassembles (text : Bytes) (results : List (Except StreamError StreamChunk)) : Prop :=
  ∃ parts : List Bytes,
    results = parts.map (fun bytes => .ok (.data bytes)) ++ [.ok .closed] ∧ parts.flatten = text

/-! ## Chunks that are characters -/

/-- Text that is whole characters. -/
def Whole (text : Bytes) : Prop := utf8ValidateSlice text = true

instance (text : Bytes) : Decidable (Whole text) := inferInstanceAs (Decidable (_ = true))

theorem whole_extends : Extends Whole where
  nil := rfl
  append _ _ h := by rw [Whole, utf8ValidateSlice_append h]; rfl

theorem chunkOf_data (fields : List (Bytes × JsonValue)) (bytes : Bytes)
    (h : fields.lookup (ascii "chunk") = some (jsonString bytes)) :
    chunkOf (.object fields) = if Whole bytes then .ok (.data bytes) else .error .invalidResponse := by
  have hget : (JsonValue.object fields).get (ascii "chunk") = some (jsonString bytes) := h
  unfold chunkOf
  rw [hget]
  by_cases hw : Whole bytes
  · rw [if_pos hw, show jsonString bytes = .string bytes from if_pos hw]
  · rw [if_neg hw, show jsonString bytes = .array _ from if_neg hw]

theorem consumeCapture_captureFrame (paneId piece : Bytes) :
    consumeCapture (captureFrame paneId piece) =
      if Whole piece then .ok (.data piece) else .error .invalidResponse :=
  chunkOf_data [(ascii "paneId", jsonString paneId), (ascii "chunk", jsonString piece)] piece rfl

theorem consumeTty_ttyFrame (bytes : Bytes) :
    consumeTty (ttyFrame (.data bytes)) =
      if Whole bytes then .ok (.data bytes) else .error .invalidResponse :=
  chunkOf_data [(ascii "chunk", jsonString bytes)] bytes rfl

/-- A stream of data frames reassembles when every one of its pieces is whole characters. -/
theorem waitChunks_reassembles {consume : StreamEnvelope → Except StreamError StreamChunk}
    {frame : Bytes → StreamEnvelope} {closing : StreamEnvelope}
    (hframe : ∀ bytes, consume (frame bytes) =
      if Whole bytes then .ok (.data bytes) else .error .invalidResponse)
    (hclosing : consume closing = .ok .closed) (parts : List Bytes) (text : Bytes)
    (htext : parts.flatten = text) :
    Reassembles text (waitChunks consume (parts.map frame ++ [closing])) ↔
      ∀ piece ∈ parts, Whole piece := by
  have hresults : waitChunks consume (parts.map frame ++ [closing]) =
      parts.map (fun bytes => if Whole bytes then .ok (.data bytes) else .error .invalidResponse) ++
        [.ok .closed] := by
    clear htext
    induction parts with
    | nil => simp [waitChunks, hclosing]
    | cons bytes rest ih =>
        have hopen : consume (frame bytes) ≠ .ok .closed := by
          rw [hframe]
          split <;> simp
        rw [List.map_cons, List.cons_append, waitChunks, if_neg hopen, ih, hframe]
        rfl
  rw [hresults]
  constructor
  · rintro ⟨parts', hparts, -⟩ piece hpiece
    have hmem : (if Whole piece then .ok (.data piece) else .error .invalidResponse :
        Except StreamError StreamChunk) ∈ parts'.map fun bytes => .ok (.data bytes) := by
      rw [← List.append_cancel_right hparts]
      exact List.mem_map_of_mem hpiece
    obtain ⟨bytes, -, heq⟩ := List.mem_map.mp hmem
    by_contra hw
    rw [if_neg hw] at heq
    cases heq
  · intro h
    refine ⟨parts, ?_, htext⟩
    rw [List.map_congr_left fun piece hpiece => if_pos (h piece hpiece)]

/-! ## The queue of a tty stream -/

/-- The queue as the state of the server keeps it, by the lengths of its chunks. -/
def QueuedChunk.toServer : QueuedChunk → TtyQueuedChunk
  | .data bytes => .data bytes.length
  | .overflow => .overflow

theorem toServer_length (chunk : QueuedChunk) : chunk.toServer.length = chunk.length := by
  cases chunk <;> rfl

theorem makeRoom_toServer (length turns : Nat) (queue : List QueuedChunk) (pending : Bool) :
    TtyStreamHandle.makeRoom length turns (queue.map (·.toServer)) pending =
      ((TtyQueue.makeRoom length turns queue pending).1.map (·.toServer),
        (TtyQueue.makeRoom length turns queue pending).2) := by
  have hdata (chunk : QueuedChunk) : (chunk.toServer ≠ .overflow) ↔ chunk ≠ .overflow := by
    cases chunk <;> simp [QueuedChunk.toServer]
  have hsum (queue : List QueuedChunk) :
      ((queue.map (·.toServer)).map (·.length)).sum = (queue.map (·.length)).sum := by
    rw [List.map_map]
    exact congrArg List.sum (List.map_congr_left fun chunk _ => toServer_length chunk)
  induction turns generalizing queue pending with
  | zero => rfl
  | succ turns ih =>
      have hany : (queue.map (·.toServer)).any (· ≠ .overflow) = queue.any (· ≠ .overflow) := by
        rw [List.any_map]
        exact congrArg queue.any (funext fun chunk => decide_eq_decide.mpr (hdata chunk))
      have herase : (queue.map (·.toServer)).eraseP (· ≠ .overflow) =
          (queue.eraseP (· ≠ .overflow)).map (·.toServer) := by
        rw [List.eraseP_map]
        congr 1
        exact congrArg (List.eraseP · queue) (funext fun chunk => decide_eq_decide.mpr (hdata chunk))
      rw [TtyStreamHandle.makeRoom, TtyQueue.makeRoom, hsum, hany, herase]
      split
      · split
        · exact ih ..
        · rfl
      · rfl

/-- The queue with its bytes does what the handle of the server does with their lengths. -/
theorem enqueueOwnedChunk_toServer (q : TtyQueue) (bytes : Bytes) (handle : TtyStreamHandle)
    (hopen : handle.closing = false) (hqueue : handle.queue = q.queue.map (·.toServer))
    (hpending : handle.overflowPending = q.overflowPending) :
    (handle.enqueueOwnedChunk bytes.length).queue =
      (q.enqueueOwnedChunk bytes).queue.map (·.toServer) := by
  simp only [TtyStreamHandle.enqueueOwnedChunk, hopen, hqueue, hpending, List.length_map,
    makeRoom_toServer, TtyQueue.enqueueOwnedChunk, Bool.false_eq_true, if_false]
  split <;> simp [QueuedChunk.toServer]

theorem makeRoom_cases (length turns : Nat) (queue : List QueuedChunk) (pending : Bool) :
    (TtyQueue.makeRoom length turns queue pending).2 = true ∨
      TtyQueue.makeRoom length turns queue pending = (queue, pending) := by
  have hpending : ∀ (turns : Nat) (queue : List QueuedChunk),
      (TtyQueue.makeRoom length turns queue true).2 = true := by
    intro turns
    induction turns with
    | zero => intro queue; rfl
    | succ turns ih =>
        intro queue
        unfold TtyQueue.makeRoom
        split
        · split
          · exact ih _
          · rfl
        · rfl
  cases turns with
  | zero => exact .inr rfl
  | succ turns =>
      unfold TtyQueue.makeRoom
      split
      · split
        · exact .inl (hpending ..)
        · exact .inr rfl
      · exact .inr rfl

/-- A mark of an overflow stays in the queue until it is written. -/
theorem overflow_mem_makeRoom (length turns : Nat) {queue : List QueuedChunk} (pending : Bool)
    (h : .overflow ∈ queue) : .overflow ∈ (TtyQueue.makeRoom length turns queue pending).1 := by
  induction turns generalizing queue pending with
  | zero => exact h
  | succ turns ih =>
      unfold TtyQueue.makeRoom
      split
      · split
        · exact ih true ((List.mem_eraseP_of_neg (by simp)).mpr h)
        · exact h
      · exact h

/-- From `run` on the stream has got more data, unless it marks an overflow. -/
structure Gains (run run' : TtyRun) (bytes : List Bytes) : Prop where
  pending : run'.queue.overflowPending = false
  marked : .overflow ∈ run.chunks → .overflow ∈ run'.chunks
  chunks : .overflow ∉ run'.chunks → run'.chunks = run.chunks ++ bytes.map .data

theorem Gains.trans {run run' run'' : TtyRun} {bytes bytes' : List Bytes}
    (h : Gains run run' bytes) (h' : Gains run' run'' bytes') :
    Gains run run'' (bytes ++ bytes') where
  pending := h'.pending
  marked hm := h'.marked (h.marked hm)
  chunks hn := by
    rw [h'.chunks hn, h.chunks fun hm => hn (h'.marked hm), List.map_append, List.append_assoc]

theorem gains_enqueueOwnedChunk {run : TtyRun} (h : run.queue.overflowPending = false)
    (bytes : Bytes) :
    Gains run { run with queue := run.queue.enqueueOwnedChunk bytes } [bytes] := by
  refine ⟨rfl, fun hm => ?_, fun hn => ?_⟩
  · obtain hm | hm := List.mem_append.mp hm
    · exact List.mem_append_left _ hm
    · have hroom := overflow_mem_makeRoom bytes.length run.queue.queue.length
        run.queue.overflowPending hm
      refine List.mem_append_right _ ?_
      simp only [TtyQueue.enqueueOwnedChunk]
      split <;> simp [hroom]
  · obtain hroom | hroom := makeRoom_cases bytes.length run.queue.queue.length run.queue.queue
      run.queue.overflowPending
    · refine absurd (List.mem_append_right _ ?_) hn
      simp [TtyQueue.enqueueOwnedChunk, hroom]
    · rw [h] at hroom
      simp [TtyRun.chunks, TtyQueue.enqueueOwnedChunk, hroom, h]

theorem gains_enqueueNormalized {run : TtyRun} (h : run.queue.overflowPending = false)
    (chunk : Bytes) :
    Gains run { run with queue := run.queue.enqueueNormalized chunk }
      (pieces maxTtyOutputChunkBytes chunk) := by
  suffices hfold : ∀ (parts : List Bytes) (run : TtyRun), run.queue.overflowPending = false →
      Gains run { run with queue := parts.foldl TtyQueue.enqueueOwnedChunk run.queue } parts from
    hfold _ run h
  intro parts
  induction parts with
  | nil => exact fun run h => ⟨h, id, fun _ => by simp [TtyRun.chunks]⟩
  | cons bytes rest ih =>
      intro run h
      have hone := gains_enqueueOwnedChunk h bytes
      exact hone.trans (ih _ hone.pending)

theorem gains_step {run : TtyRun} (h : run.queue.overflowPending = false) (step : TtyStep) :
    Gains run (run.step step) ((outputOf [step]).flatMap (pieces maxTtyOutputChunkBytes)) := by
  cases step with
  | output chunk => simpa [outputOf, TtyRun.step] using gains_enqueueNormalized h chunk
  | next =>
      have hsame : (run.step .next).chunks = run.chunks := by
        cases hqueue : run.queue.queue <;> simp [TtyRun.step, TtyRun.chunks, hqueue]
      have hpending : (run.step .next).queue.overflowPending = false := by
        cases hqueue : run.queue.queue <;> simpa [TtyRun.step, hqueue] using h
      exact ⟨hpending, fun hm => by rwa [hsame], fun _ => by simp [hsame, outputOf]⟩

theorem outputOf_cons (step : TtyStep) (steps : List TtyStep) :
    outputOf (step :: steps) = outputOf [step] ++ outputOf steps := by
  cases step <;> rfl

theorem gains_steps (steps : List TtyStep) {run : TtyRun} (h : run.queue.overflowPending = false) :
    Gains run (steps.foldl TtyRun.step run)
      ((outputOf steps).flatMap (pieces maxTtyOutputChunkBytes)) := by
  induction steps generalizing run with
  | nil => exact ⟨h, id, fun _ => by simp [outputOf]⟩
  | cons step rest ih =>
      have hone := gains_step h step
      rw [outputOf_cons, List.flatMap_append]
      exact hone.trans (ih hone.pending)

/-- Without an overflow the stream writes the pieces of the output in order. -/
theorem ttyChunks_eq {steps : List TtyStep} (h : .overflow ∉ ttyChunks steps) :
    ttyChunks steps =
      ((outputOf steps).flatMap (pieces maxTtyOutputChunkBytes)).map .data := by
  have hgains := @gains_steps steps TtyRun.start rfl
  exact (hgains.chunks h).trans (List.nil_append _)

/-! ## Streams reassemble -/

/-- Every cut of a text at a multiple of `size` bytes falls between two characters. -/
def CutsAtCharacters (size : Nat) (text : Bytes) : Prop := ∀ k, Whole (text.take (k * size))

/-- So does every cut of output that comes in chunks: at the end of a chunk, and at a multiple of
`size` bytes inside it. -/
def OutputCutsAtCharacters (size : Nat) (output : List Bytes) : Prop :=
  ∀ before chunk rest, output = before ++ chunk :: rest →
    ∀ k, Whole (before.flatten ++ chunk.take (k * size))

theorem capture_reassembles_iff (paneId capture : Bytes) :
    Reassembles capture (waitChunks consumeCapture (captureFrames paneId capture)) ↔
      CutsAtCharacters maxCaptureStreamChunkBytes capture := by
  rw [captureFrames, waitChunks_reassembles (consumeCapture_captureFrame paneId) rfl _ _
    (pieces_flatten (by decide) capture)]
  exact whole_extends.pieces_iff (by decide) capture

theorem tty_reassembles_iff {steps : List TtyStep} (h : .overflow ∉ ttyChunks steps) :
    Reassembles (outputOf steps).flatten (waitChunks consumeTty (ttyFrames steps)) ↔
      OutputCutsAtCharacters maxTtyOutputChunkBytes (outputOf steps) := by
  have hflatten (chunks : List Bytes) :
      (chunks.flatMap (pieces maxTtyOutputChunkBytes)).flatten = chunks.flatten := by
    induction chunks with
    | nil => rfl
    | cons chunk rest ih =>
        rw [List.flatMap_cons, List.flatten_append, ih, pieces_flatten (by decide)]
        rfl
  have hframe (bytes : Bytes) : consumeTty ((ttyFrame ∘ .data) bytes) =
      if Whole bytes then .ok (.data bytes) else .error .invalidResponse :=
    consumeTty_ttyFrame bytes
  rw [ttyFrames, ttyChunks_eq h, List.map_map, waitChunks_reassembles hframe rfl _ _ (hflatten _)]
  exact whole_extends.flatMap_pieces_iff (by decide) _

/-- The streams of a text reassemble exactly when every cut falls between two characters: for a pane
capture, and for tty output that comes in any chunks and is written without an overflow. -/
theorem chunked_streams (text : Bytes) :
    (∀ paneId, Reassembles text (waitChunks consumeCapture (captureFrames paneId text)) ↔
      CutsAtCharacters maxCaptureStreamChunkBytes text) ∧
    ∀ steps, (outputOf steps).flatten = text → .overflow ∉ ttyChunks steps →
      (Reassembles text (waitChunks consumeTty (ttyFrames steps)) ↔
        OutputCutsAtCharacters maxTtyOutputChunkBytes (outputOf steps)) := by
  refine ⟨fun paneId => capture_reassembles_iff paneId text, fun steps htext h => ?_⟩
  rw [← htext]
  exact tty_reassembles_iff h

theorem chunked_streams_word :
    Reassembles [0x68, 0xC3, 0xA9] (waitChunks consumeCapture (captureFrames (ascii "%1")
      [0x68, 0xC3, 0xA9])) ∧
    Reassembles [0x68, 0xC3, 0xA9] (waitChunks consumeTty
      (ttyFrames [.output [0x68], .next, .output [0xC3, 0xA9]])) := by
  obtain ⟨hcapture, htty⟩ := chunked_streams [0x68, 0xC3, 0xA9]
  refine ⟨(hcapture _).mpr ?_, (htty [.output [0x68], .next, .output [0xC3, 0xA9]] rfl
    (by decide)).mpr ?_⟩
  · exact (whole_extends.pieces_iff (by decide) _).mp (by decide)
  · exact (whole_extends.flatMap_pieces_iff (by decide) _).mp (by decide)

/-- A line of `a` whose last character, `é`, lies across the first cut of a pane capture. -/
def acrossCut : Bytes := List.replicate 32767 0x61 ++ [0xC3, 0xA9]

theorem capture_splits_character :
    utf8ValidateSlice acrossCut = true ∧
      ¬Reassembles acrossCut (waitChunks consumeCapture (captureFrames (ascii "%1") acrossCut)) := by
  have hline : Whole (List.replicate 32767 0x61) :=
    utf8ValidateSlice_of_ascii fun c hc => by
      rw [List.eq_of_mem_replicate hc]
      decide
  refine ⟨?_, fun h => ?_⟩
  · rw [acrossCut, utf8ValidateSlice_append hline]
    decide
  · have hcut := (capture_reassembles_iff _ _).mp h 1
    have htake : acrossCut.take (1 * maxCaptureStreamChunkBytes) =
        List.replicate 32767 0x61 ++ [0xC3] := by
      rw [acrossCut, List.take_append, List.length_replicate, List.take_of_length_le (by
        rw [List.length_replicate]
        decide)]
      rfl
    rw [htake, Whole, utf8ValidateSlice_append hline] at hcut
    exact absurd hcut (by decide)

end Muxly.Client
