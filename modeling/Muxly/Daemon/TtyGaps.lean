/-
# Muxly.Daemon.TtyGaps -- which dropped chunks the client is told of

Chunks are dropped at the head of the queue, and the overflow item that tells of them is put at its
tail, before the chunk that did not fit. Whether an item stands where the chunks are missing is
decided when they are dropped; what is delivered later only repeats it.
-/
import Muxly.Daemon.TtyQueue

namespace Muxly.Daemon.Tty

open Muxly.Core Muxly.Data

/-! ## Gaps -/

/-- Nothing is missing between two items that follow one another, or one of them is not data. -/
def Follows : NextChunk → NextChunk → Prop
  | .data chunk, .data chunk' => chunk'.number = chunk.number + 1
  | _, _ => True

/-- What `waitNextChunk` returns for an item of the queue. -/
def TtyQueuedChunk.toNext : TtyQueuedChunk → NextChunk
  | .data chunk => .data chunk
  | .overflow => .overflow

/-- What was delivered, and what will be if nothing more is enqueued. -/
def Stream.items (s : Stream) : List NextChunk := s.delivered ++ s.handle.queue.map (·.toNext)

/-- The data chunks before the first marker of a queue. -/
def lead : List TtyQueuedChunk → List Chunk
  | .data chunk :: rest => chunk :: lead rest
  | _ => []

/-- The part fits, or the last item that was delivered is not data, or the chunks before the first
marker have to go, as the part would not fit beside the last of them. -/
def LeavesNoGap (s : Stream) (part : Part) : Prop :=
  s.handle.queuedBytes + part.bytes.length ≤ maxTtyOutputQueueBytes ∨
    (∀ chunk, s.delivered.getLast? ≠ some (.data chunk)) ∨
    maxTtyOutputQueueBytes <
      s.handle.queuedBytes - bytesOf (lead s.handle.queue).dropLast + part.bytes.length

/-! ## Dropping at the head -/

theorem lead_prefix (queue : List TtyQueuedChunk) : lead queue <+: chunksOf queue := by
  induction queue with
  | nil => exact List.nil_prefix
  | cons queued rest ih =>
      cases queued with
      | data chunk => exact List.cons_prefix_cons.mpr ⟨rfl, ih⟩
      | overflow => exact List.nil_prefix

/-- What stays is a number of markers and an end of the queue. -/
theorem dropData_eq (count : Nat) (queue : List TtyQueuedChunk) :
    ∃ left rest, dropData count queue = List.replicate left .overflow ++ rest ∧ rest <:+ queue := by
  induction queue generalizing count with
  | nil => exact ⟨0, [], by cases count <;> rfl, List.suffix_rfl⟩
  | cons queued queue ih =>
      cases count with
      | zero => exact ⟨0, queued :: queue, by simp, List.suffix_rfl⟩
      | succ count =>
          cases queued with
          | data chunk =>
              obtain ⟨left, rest, heq, hrest⟩ := ih count
              exact ⟨left, rest, heq, hrest.trans (List.suffix_cons ..)⟩
          | overflow =>
              obtain ⟨left, rest, heq, hrest⟩ := ih (count + 1)
              refine ⟨left + 1, rest, ?_, hrest.trans (List.suffix_cons ..)⟩
              rw [dropData, heq, List.replicate_succ, List.cons_append]

/-- Without the chunks before the first marker, the queue does not begin with data. -/
theorem head_dropData {count : Nat} {queue : List TtyQueuedChunk}
    (h : (lead queue).length ≤ count) (chunk : Chunk) :
    (dropData count queue).head? ≠ some (.data chunk) := by
  induction queue generalizing count with
  | nil => cases count <;> simp [dropData]
  | cons queued rest ih =>
      cases queued with
      | overflow =>
          cases count with
          | zero => simp
          | succ count => simp [dropData]
      | data chunk' =>
          cases count with
          | zero => simp [lead] at h
          | succ count =>
              rw [dropData]
              exact ih (by simpa [lead] using h)

/-- If the part does not fit beside the last chunk before the first marker, that one goes too. -/
theorem lead_le_count {s : Stream} (hkept : Kept s) {part : Part} {count : Nat}
    (hdrops : Drops part.bytes.length (chunksOf s.handle.queue) count)
    (hfull : maxTtyOutputQueueBytes <
      s.handle.queuedBytes - bytesOf (lead s.handle.queue).dropLast + part.bytes.length) :
    (lead s.handle.queue).length ≤ count := by
  obtain ⟨rest, hrest⟩ := lead_prefix s.handle.queue
  by_contra hlt
  have hle : count ≤ (lead s.handle.queue).dropLast.length := by
    rw [List.length_dropLast]
    omega
  have htotal : s.handle.queuedBytes =
      bytesOf ((chunksOf s.handle.queue).take count) +
        bytesOf ((chunksOf s.handle.queue).drop count) := by
    rw [hkept.bytes, ← bytesOf_append, List.take_append_drop]
  have htaken : bytesOf ((chunksOf s.handle.queue).take count) ≤
      bytesOf (lead s.handle.queue).dropLast := by
    have hfront : (chunksOf s.handle.queue).take count =
        (lead s.handle.queue).dropLast.take count := by
      rw [← hrest, List.take_append_of_le_length (by omega), List.dropLast_eq_take, List.take_take]
      congr 1
      rw [List.length_dropLast] at hle
      omega
    rw [hfront, ← Nat.add_le_add_iff_right, ← bytesOf_append, List.take_append_drop]
    exact Nat.le_add_right _ _
  rcases hdrops.enough with hfits | hall
  · omega
  · rw [← hrest, List.length_append] at hall
    omega

/-! ## Runs -/

/-- The calls of the reader and of the connection while the stream is open. -/
def Act.Flows (act : Act) : Prop := act = .next ∨ ∃ part, act = .part part

/-- What holds between the calls of a run that leaves no gap. -/
structure Gapless (s : Stream) : Prop where
  chain : s.items.IsChain Follows
  last : ∀ chunk, s.items.getLast? = some (.data chunk) → chunk.number + 1 = s.sent.length
  isOpen : s.handle.closing = false
  reading : s.handle.readerDone = false

theorem gapless_init : Gapless .init where
  chain := List.isChain_nil
  last := by simp [Stream.items, Stream.init, TtyStreamHandle.init]
  isOpen := rfl
  reading := rfl

theorem chain_overflow (left : Nat) : (List.replicate left NextChunk.overflow).IsChain Follows := by
  induction left with
  | zero => exact List.isChain_nil
  | succ left ih =>
      rw [List.replicate_succ]
      exact List.IsChain.cons ih fun _ _ => trivial

/-- Taking data out of the head of a queue leaves a chain. -/
theorem chain_dropData {count : Nat} {queue : List TtyQueuedChunk}
    (h : (queue.map (·.toNext)).IsChain Follows) :
    ((dropData count queue).map (·.toNext)).IsChain Follows := by
  obtain ⟨left, rest, heq, front, rfl⟩ := dropData_eq count queue
  rw [List.map_append] at h
  rw [heq, List.map_append, List.map_replicate]
  refine (chain_overflow left).append h.right_of_append ?_
  intro x hx y _
  obtain rfl : x = .overflow := List.eq_of_mem_replicate (List.mem_of_getLast? hx)
  trivial

theorem Gapless.part {s s' : Stream} (hkept : Kept s) (h : Gapless s) {part : Part}
    (hleave : LeavesNoGap s part) (hstep : s.step (.part part) = .ok s') : Gapless s' := by
  obtain ⟨count, hdrops, hrun⟩ := step_part hkept h.isOpen part
  rw [hrun] at hstep
  cases hstep
  refine ⟨?_, ?_, h.isOpen, h.reading⟩
  · by_cases hcount : 0 < count
    · -- the junction of what was delivered with what stays in the queue
      have hmarked : ∀ x ∈ s.delivered.getLast?,
          ∀ y ∈ ((dropData count s.handle.queue).map (·.toNext)).head?, Follows x y := by
        intro x hx y hy
        cases x with
        | overflow => trivial
        | closed => trivial
        | data chunk =>
            have hfull : maxTtyOutputQueueBytes < s.handle.queuedBytes -
                bytesOf (lead s.handle.queue).dropLast + part.bytes.length := by
              rcases hleave with hfits | hlast | hfull
              · have hneeded := hdrops.needed 0 hcount
                rw [List.drop_zero, ← hkept.bytes] at hneeded
                omega
              · exact absurd hx (hlast chunk)
              · exact hfull
            have hhead := head_dropData (lead_le_count hkept hdrops hfull)
            rw [List.head?_map] at hy
            obtain ⟨queued, hqueued, rfl⟩ := Option.map_eq_some_iff.mp hy
            cases queued with
            | overflow => trivial
            | data chunk' => exact absurd hqueued (hhead chunk')
      have hdata : [NextChunk.overflow, .data (s.chunk part)].IsChain Follows :=
        List.isChain_cons_cons.mpr ⟨trivial, List.isChain_singleton _⟩
      have hitems : Stream.items ⟨s.handle.afterPart (s.chunk part) count,
          s.sent ++ [s.chunk part], s.delivered⟩ =
          (s.delivered ++ (dropData count s.handle.queue).map (·.toNext)) ++
            [.overflow, .data (s.chunk part)] := by
        simp [Stream.items, TtyStreamHandle.afterPart, hcount, TtyQueuedChunk.toNext]
      rw [hitems]
      have hfront := h.chain.left_of_append.append (chain_dropData h.chain.right_of_append) hmarked
      refine hfront.append hdata ?_
      intro x _ y hy
      obtain rfl : NextChunk.overflow = y := Option.some.inj hy
      cases x <;> trivial
    · have hzero : count = 0 := by omega
      have hitems : Stream.items ⟨s.handle.afterPart (s.chunk part) count,
          s.sent ++ [s.chunk part], s.delivered⟩ = s.items ++ [.data (s.chunk part)] := by
        simp [Stream.items, TtyStreamHandle.afterPart, hzero, TtyQueuedChunk.toNext]
      rw [hitems]
      refine h.chain.append (List.isChain_singleton _) ?_
      intro x hx y hy
      obtain rfl : NextChunk.data (s.chunk part) = y := Option.some.inj hy
      cases x with
      | overflow => trivial
      | closed => trivial
      | data chunk => exact (h.last chunk hx).symm
  · intro chunk hlast
    rw [Stream.items, TtyStreamHandle.afterPart, List.map_append, ← List.append_assoc,
      List.map_singleton, List.getLast?_concat] at hlast
    cases hlast
    rw [List.length_append]
    rfl

/-- What is taken out of the queue was to be delivered anyway. -/
theorem Gapless.next {s s' : Stream} (hkept : Kept s) (h : Gapless s) (hstep : s.step .next = .ok s') :
    Gapless s' := by
  rcases step_next hkept with ⟨-, -, -, heq⟩ | ⟨hqueue, heq⟩ | ⟨rest, hqueue, heq⟩ |
    ⟨chunk, rest, hqueue, heq⟩
  · rw [heq] at hstep
    cases hstep
  · rw [Stream.step, TtyStreamHandle.waitNextChunk, hqueue] at hstep
    rw [h.isOpen, h.reading] at hstep
    cases hstep
  all_goals
    rw [heq] at hstep
    cases hstep
    have hchain := h.chain
    have hlast := h.last
    rw [Stream.items, hqueue, List.map_cons, List.append_cons] at hchain hlast
    exact ⟨hchain, hlast, h.isOpen, h.reading⟩

/-- A run in which no part leaves a gap. -/
def NoGaps (acts : List Act) : Prop :=
  ∀ before part after s, acts = before ++ .part part :: after → run before = .ok s →
    LeavesNoGap s part

theorem gapless_run {acts : List Act} {s : Stream} (hflows : ∀ act ∈ acts, act.Flows)
    (hgaps : NoGaps acts) (h : run acts = .ok s) : Gapless s := by
  induction acts using List.reverseRecOn generalizing s with
  | nil =>
      cases h
      exact gapless_init
  | append_singleton acts act ih =>
      rw [run_concat] at h
      cases hrun : run acts with
      | error stop =>
          rw [hrun] at h
          cases h
      | ok s' =>
          rw [hrun] at h
          have hgapless : Gapless s' := by
            refine ih (fun act hmem => hflows act (List.mem_append_left _ hmem)) ?_ hrun
            intro before part after s'' heq hbefore
            exact hgaps before part (after ++ [act]) s'' (by rw [heq]; simp) hbefore
          rcases hflows act (by simp) with rfl | ⟨part, rfl⟩
          · exact hgapless.next (kept_run hrun) h
          · exact hgapless.part (kept_run hrun) (hgaps acts part [] s' rfl hrun) h

/-! ## Numbers -/

/-- The number of a chunk is its place among what was enqueued. -/
theorem Kept.getElem?_sent {s : Stream} (h : Kept s) {chunk : Chunk} (hmem : chunk ∈ s.sent) :
    s.sent[chunk.number]? = some chunk := by
  obtain ⟨i, hi, rfl⟩ := List.getElem_of_mem hmem
  have hnumber : (s.sent.map Chunk.number)[i]? = some i := by
    rw [h.numbered, List.getElem?_range hi]
  rw [List.getElem?_map, List.getElem?_eq_getElem hi] at hnumber
  rw [Option.some.inj hnumber, List.getElem?_eq_getElem hi]

/-- Chunks with numbers that follow one another were enqueued one after the other. -/
theorem Kept.adjacent {s : Stream} (h : Kept s) {chunk chunk' : Chunk} (hmem : chunk ∈ s.sent)
    (hmem' : chunk' ∈ s.sent) (hnumber : chunk'.number = chunk.number + 1) :
    [chunk, chunk'] <:+: s.sent := by
  obtain ⟨hi, hchunk⟩ := List.getElem?_eq_some_iff.mp (h.getElem?_sent hmem)
  have hnext := h.getElem?_sent hmem'
  rw [hnumber] at hnext
  obtain ⟨hi', hchunk'⟩ := List.getElem?_eq_some_iff.mp hnext
  refine ⟨s.sent.take chunk.number, s.sent.drop (chunk.number + 2), ?_⟩
  conv_rhs => rw [← List.take_append_drop chunk.number s.sent, List.drop_eq_getElem_cons hi,
    List.drop_eq_getElem_cons hi', hchunk, hchunk']
  simp

/-! ## Delivery -/

/-- In a run in which no part leaves a gap, two data chunks that are delivered one after the other,
with no overflow item between them, were enqueued one after the other. -/
theorem gaps_are_marked {acts : List Act} {s : Stream} (hrun : run acts = .ok s)
    (hflows : ∀ act ∈ acts, act.Flows) (hgaps : NoGaps acts) {front back : List NextChunk}
    {chunk chunk' : Chunk} (hdelivered : s.delivered = front ++ .data chunk :: .data chunk' :: back) :
    [chunk, chunk'] <:+: s.sent := by
  have hkept := kept_run hrun
  have hchain := (gapless_run hflows hgaps hrun).chain.left_of_append
  rw [hdelivered, List.isChain_append_cons_cons] at hchain
  have hmem {c : Chunk} (hc : NextChunk.data c ∈ s.delivered) : c ∈ s.sent := by
    refine hkept.order.subset (List.mem_append_left _ ?_)
    exact List.mem_filterMap.mpr ⟨_, hc, rfl⟩
  exact hkept.adjacent (hmem (by simp [hdelivered])) (hmem (by simp [hdelivered])) hchain.2.1

theorem gaps_are_marked_smallPart :
    ∃ s, run [.part smallPart, .part smallPart, .next, .next] = .ok s ∧
      [(⟨0, [65]⟩ : Chunk), ⟨1, [65]⟩] <:+: s.sent := by
  refine ⟨_, rfl, @gaps_are_marked [.part smallPart, .part smallPart, .next, .next] _ rfl ?_ ?_ [] []
    ⟨0, [65]⟩ ⟨1, [65]⟩ rfl⟩
  · intro act hmem
    simp only [List.mem_cons, List.not_mem_nil, or_false] at hmem
    rcases hmem with rfl | rfl | rfl | rfl
    · exact .inr ⟨_, rfl⟩
    · exact .inr ⟨_, rfl⟩
    · exact .inl rfl
    · exact .inl rfl
  · intro before part after s heq hrun
    left
    rcases before with _ | ⟨a, _ | ⟨b, _ | ⟨c, _ | ⟨d, before⟩⟩⟩⟩
    · cases heq
      cases hrun
      decide
    · cases heq
      cases hrun
      decide
    · cases heq
    · cases heq
    · exact absurd heq (by simp)

/-! ### A gap without a marker -/

section Unmarked

variable {full : Part} (hfull : full.bytes.length = maxTtyOutputChunkBytes)
include hfull

/-- A queue of full parts drops one of them, and only if 256 are there. -/
theorem count_numbered {queue : List TtyQueuedChunk} {parts count : Nat}
    (hqueue : queue = (List.range' 1 parts).map fun number => .data ⟨number, full.bytes⟩)
    (hparts : parts ≤ 256) (hdrops : Drops full.bytes.length (chunksOf queue) count) :
    count = if parts = 256 then 1 else 0 := by
  have hchunks : chunksOf queue = (List.range' 1 parts).map fun number => ⟨number, full.bytes⟩ := by
    rw [hqueue]
    simp [chunksOf, List.filterMap_map, List.filterMap_eq_map']
  have hlength : (chunksOf queue).length = parts := by
    rw [hchunks, List.length_map, List.length_range']
  rw [hfull] at hdrops
  rw [← hlength] at hparts ⊢
  refine drops_full (fun chunk hmem => ?_) hparts hdrops
  rw [hchunks] at hmem
  obtain ⟨number, -, rfl⟩ := List.mem_map.mp hmem
  exact hfull

/-- One part is delivered, then others fill the queue. -/
theorem filled {parts : Nat} (hparts : parts ≤ 256) :
    ∃ s, run ([.part full, .next] ++ List.replicate parts (.part full)) = .ok s ∧
      s.handle.closing = false ∧ s.delivered = [.data ⟨0, full.bytes⟩] ∧
      s.handle.queue = (List.range' 1 parts).map (fun number => .data ⟨number, full.bytes⟩) ∧
      s.sent.length = parts + 1 := by
  induction parts with
  | zero =>
      obtain ⟨count, hdrops, hfirst⟩ := step_part kept_init rfl full
      obtain rfl : count = 0 := Nat.le_zero.mp hdrops.le
      have hrun : run [.part full] = .ok
          ⟨TtyStreamHandle.init.afterPart ⟨0, full.bytes⟩ 0, [⟨0, full.bytes⟩], []⟩ :=
        (run_concat [] (.part full)).trans hfirst
      rcases step_next (kept_run hrun) with ⟨hqueue, -⟩ | ⟨hqueue, -⟩ | ⟨rest, hqueue, -⟩ |
        ⟨chunk, rest, hqueue, hnext⟩
      · cases hqueue
      · cases hqueue
      · cases hqueue
      · cases hqueue
        refine ⟨⟨⟨[], bytesOf [], false, false, false⟩, [⟨0, full.bytes⟩], [.data ⟨0, full.bytes⟩]⟩, ?_,
          rfl, rfl, rfl, rfl⟩
        have hacts : [Act.part full, .next] ++ List.replicate 0 (.part full) =
            [.part full] ++ [.next] := rfl
        rw [hacts, run_concat, hrun]
        exact hnext
  | succ parts ih =>
      obtain ⟨s, hrun, hopen, hdelivered, hqueue, hsent⟩ := ih (by omega)
      obtain ⟨count, hdrops, hstep⟩ := step_part (kept_run hrun) hopen full
      have hcount := count_numbered hfull hqueue (by omega) hdrops
      rw [if_neg (by omega)] at hcount
      rw [hcount] at hstep
      refine ⟨⟨s.handle.afterPart (s.chunk full) 0, s.sent ++ [s.chunk full], s.delivered⟩,
        ?_, hopen, hdelivered, ?_, ?_⟩
      · rw [List.replicate_succ', ← List.append_assoc, run_concat, hrun]
        exact hstep
      · have hchunk : s.chunk full = ⟨1 + parts, full.bytes⟩ := by
          rw [Stream.chunk, hsent, Nat.add_comm]
        show dropData 0 s.handle.queue ++ [] ++ [.data (s.chunk full)] = _
        rw [dropData_zero, List.append_nil, hqueue, hchunk, List.range'_1_concat, List.map_append]
        rfl
      · rw [List.length_append, hsent]
        rfl

end Unmarked

/-- The client is told of the second chunk, which was dropped, after the third. -/
theorem gap_unmarked :
    ∃ acts s chunk chunk', run acts = .ok s ∧ (∀ act ∈ acts, act.Flows) ∧
      s.delivered = [.data chunk, .data chunk'] ∧ ¬[chunk, chunk'] <:+: s.sent := by
  obtain ⟨full, hfull⟩ : ∃ full : Part, full.bytes.length = maxTtyOutputChunkBytes :=
    ⟨fullPart, length_fullPart⟩
  obtain ⟨s, hrun, hopen, hdelivered, hqueue, hsent⟩ := @filled full hfull 256 (Nat.le_refl _)
  have hkept := kept_run hrun
  obtain ⟨count, hdrops, hstep⟩ := step_part hkept hopen full
  have hcount : count = 1 := count_numbered hfull hqueue (Nat.le_refl _) hdrops
  rw [hcount] at hstep
  have hqueue' : (s.handle.afterPart (s.chunk full) 1).queue =
      .data ⟨2, full.bytes⟩ :: (((List.range' 3 254).map fun number => .data ⟨number, full.bytes⟩) ++
        [.overflow, .data (s.chunk full)]) := by
    show dropData 1 s.handle.queue ++ [.overflow] ++ [.data (s.chunk full)] = _
    rw [hqueue, List.range'_succ, List.range'_succ, List.map_cons, List.map_cons, dropData]
    simp
  have hlast : run (([.part full, .next] ++ List.replicate 256 (.part full)) ++
      [.part full]) = .ok
        ⟨s.handle.afterPart (s.chunk full) 1, s.sent ++ [s.chunk full], s.delivered⟩ := by
    rw [run_concat, hrun]
    exact hstep
  rcases step_next (kept_run hlast) with ⟨hnone, -⟩ | ⟨hnone, -⟩ | ⟨rest, hmarker, -⟩ |
    ⟨chunk, rest, hdata, hnext⟩
  · rw [hqueue'] at hnone
    cases hnone
  · rw [hqueue'] at hnone
    cases hnone
  · rw [hqueue'] at hmarker
    cases hmarker
  · rw [hqueue'] at hdata
    cases hdata
    have hend := (run_concat _ .next).trans ((congrArg (·.bind fun s => s.step .next) hlast).trans hnext)
    refine ⟨_, _, ⟨0, full.bytes⟩, ⟨2, full.bytes⟩, hend, ?_, ?_, ?_⟩
    · intro act hmem
      simp only [List.mem_append, List.mem_cons, List.not_mem_nil, or_false,
        List.mem_replicate] at hmem
      rcases hmem with (((rfl | rfl) | ⟨-, rfl⟩) | rfl) | rfl
      · exact .inr ⟨_, rfl⟩
      · exact .inl rfl
      · exact .inr ⟨_, rfl⟩
      · exact .inr ⟨_, rfl⟩
      · exact .inl rfl
    · show s.delivered ++ [.data ⟨2, full.bytes⟩] = _
      rw [hdelivered]
      rfl
    · rintro ⟨front, back, heq⟩
      have hsame : front ++ [⟨0, full.bytes⟩, ⟨2, full.bytes⟩] ++ back = s.sent ++ [s.chunk full] := heq
      have hnumbers : (s.sent ++ [s.chunk full]).map Chunk.number =
          List.range (s.sent ++ [s.chunk full]).length := (kept_run hend).numbered
      rw [← hsame] at hnumbers
      have hzero := congrArg (·[front.length]?) hnumbers
      have hone := congrArg (·[front.length + 1]?) hnumbers
      simp at hzero hone
      omega

end Muxly.Daemon.Tty
