/-
# Muxly.Client.Release -- the mailbox of a stream after its handle is released

A handle unregisters its conversation once, on the way from active to closed: in `close`, at the frame
that ends the stream, or when the stream has failed. `TtyOutputStream` leaves that out when it has
failed: nothing unregisters the conversation any more, and its mailbox stays in the router.
-/
import Muxly.Client.StreamHandles

namespace Muxly.Client.StreamHandle

open Muxly.Core Muxly.Sync

/-- A call has taken an envelope that says that the stream has failed. -/
def Failed (s : StreamState) : Prop := ∃ envelope ∈ s.taken, envelope.conversationError ≠ none

/-- The conversation of the stream has a mailbox. -/
def Registered (stream : StreamHandle) (s : StreamState) : Prop :=
  (s.router.queue stream.conversationId).isSome = true

/-- The failure of the stream leaves its mailbox behind. -/
def Leaves (stream : StreamHandle) (s : StreamState) : Prop :=
  stream.shape.unregistersOnError = false ∧ Failed s

/-- The phases of a handle. -/
inductive Phase (stream : StreamHandle) (s : StreamState) : Prop where
  /-- The handle is active, and no call is past its question to the router. -/
  | reading (hguard : s.guard = ⟨.active, false⟩) (hregistered : Registered stream s)
      (hclean : ¬ Failed s) (hcall : ∀ call stage, s.call = some (call, stage) →
        stage = .begins ∨ stage = .asks)
  /-- A call has taken an envelope. -/
  | consuming {call : StreamCall} {envelope : OwnedEnvelope} {earlier : List OwnedEnvelope}
      (hguard : s.guard = ⟨.active, false⟩) (hregistered : Registered stream s)
      (hcall : s.call = some (call, .consumes envelope)) (htaken : s.taken = earlier ++ [envelope])
      (hclean : ∀ other ∈ earlier, other.conversationError = none)
  /-- The handle is closed, and the call that has closed it is about to unregister. -/
  | unregistering {call : StreamCall} {stage : StreamStage} (hguard : s.guard = ⟨.closed, false⟩)
      (hcall : s.call = some (call, stage)) (hstage : stage = .unregisters ∨
        ∃ reply, stage = .forgets reply) (hstays : ¬ Leaves stream s)
  /-- The handle is closed, and nothing unregisters any more. -/
  | ended (hguard : s.guard.status = .closed) (hregistered : Registered stream s ↔ Leaves stream s)
      (hcall : ∀ call stage, s.call = some (call, stage) → stage = .begins ∨ stage = .releases)

/-- What holds in every state. -/
structure Sound (stream : StreamHandle) (s : StreamState) : Prop where
  distinct : s.router.Distinct
  phase : Phase stream s

section Steps

variable {stream : StreamHandle} {s s' : StreamState}

theorem sound_start (stream : StreamHandle) : Sound stream stream.start where
  distinct := ConversationRouter.distinct_init.registerConversation _
  phase := by
    refine .reading rfl ?_ ?_ ?_
    · show ((ConversationRouter.init.registerConversation stream.conversationId).queue _).isSome = true
      rw [ConversationRouter.queue_registerConversation, if_pos rfl]
      rfl
    · rintro ⟨envelope, hmem, -⟩
      cases hmem
    · intro call stage hcall
      cases hcall

/-- Somebody else uses the router. -/
theorem Sound.outside {router : ConversationRouter} (h : Sound stream s) (hdistinct : router.Distinct)
    (hqueue : (router.queue stream.conversationId).isSome
      = (s.router.queue stream.conversationId).isSome) :
    Sound stream { s with router := router } := by
  have hregistered : Registered stream { s with router := router } ↔ Registered stream s := by
    unfold Registered
    rw [hqueue]
  refine ⟨hdistinct, ?_⟩
  cases h.phase with
  | reading hguard hreg hclean hcall => exact .reading hguard (hregistered.mpr hreg) hclean hcall
  | consuming hguard hreg hcall htaken hclean =>
      exact .consuming hguard (hregistered.mpr hreg) hcall htaken hclean
  | unregistering hguard hcall hstage hstays => exact .unregistering hguard hcall hstage hstays
  | ended hguard hreg hcall => exact .ended hguard (hregistered.trans hreg) hcall

/-- A call begins. -/
theorem Sound.call (h : Sound stream s) (hnone : s.call = none) (call : StreamCall) :
    Sound stream { s with call := some (call, .begins) } := by
  have hbegins : ∀ (other : StreamCall) (stage : StreamStage),
      some (call, StreamStage.begins) = some (other, stage) → stage = .begins := by
    intro other stage heq
    cases heq
    rfl
  refine ⟨h.distinct, ?_⟩
  cases h.phase with
  | reading hguard hreg hclean _ =>
      exact .reading hguard hreg hclean fun other stage heq => .inl (hbegins other stage heq)
  | consuming _ _ hcall =>
      rw [hnone] at hcall
      cases hcall
  | unregistering _ hcall =>
      rw [hnone] at hcall
      cases hcall
  | ended hguard hreg _ =>
      exact .ended hguard hreg fun other stage heq => .inl (hbegins other stage heq)

/-- Where the caller stands after a section, with the state that the section has left. -/
def after (s : StreamState) (call : StreamCall) (shared : StreamShared) : StreamNext → StreamState
  | .goesOn stage => { s with
      toStreamShared := shared
      call := some (call, stage)
      taken := s.taken ++ stage.envelope.toList }
  | .returns _ => { s with toStreamShared := shared, call := none }

variable {call : StreamCall} {shared : StreamShared} {next : StreamNext}

theorem taken_after {stage : StreamStage} (h : stage.envelope = none) :
    (after s call shared (.goesOn stage)).taken = s.taken := by
  show s.taken ++ stage.envelope.toList = s.taken
  rw [h]
  exact List.append_nil _

theorem failed_after {stage : StreamStage} (h : stage.envelope = none) :
    Failed (after s call shared (.goesOn stage)) ↔ Failed s := by
  rw [Failed, taken_after h]
  rfl

/-- A handle that stays active returns, or asks the router. -/
theorem reading_after (hguard : shared.guard = ⟨.active, false⟩)
    (hregistered : (shared.router.queue stream.conversationId).isSome = true) (hclean : ¬ Failed s)
    (hnext : (∃ reply, next = .returns reply) ∨ next = .goesOn .asks) :
    Phase stream (after s call shared next) := by
  rcases hnext with ⟨reply, rfl⟩ | rfl
  · refine .reading hguard hregistered hclean ?_
    intro call' stage heq
    cases heq
  · refine .reading hguard hregistered (fun h => hclean ((failed_after rfl).mp h)) ?_
    intro call' stage heq
    cases heq
    exact .inr rfl

/-- A handle that is closed goes on to unregister. -/
theorem unregistering_after {stage : StreamStage} (hguard : shared.guard = ⟨.closed, false⟩)
    (hstage : stage = .unregisters ∨ ∃ reply, stage = .forgets reply)
    (hstays : ¬ Leaves stream s) : Phase stream (after s call shared (.goesOn stage)) := by
  have hnone : stage.envelope = none := by
    rcases hstage with rfl | ⟨reply, rfl⟩ <;> rfl
  refine .unregistering hguard rfl hstage fun h => hstays ⟨h.1, (failed_after hnone).mp h.2⟩

/-- A handle that has nothing left to unregister returns, or is released. -/
theorem over_after (hguard : shared.guard.status = .closed)
    (hregistered : (shared.router.queue stream.conversationId).isSome = true ↔ Leaves stream s)
    (hnext : (∃ reply, next = .returns reply) ∨ next = .goesOn .releases) :
    Phase stream (after s call shared next) := by
  rcases hnext with ⟨reply, rfl⟩ | rfl
  · refine .ended hguard hregistered ?_
    intro call' stage heq
    cases heq
  · refine .ended hguard (hregistered.trans ?_) ?_
    · unfold Leaves
      rw [failed_after rfl]
    · intro call' stage heq
      cases heq
      exact .inr rfl

theorem afterClose_cases (call : StreamCall) :
    (∃ reply, afterClose call = .returns reply) ∨ afterClose call = .goesOn .releases := by
  cases call with
  | deinit => exact .inr rfl
  | _ => exact .inl ⟨_, rfl⟩

/-- Where a call stands tells the phase. -/
theorem Phase.at_stage (h : Phase stream s) {stage : StreamStage} (hcall : s.call = some (call, stage)) :
    ((stage = .begins ∨ stage = .asks) ∧ s.guard = ⟨.active, false⟩ ∧ Registered stream s ∧
        ¬ Failed s) ∨
      (∃ envelope, stage = .consumes envelope ∧ s.guard = ⟨.active, false⟩ ∧ Registered stream s ∧
        ∃ earlier, s.taken = earlier ++ [envelope] ∧
          ∀ other ∈ earlier, other.conversationError = none) ∨
      ((stage = .unregisters ∨ ∃ reply, stage = .forgets reply) ∧ s.guard = ⟨.closed, false⟩ ∧
        ¬ Leaves stream s) ∨
      (stage = .begins ∨ stage = .releases) ∧ s.guard.status = .closed ∧
        (Registered stream s ↔ Leaves stream s) := by
  cases h with
  | reading hguard hregistered hclean hstage =>
      exact .inl ⟨hstage call stage hcall, hguard, hregistered, hclean⟩
  | consuming hguard hregistered hconsuming htaken hclean =>
      rw [hcall] at hconsuming
      cases hconsuming
      exact .inr (.inl ⟨_, rfl, hguard, hregistered, _, htaken, hclean⟩)
  | unregistering hguard hother hstage hstays =>
      rw [hcall] at hother
      cases hother
      exact .inr (.inr (.inl ⟨hstage, hguard, hstays⟩))
  | ended hguard hregistered hstage =>
      exact .inr (.inr (.inr ⟨hstage call stage hcall, hguard, hregistered⟩))

/-- The first section of a call. -/
theorem phase_begins (h : Phase stream s) (hcall : s.call = some (call, .begins))
    (hsection : stream.beginCall s.toStreamShared call = (next, shared)) :
    shared.router = s.router ∧ Phase stream (after s call shared next) := by
  have hphase : s.guard = ⟨.active, false⟩ ∧ Registered stream s ∧ ¬ Failed s ∨
      s.guard.status = .closed ∧ (Registered stream s ↔ Leaves stream s) := by
    simpa using h.at_stage hcall
  unfold beginCall at hsection
  rcases hphase with ⟨hguard, hregistered, hclean⟩ | ⟨hguard, hregistered⟩
  · -- The handle is active: a read asks the router, and a `close` marks the handle and unregisters.
    rw [hguard] at hsection
    split at hsection
    · cases hsection
      exact ⟨rfl, reading_after hguard hregistered hclean (.inr rfl)⟩
    · cases hsection
      exact ⟨rfl, unregistering_after rfl (.inl rfl) fun h => hclean h.2⟩
  · -- The handle is closed: `close` finds it so, and unregisters nothing.
    split at hsection
    · split at hsection
      · rename_i hactive
        unfold StreamGuard.currentStatus at hactive
        rw [hguard] at hactive
        split at hactive <;> cases hactive
      · cases hsection
        exact ⟨rfl, over_after hguard hregistered (.inl ⟨_, rfl⟩)⟩
      · cases hsection
        exact ⟨rfl, over_after hguard hregistered (.inl ⟨_, rfl⟩)⟩
    · have hmark : s.guard.markClosed = (false, s.guard) := by
        unfold StreamGuard.markClosed
        rw [hguard, if_pos (by simp)]
      rw [hmark] at hsection
      cases hsection
      exact ⟨rfl, over_after hguard hregistered (afterClose_cases call)⟩

/-- The question to the router. -/
theorem phase_asks (h : Phase stream s) (hdistinct : s.router.Distinct)
    (hcall : s.call = some (call, .asks))
    (hsection : stream.askRouter s.toStreamShared call = some (next, shared)) :
    shared.router.Distinct ∧ Phase stream (after s call shared next) := by
  obtain ⟨hguard, hregistered, hclean⟩ : s.guard = ⟨.active, false⟩ ∧ Registered stream s ∧
      ¬ Failed s := by
    simpa using h.at_stage hcall
  have hreturns : ∀ reply, s.router.Distinct ∧
      Phase stream (after s call s.toStreamShared (.returns reply)) := fun reply =>
    ⟨hdistinct, reading_after hguard hregistered hclean (.inl ⟨reply, rfl⟩)⟩
  unfold askRouter at hsection
  split at hsection
  · -- The envelope is taken, and joins those of which none has failed.
    rename_i envelope router htake
    cases hsection
    refine ⟨ConversationRouter.distinct_take hdistinct htake, .consuming hguard ?_ rfl rfl ?_⟩
    · exact (ConversationRouter.registered_take htake).1.trans hregistered
    · intro other hother
      by_contra hfailed
      exact hclean ⟨other, hother, hfailed⟩
  · split at hsection
    · cases hsection
      exact hreturns _
    · split at hsection
      · cases hsection
        exact hreturns _
      · cases hsection
  · cases hsection
    exact hreturns _
  · split at hsection
    · cases hsection
      exact hreturns _
    · cases hsection
      exact hreturns _

/-- Of the envelopes that a call has taken, the last one tells whether the stream has failed. -/
theorem failed_iff {envelope : OwnedEnvelope} {earlier : List OwnedEnvelope}
    (htaken : s.taken = earlier ++ [envelope])
    (hclean : ∀ other ∈ earlier, other.conversationError = none) :
    Failed s ↔ envelope.conversationError ≠ none := by
  unfold Failed
  rw [htaken]
  constructor
  · rintro ⟨other, hmem, herror⟩
    rcases List.mem_append.mp hmem with hmem | hmem
    · exact absurd (hclean other hmem) herror
    · rwa [← List.mem_singleton.mp hmem]
  · intro h
    exact ⟨envelope, List.mem_append_right _ (List.mem_singleton_self _), h⟩

/-- What `consumeEnvelope` makes of an envelope. -/
theorem phase_consumes (h : Phase stream s) {envelope : OwnedEnvelope}
    (hcall : s.call = some (call, .consumes envelope)) {guard : StreamGuard}
    (hsection : stream.consumeEnvelope s.guard envelope = (next, guard)) :
    Phase stream (after s call { s.toStreamShared with guard := guard } next) := by
  obtain ⟨hguard, hregistered, earlier, htaken, hclean⟩ : s.guard = ⟨.active, false⟩ ∧
      Registered stream s ∧ ∃ earlier, s.taken = earlier ++ [envelope] ∧
        ∀ other ∈ earlier, other.conversationError = none := by
    simpa using h.at_stage hcall
  have hfailed : Failed s ↔ envelope.conversationError ≠ none := failed_iff htaken hclean
  unfold consumeEnvelope at hsection
  dsimp only at hsection
  rw [hguard] at hsection
  split at hsection
  · -- The stream has failed: only `TtyOutputStream` stays registered.
    rename_i herror
    have herror : envelope.conversationError ≠ none := Option.isSome_iff_ne_none.mp herror
    split at hsection
    · rename_i hunregisters
      cases hsection
      refine unregistering_after rfl (.inr ⟨_, rfl⟩) fun h => ?_
      rw [h.1] at hunregisters
      cases hunregisters
    · rename_i hstays
      cases hsection
      refine over_after rfl ?_ (.inl ⟨_, rfl⟩)
      exact iff_of_true hregistered ⟨Bool.eq_false_iff.mpr hstays, hfailed.mpr herror⟩
  · rename_i hnone
    have hnone : ¬ Failed s := fun h => hnone (Option.isSome_iff_ne_none.mpr (hfailed.mp h))
    split at hsection
    · cases hsection
      exact unregistering_after rfl (.inr ⟨_, rfl⟩) fun h => hnone h.2
    · cases hsection
      exact reading_after rfl hregistered hnone (.inl ⟨_, rfl⟩)

/-- `unregisterConversation`, after which nothing is left to do but `release`. -/
theorem phase_unregisters (h : Phase stream s) (hdistinct : s.router.Distinct) {stage : StreamStage}
    (hcall : s.call = some (call, stage))
    (hstage : stage = .unregisters ∨ ∃ reply, stage = .forgets reply)
    (hnext : (∃ reply, next = .returns reply) ∨ next = .goesOn .releases) :
    Phase stream (after s call { s.toStreamShared with
      router := s.router.unregisterConversation stream.conversationId } next) := by
  have hstays : s.guard = ⟨.closed, false⟩ ∧ ¬ Leaves stream s := by
    rcases hstage with rfl | ⟨reply, rfl⟩
    · simpa using h.at_stage hcall
    · simpa using h.at_stage hcall
  refine over_after (congrArg StreamGuard.status hstays.1) ?_ hnext
  refine iff_of_false ?_ hstays.2
  rw [ConversationRouter.queue_unregisterConversation hdistinct, if_pos rfl]
  nofun

/-- `release`. -/
theorem phase_releases (h : Phase stream s) (hcall : s.call = some (call, .releases))
    (reply : StreamReply) : Phase stream
      (after s call { s.toStreamShared with guard := s.guard.release } (.returns reply)) := by
  obtain ⟨hguard, hregistered⟩ : s.guard.status = .closed ∧
      (Registered stream s ↔ Leaves stream s) := by
    simpa using h.at_stage hcall
  exact over_after hguard hregistered (.inl ⟨reply, rfl⟩)

/-- One section of a call. -/
theorem Sound.section (h : Sound stream s) {stage : StreamStage} (hcall : s.call = some (call, stage))
    (hsection : stream.runSection s.toStreamShared call stage = some (next, shared)) :
    Sound stream (after s call shared next) := by
  have hshared : ∀ {next : StreamNext}, (after s call shared next).router = shared.router := by
    intro next
    cases next <;> rfl
  cases stage with
  | begins =>
      obtain ⟨hrouter, hphase⟩ := phase_begins h.phase hcall (Option.some.inj hsection)
      exact ⟨by rw [hshared, hrouter]; exact h.distinct, hphase⟩
  | asks =>
      obtain ⟨hdistinct, hphase⟩ := phase_asks h.phase h.distinct hcall hsection
      exact ⟨by rw [hshared]; exact hdistinct, hphase⟩
  | consumes envelope =>
      cases hsection
      exact ⟨by rw [hshared]; exact h.distinct, phase_consumes h.phase hcall rfl⟩
  | forgets reply =>
      cases hsection
      exact ⟨by rw [hshared]; exact h.distinct.unregisterConversation _,
        phase_unregisters h.phase h.distinct hcall (.inr ⟨reply, rfl⟩) (.inl ⟨reply, rfl⟩)⟩
  | unregisters =>
      cases hsection
      exact ⟨by rw [hshared]; exact h.distinct.unregisterConversation _,
        phase_unregisters h.phase h.distinct hcall (.inl rfl) (afterClose_cases call)⟩
  | releases =>
      cases hsection
      exact ⟨by rw [hshared]; exact h.distinct, phase_releases h.phase hcall .done⟩

theorem Sound.step {m : StreamMove} (h : Sound stream s) (hstep : stream.step m s = some s') :
    Sound stream s' := by
  cases m with
  | call call =>
      simp only [StreamHandle.step] at hstep
      split at hstep
      · rename_i hnone
        obtain rfl := Option.some.inj hstep
        exact h.call hnone call
      · cases hstep
  | go =>
      simp only [StreamHandle.step, Option.bind_eq_bind, Option.bind_eq_some_iff] at hstep
      obtain ⟨⟨call, stage⟩, hcall, ⟨next, shared⟩, hsection, hstep⟩ := hstep
      have hsound := h.section hcall hsection
      cases next with
      | goesOn stage =>
          obtain rfl := Option.some.inj hstep
          exact hsound
      | returns reply =>
          obtain rfl := Option.some.inj hstep
          exact hsound
  | outside o =>
      simp only [StreamHandle.step] at hstep
      split at hstep
      · rename_i hforeign
        obtain ⟨⟨router, pushed⟩, houtside, rfl⟩ := Option.map_eq_some_iff.mp hstep
        exact h.outside (ConversationRouter.waiting_outside h.distinct houtside).1
          (ConversationRouter.registered_outside h.distinct hforeign houtside)
      · cases hstep

end Steps

/-- In every run of deliveries and of calls on a stream handle, once `deinit` has released the handle,
its conversation is unregistered exactly when the handle unregisters on errors, or no call has taken an
envelope with a conversation error. -/
theorem unregistered_iff (stream : StreamHandle) {s : StreamState}
    (h : Runs stream.step unrestricted stream.start s) (hreleased : s.guard.released = true) :
    s.router.queue stream.conversationId = none ↔ stream.shape.unregistersOnError = true ∨
      ∀ envelope ∈ s.taken, envelope.conversationError = none := by
  have hsound : Sound stream s :=
    h.invariant (sound_start stream) fun _ _ _ hsound _ hstep => hsound.step hstep
  have hover : Registered stream s ↔ Leaves stream s := by
    cases hsound.phase with
    | reading hguard =>
        rw [hguard] at hreleased
        cases hreleased
    | consuming hguard =>
        rw [hguard] at hreleased
        cases hreleased
    | unregistering hguard =>
        rw [hguard] at hreleased
        cases hreleased
    | ended _ hregistered _ => exact hregistered
  have hclean : ¬ Failed s ↔ ∀ envelope ∈ s.taken, envelope.conversationError = none := by
    unfold Failed
    push Not
    exact Iff.rfl
  rw [← Option.not_isSome_iff_eq_none, ← hclean]
  refine (not_congr hover).trans ?_
  rw [Leaves, not_and_or, Bool.not_eq_false]

/-- A stream whose pane has exited is released without a trace. -/
theorem unregistered_iff_exited : ∃ s : StreamState,
    Runs (StreamHandle.step ⟨ttyOutputStream, ascii "c-1"⟩) unrestricted
      (StreamHandle.start ⟨ttyOutputStream, ascii "c-1"⟩) s ∧
    s.router.queue (ascii "c-1") = none := by
  obtain ⟨s, hs, htest⟩ := Runs.exists_of_follow (StreamHandle.step ⟨ttyOutputStream, ascii "c-1"⟩)
    unrestricted (StreamHandle.start ⟨ttyOutputStream, ascii "c-1"⟩)
    [.outside (.pushEnvelope ⟨ascii "c-1", none, none, .ttyData, .null, true, none⟩),
      .call .poll, .go, .go, .go, .go, .call .deinit, .go, .go]
    (fun s => s.guard.released && s.taken.all fun envelope => envelope.conversationError.isNone)
    (by decide +kernel)
  obtain ⟨hreleased, htaken⟩ := Bool.and_eq_true_iff.mp htest
  refine ⟨s, hs, (unregistered_iff ⟨ttyOutputStream, ascii "c-1"⟩ hs hreleased).mpr (.inr ?_)⟩
  exact fun envelope hmem => Option.isNone_iff_eq_none.mp (List.all_eq_true.mp htaken envelope hmem)

/-- A terminal stream that fails keeps its mailbox. -/
theorem mailbox_left_by_failed_stream : ¬ ∀ (stream : StreamHandle) (s : StreamState),
    stream.shape ∈ [ttyOutputStream, paneCaptureStream, projectionEventStream] →
    Runs stream.step unrestricted stream.start s → s.guard.released = true →
    s.router.queue stream.conversationId = none := by
  intro h
  obtain ⟨s, hs, htest⟩ := Runs.exists_of_follow (StreamHandle.step ⟨ttyOutputStream, ascii "c-1"⟩)
    unrestricted (StreamHandle.start ⟨ttyOutputStream, ascii "c-1"⟩)
    [.outside (.pushEnvelope ⟨ascii "c-1", none, none, .ttyData, .null, true,
        some ⟨-32000, ascii "pane is gone"⟩⟩),
      .call .poll, .go, .go, .go, .call .deinit, .go, .go]
    (fun s => s.guard.released && (s.router.queue (ascii "c-1")).isSome) (by decide +kernel)
  obtain ⟨hreleased, hregistered⟩ := Bool.and_eq_true_iff.mp htest
  rw [h ⟨ttyOutputStream, ascii "c-1"⟩ s (List.mem_cons_self ..) hs hreleased] at hregistered
  cases hregistered

end Muxly.Client.StreamHandle
