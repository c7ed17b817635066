/-
# Muxly.Client.Polling -- what a poll says where a wait would stand

Every handle of the client has a poll beside its wait. `runAlone` runs a call with nobody else running,
to the reply it returns or to the place where it waits, and `EndsAgree` compares the two calls in one
state. A poll knows nothing of a router that is closed, and the one of a request nothing of a
conversation that is gone: in these states, and in no others, it reports that the answer is pending
while a wait would return an error.
-/
import Muxly.Client.StreamHandles

namespace Muxly.Client

open Muxly.Core Muxly.Sync

/-! ## A call alone -/

/-- What a call comes to when nobody else runs. -/
inductive CallEnd (ρ : Type) where
  | waits
  | returns (reply : ρ)
  deriving DecidableEq

/-- Run the sections of a call; `none` when they do not end in time. -/
def runAlone {σ τ ρ : Type} (next : σ → τ → Option ((τ ⊕ ρ) × σ)) : Nat → σ → τ → Option (CallEnd ρ)
  | 0, _, _ => none
  | time + 1, s, stage =>
    match next s stage with
    | none => some .waits
    | some (.inr reply, _) => some (.returns reply)
    | some (.inl stage, s) => runAlone next time s stage

/-- The poll reports that it is pending exactly when the wait would stand, and otherwise what the wait
returns. -/
def EndsAgree {ρ : Type} (pending : ρ) (polled waited : CallEnd ρ) : Prop :=
  (polled = .returns pending ↔ waited = .waits) ∧ (polled ≠ .returns pending → waited = polled)

theorem agree_self {ρ : Type} {pending reply : ρ} (h : reply ≠ pending) :
    EndsAgree pending (.returns reply) (.returns reply) :=
  ⟨⟨fun heq => absurd (CallEnd.returns.inj heq) h, nofun⟩, fun _ => rfl⟩

theorem agree_waits {ρ : Type} {pending : ρ} : EndsAgree pending (.returns pending) .waits :=
  ⟨⟨fun _ => rfl, fun _ => rfl⟩, fun h => absurd rfl h⟩

theorem not_agree_returns {ρ : Type} {pending reply : ρ} :
    ¬ EndsAgree pending (.returns pending) (.returns reply) :=
  fun h => nomatch h.1.mp rfl

/-! ## The router -/

namespace ConversationRouter

/-- The router is closed, and holds nothing for a conversation that is registered. -/
def Stranded (router : ConversationRouter) (conversationId : Bytes) (requestId : Option UInt64) : Prop :=
  ∃ envelopes, router.queue conversationId = some envelopes ∧
    envelopes.find? (fun envelope => envelope.requestId = requestId) = none ∧ router.closed = true

/-- What a section of the router comes to. -/
def endOf : Outcome SectionResult RouterState → CallEnd SectionResult
  | .waits => .waits
  | .returns result _ _ => .returns result

/-- `takeEnvelope` and `waitForEnvelope` agree. -/
def PollsAgree (st : RouterState) (conversationId : Bytes) (requestId : Option UInt64) : Prop :=
  EndsAgree (.envelope (.error .conversationResponseNotFound))
    (endOf (st.attempt () (.takeEnvelope conversationId requestId)))
    (endOf (st.attempt () (.waitForEnvelope conversationId requestId)))

theorem pollsAgree_iff (st : RouterState) (conversationId : Bytes) (requestId : Option UInt64) :
    PollsAgree st conversationId requestId ↔ ¬ st.router.Stranded conversationId requestId := by
  unfold PollsAgree RouterState.attempt
  rcases st.router.takeEnvelopeLocked_cases conversationId requestId with ⟨hqueue, htake⟩ |
    ⟨envelopes, hqueue, hfind, htake⟩ | ⟨envelopes, envelope, router, hqueue, hfind, htake, -⟩
  · -- The conversation is not registered: both say so.
    simp only [htake, endOf]
    refine iff_of_true (agree_self nofun) ?_
    rintro ⟨envelopes, hsome, -⟩
    rw [hqueue] at hsome
    cases hsome
  · -- Nothing is there for the caller: only a wait asks whether the router is closed.
    simp only [htake, endOf]
    by_cases hclosed : st.router.closed = true
    · rw [if_pos hclosed]
      exact iff_of_false not_agree_returns fun h => h ⟨envelopes, hqueue, hfind, hclosed⟩
    · rw [if_neg hclosed]
      exact iff_of_true agree_waits fun ⟨_, _, _, h⟩ => hclosed h
  · -- Both take the envelope.
    simp only [htake, endOf]
    refine iff_of_true (agree_self nofun) ?_
    rintro ⟨others, hsome, hnone, -⟩
    rw [hqueue] at hsome
    cases hsome
    rw [hfind] at hnone
    cases hnone

end ConversationRouter

/-- The two calls, run alone from the same state, agree. -/
def PollAgrees {σ τ ρ : Type} (pending : ρ) (poll wait : σ → τ → Option ((τ ⊕ ρ) × σ)) (s : σ)
    (stage : τ) : Prop :=
  ∃ polled waited, runAlone poll 4 s stage = some polled ∧ runAlone wait 4 s stage = some waited ∧
    EndsAgree pending polled waited

theorem pollAgrees_iff_of_eq {σ τ ρ : Type} {pending : ρ} {poll wait : σ → τ → Option ((τ ⊕ ρ) × σ)}
    {s : σ} {stage : τ} {polled waited : CallEnd ρ} (hpoll : runAlone poll 4 s stage = some polled)
    (hwait : runAlone wait 4 s stage = some waited) :
    PollAgrees pending poll wait s stage ↔ EndsAgree pending polled waited := by
  constructor
  · rintro ⟨polled', waited', hpoll', hwait', h⟩
    rw [hpoll] at hpoll'
    rw [hwait] at hwait'
    cases hpoll'
    cases hwait'
    exact h
  · exact fun h => ⟨polled, waited, hpoll, hwait, h⟩

/-! ## Pending requests -/

namespace PendingRpcRequest

variable (request : PendingRpcRequest)

/-- The next section of a call on the request. -/
def next (call : PendingCall) (s : PendingShared) (stage : CallStage) :
    Option ((CallStage ⊕ CallResult) × PendingShared) :=
  (request.runSection s call stage).map fun (next, shared, _) =>
    match next with
    | .goesOn stage => (.inl stage, shared)
    | .returns result => (.inr result, shared)

/-- `poll` and `wait` agree. -/
def PollsAgree (s : PendingShared) : Prop :=
  PollAgrees .pending (request.next .poll) (request.next .wait) s .begins

/-- The request is active, and its conversation is gone or the router is closed with no answer. -/
def Stranded (s : PendingShared) : Prop :=
  s.pending.currentStatus = .active ∧ (s.router.queue request.conversationId = none ∨
    s.router.Stranded request.conversationId (some request.requestId))

variable {request} {s : PendingShared}

/-- A call on a request that is not active reports its status. -/
theorem runAlone_inactive (hinactive : s.pending.currentStatus ≠ .active) {call : PendingCall}
    (hcall : call ≠ .cancel) : runAlone (request.next call) 4 s .begins =
      some (.returns (reported s.pending.currentStatus .done)) := by
  unfold runAlone next
  cases call with
  | cancel => exact absurd rfl hcall
  | _ =>
      cases hstatus : s.pending.currentStatus with
      | active => exact absurd hstatus hinactive
      | _ => simp only [runSection, hstatus, Option.map_some]

/-- A call on an active request asks the router. -/
theorem runAlone_active (hactive : s.pending.currentStatus = .active) {call : PendingCall}
    (hcall : call ≠ .cancel) (time : Nat) : runAlone (request.next call) (time + 1) s .begins =
      runAlone (request.next call) time s .asks := by
  rw [runAlone, next]
  cases call with
  | cancel => exact absurd rfl hcall
  | _ => simp only [runSection, hactive, Option.map_some]

/-- Without the conversation, a poll goes on as if the answer might come. -/
theorem runAlone_unknown (hactive : s.pending.currentStatus = .active)
    (htake : s.router.takeEnvelopeLocked request.conversationId (some request.requestId) =
      .error .unknownConversation) :
    runAlone (request.next .poll) 3 s .asks = some (.returns .pending) ∧
      runAlone (request.next .wait) 3 s .asks
        = some (.returns (.routerError .unknownConversation)) := by
  constructor
  · simp [runAlone, next, runSection, htake, hactive, reported]
  · simp [runAlone, next, runSection, htake, hactive, reported]

/-- Without an answer, a wait stands, unless the router is closed. -/
theorem runAlone_notFound (hactive : s.pending.currentStatus = .active)
    (htake : s.router.takeEnvelopeLocked request.conversationId (some request.requestId) =
      .error .conversationResponseNotFound) :
    runAlone (request.next .poll) 3 s .asks = some (.returns .pending) ∧
      runAlone (request.next .wait) 3 s .asks
        = some (if s.router.closed then .returns (.routerError .endOfStream) else .waits) := by
  constructor
  · simp [runAlone, next, runSection, htake]
  · by_cases hclosed : s.router.closed = true
    · simp [runAlone, next, runSection, htake, hclosed, hactive, reported]
    · simp [runAlone, next, runSection, htake, hclosed]

/-- A call that takes an envelope consumes it. -/
theorem runAlone_take (hactive : s.pending.currentStatus = .active) {envelope : OwnedEnvelope}
    {router : ConversationRouter}
    (htake : s.router.takeEnvelopeLocked request.conversationId (some request.requestId) =
      .ok (envelope, router)) {call : PendingCall} (hcall : call ≠ .cancel) :
    runAlone (request.next call) 3 s .asks = some (.returns
      (if envelope.conversationError.isSome then .requestFailed else .payload envelope.payload)) := by
  have hmark : s.pending.tryMarkConsumed.1 = .active := by
    unfold PendingStatus.currentStatus at hactive
    unfold PendingStatus.tryMarkConsumed
    split at hactive
    · cases hactive
    · rename_i hreleased
      rw [if_neg hreleased, hactive]
  unfold runAlone next
  cases call with
  | cancel => exact absurd rfl hcall
  | _ =>
      simp only [runSection, htake, Option.map_some, runAlone, hmark, reported]

theorem pollsAgree_iff : request.PollsAgree s ↔ ¬ request.Stranded s := by
  have hpoll : PendingCall.poll ≠ .cancel := nofun
  have hwait : PendingCall.wait ≠ .cancel := nofun
  unfold PollsAgree Stranded
  by_cases hactive : s.pending.currentStatus = .active
  · have hasks := fun polled waited hpolled hwaited => @pollAgrees_iff_of_eq _ _ _ CallResult.pending
      (request.next .poll) (request.next .wait) s .begins polled waited
      ((runAlone_active hactive hpoll 3).trans hpolled) ((runAlone_active hactive hwait 3).trans hwaited)
    rcases s.router.takeEnvelopeLocked_cases request.conversationId (some request.requestId) with
      ⟨hqueue, htake⟩ | ⟨envelopes, hqueue, hfind, htake⟩ |
      ⟨envelopes, envelope, router, hqueue, hfind, htake, -⟩
    · -- The conversation is gone: the wait fails, the poll is pending.
      obtain ⟨hpolled, hwaited⟩ := runAlone_unknown hactive htake
      rw [hasks _ _ hpolled hwaited]
      exact iff_of_false not_agree_returns fun h => h ⟨hactive, .inl hqueue⟩
    · -- No answer yet: only the wait asks whether the router is closed.
      obtain ⟨hpolled, hwaited⟩ := runAlone_notFound hactive htake
      rw [hasks _ _ hpolled hwaited]
      by_cases hclosed : s.router.closed = true
      · rw [if_pos hclosed]
        exact iff_of_false not_agree_returns fun h =>
          h ⟨hactive, .inr ⟨envelopes, hqueue, hfind, hclosed⟩⟩
      · rw [if_neg hclosed]
        refine iff_of_true agree_waits ?_
        rintro ⟨-, hgone | ⟨-, -, -, hclosed'⟩⟩
        · rw [hqueue] at hgone
          cases hgone
        · exact hclosed hclosed'
    · -- Both take the answer and mark the request.
      rw [hasks _ _ (runAlone_take hactive htake hpoll) (runAlone_take hactive htake hwait)]
      refine iff_of_true (agree_self ?_) ?_
      · split <;> nofun
      · rintro ⟨-, hgone | ⟨others, hsome, hnone, -⟩⟩
        · rw [hqueue] at hgone
          cases hgone
        · rw [hqueue] at hsome
          cases hsome
          rw [hfind] at hnone
          cases hnone
  · rw [pollAgrees_iff_of_eq (runAlone_inactive hactive hpoll) (runAlone_inactive hactive hwait)]
    refine iff_of_true (agree_self ?_) fun h => hactive h.1
    cases hstatus : s.pending.currentStatus with
    | active => exact absurd hstatus hactive
    | _ => nofun

end PendingRpcRequest

/-! ## Streams -/

namespace StreamHandle

variable (stream : StreamHandle)

/-- The next section of a call on the handle; a reply is what it says. -/
def next (call : StreamCall) (s : StreamShared) (stage : StreamStage) :
    Option ((StreamStage ⊕ StreamReply) × StreamShared) :=
  (stream.runSection s call stage).map fun (next, shared) =>
    match next with
    | .goesOn stage => (.inl stage, shared)
    | .returns reply => (.inr reply.outcome, shared)

/-- The poll and the wait of the handle agree. -/
def PollsAgree (s : StreamShared) : Prop :=
  PollAgrees .pending (stream.next .poll) (stream.next .wait) s .begins

/-- The stream is active, and the router is closed with nothing for it. -/
def Stranded (s : StreamShared) : Prop :=
  s.guard.currentStatus = .active ∧ s.router.Stranded stream.conversationId none

variable {stream} {s : StreamShared}

/-- A call on a stream that is not active says so. -/
theorem runAlone_inactive (hinactive : s.guard.currentStatus ≠ .active) {call : StreamCall}
    (hcall : call = .wait ∨ call = .poll) : runAlone (stream.next call) 4 s .begins =
      some (.returns (if s.guard.currentStatus = .closed then .closed else .invalidStream)) := by
  unfold runAlone next
  simp only [runSection, beginCall, if_pos hcall, Option.map_some]
  cases hstatus : s.guard.currentStatus with
  | active => exact absurd hstatus hinactive
  | closed => simp [outcome_closedReply]
  | released => rfl

/-- A call on an active stream asks the router. -/
theorem runAlone_active (hactive : s.guard.currentStatus = .active) {call : StreamCall}
    (hcall : call = .wait ∨ call = .poll) (time : Nat) :
    runAlone (stream.next call) (time + 1) s .begins = runAlone (stream.next call) time s .asks := by
  rw [runAlone, next]
  simp only [runSection, beginCall, if_pos hcall, hactive, Option.map_some]

/-- A call that takes an envelope returns what is in it. -/
theorem runAlone_take {envelope : OwnedEnvelope} {router : ConversationRouter}
    (htake : s.router.takeEnvelopeLocked stream.conversationId none = .ok (envelope, router))
    (call : StreamCall) : runAlone (stream.next call) 3 s .asks =
      some (.returns (stream.shape.consume envelope.frame).outcome) := by
  have hasked : runAlone (stream.next call) 3 s .asks =
      runAlone (stream.next call) 2 { s with router := router } (.consumes envelope) := by
    rw [runAlone, next]
    simp only [runSection, askRouter, htake, Option.map_some]
  rw [hasked]
  obtain ⟨guard, hconsume⟩ := stream.consumeEnvelope_cases s.guard envelope
  rcases hconsume with hconsume | hconsume
  · simp [runAlone, next, runSection, hconsume]
  · simp [runAlone, next, runSection, hconsume]

theorem pollsAgree_iff : stream.PollsAgree s ↔ ¬ stream.Stranded s := by
  unfold PollsAgree Stranded
  by_cases hactive : s.guard.currentStatus = .active
  · have hasks := fun polled waited hpolled hwaited => @pollAgrees_iff_of_eq _ _ _ StreamReply.pending
      (stream.next .poll) (stream.next .wait) s .begins polled waited
      ((runAlone_active hactive (.inr rfl) 3).trans hpolled)
      ((runAlone_active hactive (.inl rfl) 3).trans hwaited)
    rcases s.router.takeEnvelopeLocked_cases stream.conversationId none with
      ⟨hqueue, htake⟩ | ⟨envelopes, hqueue, hfind, htake⟩ |
      ⟨envelopes, envelope, router, hqueue, hfind, htake, -⟩
    · -- The conversation is gone: both report a stream that is closed.
      have hgone : ∀ call, runAlone (stream.next call) 3 s .asks = some (.returns .closed) := by
        intro call
        simp [runAlone, next, runSection, askRouter, htake, outcome_closedReply]
      rw [hasks _ _ (hgone .poll) (hgone .wait)]
      refine iff_of_true (agree_self nofun) ?_
      rintro ⟨-, envelopes, hsome, -⟩
      rw [hqueue] at hsome
      cases hsome
    · -- No frame yet: only the wait asks whether the router is closed.
      have hpolled : runAlone (stream.next .poll) 3 s .asks = some (.returns .pending) := by
        simp [runAlone, next, runSection, askRouter, htake, StreamReply.outcome]
      have hwaited : runAlone (stream.next .wait) 3 s .asks =
          some (if s.router.closed then .returns .closed else .waits) := by
        by_cases hclosed : s.router.closed = true
        · simp [runAlone, next, runSection, askRouter, htake, hclosed, outcome_closedReply]
        · simp [runAlone, next, runSection, askRouter, htake, hclosed]
      rw [hasks _ _ hpolled hwaited]
      by_cases hclosed : s.router.closed = true
      · rw [if_pos hclosed]
        exact iff_of_false not_agree_returns fun h => h ⟨hactive, envelopes, hqueue, hfind, hclosed⟩
      · rw [if_neg hclosed]
        exact iff_of_true agree_waits fun ⟨_, _, _, _, h⟩ => hclosed h
    · rw [hasks _ _ (runAlone_take htake .poll) (runAlone_take htake .wait)]
      refine iff_of_true (agree_self (stream.shape.outcome_consume _)) ?_
      rintro ⟨-, others, hsome, hnone, -⟩
      rw [hqueue] at hsome
      cases hsome
      rw [hfind] at hnone
      cases hnone
  · rw [pollAgrees_iff_of_eq (runAlone_inactive hactive (.inr rfl))
      (runAlone_inactive hactive (.inl rfl))]
    refine iff_of_true (agree_self ?_) fun h => hactive h.1
    split <;> nofun

end StreamHandle

/-! ## Runs -/

namespace PendingRpcRequest

/-- Nobody else uses the conversation of the request, and nobody closes the router. -/
def Undisturbed (request : PendingRpcRequest) (_ : PendingState) : PendingMove → Prop
  | .outside o => foreign request.conversationId o = true ∧ o ≠ .close
  | _ => True

/-- A call is about to mark the request consumed, and has unregistered its conversation. -/
def IsMarking (s : PendingState) : Prop :=
  ∃ t thread envelope, s.threads t = some thread ∧ thread.stage = .marks envelope

/-- What holds in every state of an undisturbed run. -/
structure Held (request : PendingRpcRequest) (s : PendingState) : Prop where
  sound : s.Sound request
  isOpen : s.router.closed = false
  registered : s.pending.status = .active → ¬ IsMarking s →
    (s.router.queue request.conversationId).isSome = true
  forgets : ∀ t thread, s.threads t = some thread → thread.stage = .forgets →
    s.pending.status ≠ .active

variable {request : PendingRpcRequest} {s s' : PendingState}

theorem held_start (request : PendingRpcRequest) : request.Held request.start where
  sound := sound_start request
  isOpen := by
    show (ConversationRouter.init.registerConversation request.conversationId).closed = false
    unfold ConversationRouter.registerConversation
    split <;> rfl
  registered _ _ := by
    show ((ConversationRouter.init.registerConversation request.conversationId).queue _).isSome = true
    rw [ConversationRouter.queue_registerConversation, if_pos rfl]
    rfl
  forgets _ _ h := nomatch h

/-- Nobody is active after `tryMarkConsumed`. -/
theorem tryMarkConsumed_inactive {pending : PendingStatus} (h : pending.released = false) :
    pending.tryMarkConsumed.2.status ≠ .active := by
  unfold PendingStatus.tryMarkConsumed
  rw [if_neg (by rw [h]; nofun)]
  split
  · nofun
  · rename_i hinactive
    exact fun hactive => hinactive hactive

/-- What one section of a call does to the router and to the status. -/
structure Keeps (request : PendingRpcRequest) (shared after : PendingShared) (stage : CallStage)
    (next : CallNext) : Prop where
  closed : after.router.closed = shared.router.closed
  active : after.pending.status = .active →
    shared.pending.status = .active ∧ ∀ envelope, stage ≠ .marks envelope
  registered : (∀ envelope, next ≠ .goesOn (.marks envelope)) → stage ≠ .forgets →
    (after.router.queue request.conversationId).isSome
      = (shared.router.queue request.conversationId).isSome
  forgets : next = .goesOn .forgets → after.pending.status ≠ .active

theorem Sections.keeps {shared after : PendingShared} {call : PendingCall} {stage : CallStage}
    {next : CallNext} {canceled : Bool} (hstage : ∀ envelope, stage ≠ .marks envelope)
    (h : request.Sections shared call stage next after canceled) :
    request.Keeps shared after stage next := by
  cases h with
  | take htake =>
      obtain ⟨hregistered, hclosed⟩ := @ConversationRouter.registered_take _ _
        request.conversationId _ _ _ htake
      exact ⟨hclosed, fun hactive => ⟨hactive, hstage⟩, fun _ _ => hregistered, nofun⟩
  | cancel => exact ⟨rfl, nofun, fun _ _ => rfl, fun _ => nofun⟩
  | unregister =>
      exact ⟨ConversationRouter.closed_unregisterConversation .., fun hactive => ⟨hactive, hstage⟩,
        fun hnext _ => absurd rfl (hnext _), nofun⟩
  | forget =>
      exact ⟨ConversationRouter.closed_unregisterConversation .., fun hactive => ⟨hactive, hstage⟩,
        fun _ hstage => absurd rfl hstage, nofun⟩
  | consume => exact absurd rfl (hstage _)
  | _ => exact ⟨rfl, fun hactive => ⟨hactive, hstage⟩, fun _ _ => rfl, nofun⟩

theorem keeps_runSection {shared after : PendingShared} {call : PendingCall} {stage : CallStage}
    {next : CallNext} {canceled : Bool} (hreleased : shared.pending.released = false)
    (h : request.runSection shared call stage = some (next, after, canceled)) :
    request.Keeps shared after stage next := by
  by_cases hmarks : ∃ envelope, stage = .marks envelope
  · obtain ⟨envelope, rfl⟩ := hmarks
    obtain ⟨rfl, rfl, rfl⟩ : _ = next ∧ _ = after ∧ false = canceled := by
      simpa [runSection] using h
    exact ⟨rfl, fun hactive => absurd hactive (tryMarkConsumed_inactive hreleased),
      fun _ _ => rfl, nofun⟩
  · exact (sections_of_runSection h).keeps fun envelope heq => hmarks ⟨envelope, heq⟩

/-- A call begins. -/
theorem Held.call (h : request.Held s) {t : Nat} {thread : PendingThread}
    (hnone : s.threads t = none) (hbegins : thread.stage = .begins)
    (hsound : PendingState.Sound request
      { s with threads := Function.update s.threads t (some thread) }) :
    request.Held { s with threads := Function.update s.threads t (some thread) } := by
  refine ⟨hsound, h.isOpen, fun hactive hmarking => h.registered hactive ?_, ?_⟩
  · rintro ⟨u, other, envelope, hu, hstage⟩
    have hne : u ≠ t := by
      rintro rfl
      rw [hnone] at hu
      cases hu
    exact hmarking ⟨u, other, envelope, (Function.update_of_ne hne ..).trans hu, hstage⟩
  · intro u other hu hstage
    rcases update_eq_some hu with ⟨-, heq⟩ | ⟨-, hu⟩
    · obtain rfl := Option.some.inj heq
      rw [hbegins] at hstage
      cases hstage
    · exact h.forgets u other hu hstage

/-- A section of the call of `t` is over. The log does not matter; `stage` is where the call stands
then, and it is about to mark the request, or to forget it, only if the section says so. -/
theorem Held.section (h : request.Held s) {t : Nat} {thread : PendingThread} {after : PendingShared}
    {next : CallNext} {stage : Option PendingThread} (ht : s.threads t = some thread)
    (hkeeps : request.Keeps s.toPendingShared after thread.stage next) (hsound : s'.Sound request)
    (hshared : s'.toPendingShared = after) (hthreads : s'.threads = Function.update s.threads t stage)
    (hmarks : ∀ envelope, next = .goesOn (.marks envelope) →
      ∃ thread', stage = some thread' ∧ thread'.stage = .marks envelope)
    (hforgets : ∀ thread', stage = some thread' → thread'.stage = .forgets → next = .goesOn .forgets) :
    request.Held s' := by
  subst hshared
  have hothers : ∀ u, u ≠ t → s'.threads u = s.threads u := by
    intro u hu
    rw [hthreads, Function.update_of_ne hu]
  have hself : s'.threads t = stage := by rw [hthreads, Function.update_self]
  refine ⟨hsound, hkeeps.closed.trans h.isOpen, fun hstatus hmarking => ?_,
    fun u other hu hstage hstatus => ?_⟩
  · obtain ⟨hbefore, hstage⟩ := hkeeps.active hstatus
    rw [hkeeps.registered ?_ ?_]
    · refine h.registered hbefore ?_
      rintro ⟨u, other, envelope, hu, hother⟩
      rcases eq_or_ne u t with rfl | hne
      · rw [ht] at hu
        cases hu
        exact hstage envelope hother
      · exact hmarking ⟨u, other, envelope, (hothers u hne).trans hu, hother⟩
    · intro envelope hnext
      obtain ⟨thread', hthread', hstage'⟩ := hmarks envelope hnext
      exact hmarking ⟨t, thread', envelope, hself.trans hthread', hstage'⟩
    · intro hforgetting
      exact h.forgets t thread ht hforgetting hbefore
  · rcases eq_or_ne u t with rfl | hne
    · exact hkeeps.forgets (hforgets other (hself.symm.trans hu) hstage) hstatus
    · exact h.forgets u other ((hothers u hne).symm.trans hu) hstage (hkeeps.active hstatus).1

theorem Held.step {m : PendingMove} (h : request.Held s) (hm : request.Undisturbed s m)
    (hstep : request.step m s = some s') : request.Held s' := by
  have hsound := h.sound.step hstep
  cases m with
  | call t call =>
      simp only [PendingRpcRequest.step] at hstep
      split at hstep
      · rename_i hnone
        obtain rfl := Option.some.inj hstep
        exact h.call hnone rfl hsound
      · cases hstep
  | go t =>
      simp only [PendingRpcRequest.step, Option.bind_eq_bind, Option.bind_eq_some_iff] at hstep
      obtain ⟨thread, ht, ⟨next, after, canceled⟩, hsection, hstep⟩ := hstep
      have hkeeps := keeps_runSection h.sound.shared.released hsection
      cases next with
      | goesOn stage =>
          obtain rfl := Option.some.inj hstep
          refine h.section ht hkeeps hsound rfl rfl ?_ ?_
          · intro envelope hnext
            cases hnext
            exact ⟨_, rfl, rfl⟩
          · rintro thread' heq hstage
            obtain rfl := Option.some.inj heq
            exact congrArg _ hstage
      | returns result =>
          obtain rfl := Option.some.inj hstep
          refine h.section ht hkeeps hsound rfl rfl ?_ ?_
          · intro envelope hnext
            cases hnext
          · intro thread' heq
            cases heq
  | outside o =>
      simp only [PendingRpcRequest.step, Option.bind_eq_bind, Option.bind_eq_some_iff] at hstep
      obtain ⟨⟨router, pushed⟩, houtside, hstep⟩ := hstep
      obtain rfl := Option.some.inj hstep
      obtain ⟨hforeign, ho⟩ := hm
      refine ⟨hsound, (ConversationRouter.closed_outside ho houtside).trans h.isOpen,
        fun hactive hmarking => ?_, h.forgets⟩
      rw [ConversationRouter.registered_outside h.sound.shared.distinct hforeign houtside]
      exact h.registered hactive hmarking

end PendingRpcRequest

namespace StreamHandle

/-- Nobody closes the router. -/
def Undisturbed (_ : StreamState) : StreamMove → Prop
  | .outside o => o ≠ .close
  | _ => True

variable {stream : StreamHandle}

/-- No section of a call closes the router. -/
theorem closed_runSection {shared after : StreamShared} {call : StreamCall} {stage : StreamStage}
    {next : StreamNext} (h : stream.runSection shared call stage = some (next, after)) :
    after.router.closed = shared.router.closed := by
  cases stage with
  | begins =>
      obtain ⟨rfl, rfl⟩ : (stream.beginCall shared call).1 = next ∧
          (stream.beginCall shared call).2 = after := Prod.mk.inj (Option.some.inj h)
      unfold beginCall
      split
      · split <;> rfl
      · dsimp only
        split <;> rfl
  | asks =>
      change stream.askRouter shared call = some (next, after) at h
      unfold askRouter at h
      split at h
      · rename_i htake
        cases h
        exact (@ConversationRouter.registered_take _ _ stream.conversationId _ _ _ htake).2
      · split at h
        · cases h
          rfl
        · split at h
          · cases h
            rfl
          · cases h
      · cases h
        rfl
      · split at h <;> cases h <;> rfl
  | consumes envelope =>
      cases h
      rfl
  | releases =>
      cases h
      rfl
  | _ =>
      cases h
      exact ConversationRouter.closed_unregisterConversation ..

theorem isOpen_step {s s' : StreamState} {m : StreamMove} (hopen : s.router.closed = false)
    (hm : Undisturbed s m) (hstep : stream.step m s = some s') : s'.router.closed = false := by
  cases m with
  | call call =>
      simp only [step] at hstep
      split at hstep
      · obtain rfl := Option.some.inj hstep
        exact hopen
      · cases hstep
  | go =>
      simp only [step, Option.bind_eq_bind, Option.bind_eq_some_iff] at hstep
      obtain ⟨⟨call, stage⟩, -, ⟨next, after⟩, hsection, hstep⟩ := hstep
      have hclosed := (closed_runSection hsection).trans hopen
      cases next with
      | goesOn stage =>
          obtain rfl := Option.some.inj hstep
          exact hclosed
      | returns reply =>
          obtain rfl := Option.some.inj hstep
          exact hclosed
  | outside o =>
      simp only [step] at hstep
      split at hstep
      · obtain ⟨⟨router, pushed⟩, houtside, rfl⟩ := Option.map_eq_some_iff.mp hstep
        exact (ConversationRouter.closed_outside hm houtside).trans hopen
      · cases hstep

end StreamHandle

/-- In every state, the polls of the router, of a request and of a stream agree with the waits exactly
when nothing is stranded. So they do in every state of a run in which nobody closes the router and,
for a request, nobody else touches its conversation and no call is about to mark it consumed. -/
theorem polls_agree_iff (request : PendingRpcRequest) (stream : StreamHandle) :
    (∀ st conversationId requestId, ConversationRouter.PollsAgree st conversationId requestId ↔
      ¬ st.router.Stranded conversationId requestId) ∧
    (∀ s, request.PollsAgree s ↔ ¬ request.Stranded s) ∧
    (∀ s, stream.PollsAgree s ↔ ¬ stream.Stranded s) ∧
    (∀ s, Runs request.step request.Undisturbed request.start s →
      ¬ PendingRpcRequest.IsMarking s → request.PollsAgree s.toPendingShared) ∧
    ∀ s, Runs stream.step StreamHandle.Undisturbed stream.start s →
      stream.PollsAgree s.toStreamShared := by
  refine ⟨ConversationRouter.pollsAgree_iff, fun s => PendingRpcRequest.pollsAgree_iff,
    fun s => StreamHandle.pollsAgree_iff, fun s hs hmarking => ?_, fun s hs => ?_⟩
  · have hheld : request.Held s :=
      hs.invariant (PendingRpcRequest.held_start request) fun _ _ _ h hm hstep => h.step hm hstep
    rw [PendingRpcRequest.pollsAgree_iff]
    rintro ⟨hactive, hgone | ⟨-, -, -, hclosed⟩⟩
    · rw [hheld.sound.shared.currentStatus] at hactive
      have hregistered := hheld.registered hactive hmarking
      rw [hgone] at hregistered
      cases hregistered
    · rw [hheld.isOpen] at hclosed
      cases hclosed
  · have hopen : s.router.closed = false := by
      refine hs.invariant (I := fun s => s.router.closed = false) ?_
        fun _ _ _ h hm hstep => StreamHandle.isOpen_step h hm hstep
      show (ConversationRouter.init.registerConversation stream.conversationId).closed = false
      unfold ConversationRouter.registerConversation
      split <;> rfl
    rw [StreamHandle.pollsAgree_iff]
    rintro ⟨-, -, -, -, hclosed⟩
    rw [hopen] at hclosed
    cases hclosed

/-- A run in which the router is closed while a request waits: the poll says that it is pending, and a
wait returns `error.EndOfStream`. -/
theorem poll_pending_on_closed_router : ¬ ∀ (request : PendingRpcRequest) (s : PendingState),
    Runs request.step unrestricted request.start s → request.PollsAgree s.toPendingShared := by
  intro h
  obtain ⟨s, hs, htest⟩ := Runs.exists_of_follow (PendingRpcRequest.step ⟨0, ascii "c-1", 1⟩)
    unrestricted (PendingRpcRequest.start ⟨0, ascii "c-1", 1⟩) [.outside .close]
    (fun s => decide (s.pending.currentStatus = .active) && s.router.closed &&
      (s.router.queue (ascii "c-1")).any List.isEmpty) (by decide +kernel)
  simp only [Bool.and_eq_true, decide_eq_true_eq, Option.any_eq_true] at htest
  obtain ⟨⟨hactive, hclosed⟩, envelopes, hqueue, hempty⟩ := htest
  obtain rfl := List.isEmpty_iff.mp hempty
  refine PendingRpcRequest.pollsAgree_iff.mp (h ⟨0, ascii "c-1", 1⟩ s hs) ⟨hactive, .inr ?_⟩
  exact ⟨[], hqueue, rfl, hclosed⟩

end Muxly.Client
