/-
# Muxly.Client.PendingRequest -- the calls on one pending request, and what they return

The threads of this module call `poll`, `wait` and `cancel` on one `PendingRpcRequest`. Between two
sections of a call, one on the status and one on the router, the other threads may run, and so may
whoever else uses the router.

A run keeps a log of what was pushed, of the cancellation, and of what the calls returned. The claims
about the request are claims about that log.
-/
import Muxly.Client.Router
import Muxly.Sync.Transitions

namespace Muxly.Client

open Muxly.Core Muxly.Daemon Muxly.Sync

/-! ## Calls -/

/-- The functions that a thread calls. -/
inductive PendingCall where
  | poll
  | wait
  | cancel
  deriving DecidableEq

/-- What a call returns. -/
inductive CallResult where
  /-- `.pending` of `poll`. -/
  | pending
  | payload (payload : JsonValue)
  /-- `.canceled` of `poll`, `error.RequestCanceled` of `wait`. -/
  | canceled
  | requestResultConsumed
  | invalidPendingRequest
  | requestFailed
  | routerError (error : RouterError)
  /-- `cancel` returns nothing. -/
  | done

/-- Where a call stands between two sections. -/
inductive CallStage where
  | begins
  /-- At `takeEnvelope` or `waitForEnvelope`. -/
  | asks
  /-- At the second `currentStatus`, with the error of the router. -/
  | rereads (error : RouterError)
  /-- In `consumeEnvelope`, at `unregisterConversation`. -/
  | unregisters (envelope : OwnedEnvelope)
  /-- In `consumeEnvelope`, at `tryMarkConsumed`. -/
  | marks (envelope : OwnedEnvelope)
  /-- In `cancel`, at `unregisterConversation`. -/
  | forgets

/-- The envelope that a call has taken. -/
def CallStage.envelope : CallStage → Option OwnedEnvelope
  | .unregisters envelope | .marks envelope => some envelope
  | _ => none

/-- What a section leads to. -/
inductive CallNext where
  | goesOn (stage : CallStage)
  | returns (result : CallResult)

/-- What is observed of a run. `began` is the length of the log when the call began. -/
inductive PendingEvent where
  | pushed (envelope : OwnedEnvelope)
  /-- `setCanceled` had an effect. -/
  | canceled
  | returned (call : PendingCall) (began : Nat) (result : CallResult)

namespace PendingEvent

/-- The payload that a call returned. -/
def payload : PendingEvent → Option JsonValue
  | .returned _ _ (.payload payload) => some payload
  | _ => none

/-- A call consumed the result: it returned the payload, or that the request failed. -/
def Consumes : PendingEvent → Prop
  | .returned _ _ (.payload _) | .returned _ _ .requestFailed => True
  | _ => False

theorem payload_eq_none {event : PendingEvent} (h : ¬ event.Consumes) : event.payload = none := by
  unfold payload
  split
  · exact absurd trivial h
  · rfl

end PendingEvent

/-- What the threads share. -/
structure PendingShared where
  router : ConversationRouter
  pending : PendingStatus

/-- A thread in a call. -/
structure PendingThread where
  call : PendingCall
  began : Nat
  stage : CallStage

/-- The router, the status of the request, the threads in a call, and the log. -/
structure PendingState extends PendingShared where
  threads : Nat → Option PendingThread
  log : List PendingEvent

/-- A step. -/
inductive PendingMove where
  /-- A thread calls. -/
  | call (t : Nat) (call : PendingCall)
  /-- A thread runs its next section. -/
  | go (t : Nat)
  /-- Somebody else runs a section of the router. -/
  | outside (o : Section)

/-- What a call reports of a status that is not active. -/
def reported : PendingHandleStatus → CallResult → CallResult
  | .active, other => other
  | .canceled, _ => .canceled
  | .consumed, _ => .requestResultConsumed
  | .released, _ => .invalidPendingRequest

namespace PendingRpcRequest

variable (request : PendingRpcRequest)

/-- The next section of a call; `none` where it waits. The last part says whether the call has
canceled the request. -/
def runSection (s : PendingShared) :
    PendingCall → CallStage → Option (CallNext × PendingShared × Bool)
  | .cancel, .begins =>
    let (canceled, pending) := s.pending.setCanceled
    if canceled then some (.goesOn .forgets, { s with pending := pending }, true)
    else some (.returns .done, s, false)
  | _, .begins =>
    match s.pending.currentStatus with
    | .active => some (.goesOn .asks, s, false)
    | status => some (.returns (reported status .done), s, false)
  | call, .asks =>
    match s.router.takeEnvelopeLocked request.conversationId (some request.requestId) with
    | .ok (envelope, router) =>
      some (.goesOn (.unregisters envelope), { s with router := router }, false)
    | .error .conversationResponseNotFound =>
      if call = .poll then some (.returns .pending, s, false)
      else if s.router.closed then some (.goesOn (.rereads .endOfStream), s, false)
      else none
    | .error error =>
      if call = .poll ∧ error ≠ .unknownConversation then
        some (.returns (.routerError error), s, false)
      else some (.goesOn (.rereads error), s, false)
  | call, .rereads error =>
    let active := if call = .poll then .pending else .routerError error
    some (.returns (reported s.pending.currentStatus active), s, false)
  | _, .unregisters envelope =>
    some (.goesOn (.marks envelope),
      { s with router := s.router.unregisterConversation request.conversationId }, false)
  | _, .marks envelope =>
    let (status, pending) := s.pending.tryMarkConsumed
    let active :=
      if envelope.conversationError.isSome then .requestFailed else .payload envelope.payload
    some (.returns (reported status active), { s with pending := pending }, false)
  | _, .forgets =>
    some (.returns .done,
      { s with router := s.router.unregisterConversation request.conversationId }, false)

/-- A section of the router that somebody else runs, and the envelope it pushed. -/
def outside (router : ConversationRouter) :
    Section → Option (ConversationRouter × Option OwnedEnvelope)
  | .registerConversation conversationId => some (router.registerConversation conversationId, none)
  | .unregisterConversation conversationId =>
    some (router.unregisterConversation conversationId, none)
  | .pushEnvelope envelope =>
    (router.pushEnvelope envelope).map fun router => (router, some envelope)
  | .takeEnvelope conversationId requestId | .waitForEnvelope conversationId requestId =>
    match router.takeEnvelopeLocked conversationId requestId with
    | .ok (_, router) => some (router, none)
    | .error _ => some (router, none)
  | .close => some (router.close, none)
  | _ => none

/-- The request as `startRequest` leaves it: its conversation is registered, nothing is pushed. -/
def start : PendingState where
  router := ConversationRouter.init.registerConversation request.conversationId
  pending := ⟨.active, false⟩
  threads := fun _ => none
  log := []

/-- One step. -/
def step : PendingMove → PendingState → Option PendingState
  | .call t call, s =>
    match s.threads t with
    | none => some { s with
        threads := Function.update s.threads t (some ⟨call, s.log.length, .begins⟩) }
    | some _ => none
  | .go t, s => do
    let thread ← s.threads t
    let (next, shared, canceled) ← request.runSection s.toPendingShared thread.call thread.stage
    match next with
    | .goesOn stage => return { s with
        toPendingShared := shared
        threads := Function.update s.threads t (some { thread with stage := stage })
        log := s.log ++ if canceled then [.canceled] else [] }
    | .returns result => return { s with
        toPendingShared := shared
        threads := Function.update s.threads t none
        log := s.log ++ [.returned thread.call thread.began result] }
  | .outside o, s => do
    let (router, pushed) ← outside s.router o
    return { s with
      router := router
      log := s.log ++ (pushed.map .pushed).toList }

/-- What the section of a call can do, with what it found. -/
inductive Sections (s : PendingShared) :
    PendingCall → CallStage → CallNext → PendingShared → Bool → Prop
  | cancel (hreleased : s.pending.released = false) (hactive : s.pending.status = .active) :
      Sections s .cancel .begins (.goesOn .forgets)
        { s with pending := { s.pending with status := .canceled } } true
  | cancelLate : Sections s .cancel .begins (.returns .done) s false
  | ask {call : PendingCall} (hactive : s.pending.currentStatus = .active) :
      Sections s call .begins (.goesOn .asks) s false
  | refuse {call : PendingCall} (hinactive : s.pending.currentStatus ≠ .active) :
      Sections s call .begins (.returns (reported s.pending.currentStatus .done)) s false
  | take {call : PendingCall} {envelope : OwnedEnvelope} {router : ConversationRouter}
      (htake : s.router.takeEnvelopeLocked request.conversationId (some request.requestId) =
        .ok (envelope, router)) :
      Sections s call .asks (.goesOn (.unregisters envelope)) { s with router := router } false
  | reread {call : PendingCall} {error : RouterError} :
      Sections s call .asks (.goesOn (.rereads error)) s false
  | report {call : PendingCall} {stage : CallStage} {result : CallResult} (hstage : stage ≠ .begins)
      (hresult : ∀ began, ¬ (PendingEvent.returned call began result).Consumes) :
      Sections s call stage (.returns result) s false
  | unregister {call : PendingCall} {envelope : OwnedEnvelope} :
      Sections s call (.unregisters envelope) (.goesOn (.marks envelope))
        { s with router := s.router.unregisterConversation request.conversationId } false
  | consume {call : PendingCall} {envelope : OwnedEnvelope} (hreleased : s.pending.released = false)
      (hactive : s.pending.status = .active) :
      Sections s call (.marks envelope)
        (.returns (if envelope.conversationError.isSome then .requestFailed
          else .payload envelope.payload))
        { s with pending := { s.pending with status := .consumed } } false
  | forget {call : PendingCall} : Sections s call .forgets (.returns .done)
      { s with router := s.router.unregisterConversation request.conversationId } false

variable {request}

/-- What a status other than active makes a call report. -/
theorem not_consumes_reported {status : PendingHandleStatus} (hne : status ≠ .active)
    (call : PendingCall) (began : Nat) (other : CallResult) :
    ¬ (PendingEvent.returned call began (reported status other)).Consumes := by
  cases status with
  | active => exact absurd rfl hne
  | _ => exact id

theorem setCanceled_cases (pending : PendingStatus) :
    (pending.released = false ∧ pending.status = .active ∧
      pending.setCanceled = (true, { pending with status := .canceled })) ∨
    pending.setCanceled = (false, pending) := by
  unfold PendingStatus.setCanceled
  split
  · exact .inr rfl
  · rename_i hactive
    simp only [Bool.or_eq_true, decide_eq_true_eq, not_or, not_not, Bool.not_eq_true] at hactive
    exact .inl ⟨hactive.1, hactive.2, rfl⟩

theorem tryMarkConsumed_cases (pending : PendingStatus) :
    (pending.released = false ∧ pending.status = .active ∧
      pending.tryMarkConsumed = (.active, { pending with status := .consumed })) ∨
    ∃ status, status ≠ .active ∧ pending.tryMarkConsumed = (status, pending) := by
  unfold PendingStatus.tryMarkConsumed
  split
  · exact .inr ⟨.released, nofun, rfl⟩
  · rename_i hreleased
    split
    · rename_i hactive
      exact .inl ⟨Bool.eq_false_iff.mpr hreleased, hactive, rfl⟩
    · rename_i hinactive
      exact .inr ⟨_, hinactive, rfl⟩

theorem sections_of_runSection {s s' : PendingShared} {call : PendingCall} {stage : CallStage}
    {next : CallNext} {canceled : Bool}
    (h : request.runSection s call stage = some (next, s', canceled)) :
    request.Sections s call stage next s' canceled := by
  unfold runSection at h
  split at h
  · -- `cancel` begins
    rcases setCanceled_cases s.pending with ⟨hreleased, hactive, heq⟩ | heq
    · rw [heq] at h
      cases h
      exact .cancel hreleased hactive
    · rw [heq] at h
      cases h
      exact .cancelLate
  · -- `poll` and `wait` begin
    by_cases hactive : s.pending.currentStatus = .active
    · rw [hactive] at h
      cases h
      exact .ask hactive
    · have hrefuse := @Sections.refuse request s call hactive
      cases hstatus : s.pending.currentStatus with
      | active => exact absurd hstatus hactive
      | _ =>
          rw [hstatus] at h hrefuse
          cases h
          exact hrefuse
  · split at h
    · rename_i envelope router htake
      cases h
      exact .take htake
    · split at h
      · cases h
        exact .report nofun fun _ => id
      · split at h
        · cases h
          exact .reread
        · cases h
    · split at h
      · cases h
        exact .report nofun fun _ => id
      · cases h
        exact .reread
  · rename_i error
    cases h
    refine .report nofun fun began => ?_
    by_cases hactive : s.pending.currentStatus = .active
    · rw [hactive]
      show ¬ (PendingEvent.returned call began
        (if call = .poll then .pending else .routerError error)).Consumes
      split <;> exact id
    · exact not_consumes_reported hactive call began _
  · cases h
    exact .unregister
  · rename_i envelope
    rcases tryMarkConsumed_cases s.pending with ⟨hreleased, hactive, heq⟩ | ⟨status, hinactive, heq⟩
    · rw [heq] at h
      cases h
      exact .consume hreleased hactive
    · rw [heq] at h
      cases h
      exact .report nofun fun began => not_consumes_reported hinactive call began _
  · cases h
    exact .forget

end PendingRpcRequest

/-! ## The log -/

/-- The envelope was pushed for the request. -/
def Answers (request : PendingRpcRequest) (log : List PendingEvent) (envelope : OwnedEnvelope) : Prop :=
  .pushed envelope ∈ log ∧ envelope.conversationId = request.conversationId ∧
    envelope.requestId = some request.requestId

/-- Before a call began, the result was consumed. -/
def ConsumedBy (log : List PendingEvent) (began : Nat) : Prop :=
  ∃ event ∈ log.take began, event.Consumes

/-- Before a call began, the request was canceled. -/
def CanceledBy (log : List PendingEvent) (began : Nat) : Prop :=
  PendingEvent.canceled ∈ log.take began

/-- What a call that is not `cancel` may return, after what it came. -/
structure Late (log : List PendingEvent) (began : Nat) (result : CallResult) : Prop where
  began_le : began ≤ log.length
  consumed : ConsumedBy log began → result = .requestResultConsumed
  canceled : CanceledBy log began → result = .canceled

variable {request : PendingRpcRequest} {log : List PendingEvent}

theorem take_append_le {began : Nat} (h : began ≤ log.length) (events : List PendingEvent) :
    (log ++ events).take began = log.take began := List.take_append_of_le_length h

theorem Late.append {began : Nat} {result : CallResult} (h : Late log began result)
    (events : List PendingEvent) : Late (log ++ events) began result where
  began_le := by
    rw [List.length_append]
    exact Nat.le_add_right_of_le h.began_le
  consumed := by
    rw [ConsumedBy, take_append_le h.began_le]
    exact h.consumed
  canceled := by
    rw [CanceledBy, take_append_le h.began_le]
    exact h.canceled

theorem Answers.append {envelope : OwnedEnvelope} (h : Answers request log envelope)
    (events : List PendingEvent) : Answers request (log ++ events) envelope :=
  ⟨List.mem_append_left _ h.1, h.2⟩

/-- The log of a run, next to the status of the request. -/
structure Logged (request : PendingRpcRequest) (status : PendingHandleStatus)
    (log : List PendingEvent) : Prop where
  consumed : status = .consumed ↔ ∃ event ∈ log, event.Consumes
  canceled : status = .canceled ↔ .canceled ∈ log
  once : log.Pairwise fun first second =>
    first.Consumes ∨ first = .canceled → second.payload = none
  origin : ∀ event ∈ log, ∀ payload, event.payload = some payload → ∃ envelope,
    Answers request log envelope ∧ envelope.conversationError = none ∧ envelope.payload = payload
  late : ∀ call began result, .returned call began result ∈ log → call ≠ .cancel →
    Late log began result

namespace Logged

theorem nil : Logged request .active [] where
  consumed := by
    constructor
    · exact nofun
    · rintro ⟨event, hevent, -⟩
      cases hevent
  canceled := ⟨nofun, nofun⟩
  once := .nil
  origin _ h := nomatch h
  late _ _ _ h := nomatch h

/-- What was so before an event is so after it. -/
theorem late_append {status : PendingHandleStatus} (h : Logged request status log)
    {event : PendingEvent}
    (hevent : ∀ call began result, event = .returned call began result → call ≠ .cancel →
      Late log began result) :
    ∀ call began result, .returned call began result ∈ log ++ [event] → call ≠ .cancel →
      Late (log ++ [event]) began result := by
  intro call began result hmem hcall
  rcases List.mem_append.mp hmem with hmem | hmem
  · exact (h.late call began result hmem hcall).append _
  · exact (hevent call began result (List.mem_singleton.mp hmem).symm hcall).append _

theorem once_append {status : PendingHandleStatus} (h : Logged request status log)
    {event : PendingEvent}
    (hevent : event.payload = none ∨ ∀ first ∈ log, ¬ first.Consumes ∧ first ≠ .canceled) :
    (log ++ [event]).Pairwise fun first second =>
      first.Consumes ∨ first = .canceled → second.payload = none := by
  refine List.pairwise_append.mpr ⟨h.once, List.pairwise_singleton .., ?_⟩
  intro first hfirst last hlast hbefore
  obtain rfl := List.mem_singleton.mp hlast
  rcases hevent with hnone | hall
  · exact hnone
  · rcases hbefore with hconsumes | hcanceled
    · exact absurd hconsumes (hall first hfirst).1
    · exact absurd hcanceled (hall first hfirst).2

/-- An event that neither consumes nor cancels. -/
theorem append_quiet {status : PendingHandleStatus} (h : Logged request status log)
    {event : PendingEvent} (hconsumes : ¬ event.Consumes) (hcanceled : event ≠ .canceled)
    (hlate : ∀ call began result, event = .returned call began result → call ≠ .cancel →
      Late log began result) : Logged request status (log ++ [event]) where
  consumed := by
    rw [h.consumed]
    constructor
    · rintro ⟨other, hother, hc⟩
      exact ⟨other, List.mem_append_left _ hother, hc⟩
    · rintro ⟨other, hother, hc⟩
      rcases List.mem_append.mp hother with hother | hother
      · exact ⟨other, hother, hc⟩
      · exact absurd (List.mem_singleton.mp hother ▸ hc) hconsumes
  canceled := by
    rw [h.canceled, List.mem_append, List.mem_singleton]
    exact ⟨.inl, fun hor => hor.resolve_right hcanceled.symm⟩
  once := h.once_append (.inl (PendingEvent.payload_eq_none hconsumes))
  origin := by
    intro other hother payload hpayload
    rcases List.mem_append.mp hother with hother | hother
    · obtain ⟨envelope, hanswers, hrest⟩ := h.origin other hother payload hpayload
      exact ⟨envelope, hanswers.append _, hrest⟩
    · obtain rfl := List.mem_singleton.mp hother
      rw [PendingEvent.payload_eq_none hconsumes] at hpayload
      cases hpayload
  late := h.late_append hlate

theorem of_active (h : Logged request .active log) :
    ∀ event ∈ log, ¬ event.Consumes ∧ event ≠ .canceled := by
  intro event hevent
  constructor
  · intro hconsumes
    exact nomatch h.consumed.mpr ⟨event, hevent, hconsumes⟩
  · rintro rfl
    exact nomatch h.canceled.mpr hevent

/-- The call that marks the request consumed returns. -/
theorem append_consumes (h : Logged request .active log) {envelope : OwnedEnvelope}
    (hanswers : Answers request log envelope) {call : PendingCall} {began : Nat}
    (hbegan : began ≤ log.length) : Logged request .consumed (log ++ [.returned call began
      (if envelope.conversationError.isSome then .requestFailed
        else .payload envelope.payload)]) where
  consumed := by
    refine ⟨fun _ => ⟨_, List.mem_append_right _ (List.mem_singleton_self _), ?_⟩, fun _ => rfl⟩
    split <;> trivial
  canceled := by
    refine ⟨nofun, fun hmem => ?_⟩
    rcases List.mem_append.mp hmem with hmem | hmem
    · exact absurd rfl (h.of_active _ hmem).2
    · cases List.mem_singleton.mp hmem
  once := h.once_append (.inr h.of_active)
  origin := by
    intro other hother payload hpayload
    rcases List.mem_append.mp hother with hother | hother
    · obtain ⟨envelope, hanswers, hrest⟩ := h.origin other hother payload hpayload
      exact ⟨envelope, hanswers.append _, hrest⟩
    · obtain rfl := List.mem_singleton.mp hother
      refine ⟨envelope, hanswers.append _, ?_⟩
      split at hpayload
      · cases hpayload
      · rename_i hnone
        exact ⟨Option.not_isSome_iff_eq_none.mp hnone, Option.some.inj hpayload⟩
  late := by
    refine h.late_append ?_
    rintro call' began' result heq -
    cases heq
    refine ⟨hbegan, ?_, fun hmem => ?_⟩
    · rintro ⟨event, hevent, hconsumes⟩
      exact absurd hconsumes (h.of_active event (List.mem_of_mem_take hevent)).1
    · exact absurd rfl (h.of_active _ (List.mem_of_mem_take hmem)).2

/-- `cancel` takes effect. -/
theorem append_canceled (h : Logged request .active log) :
    Logged request .canceled (log ++ [.canceled]) where
  consumed := by
    refine ⟨nofun, ?_⟩
    rintro ⟨event, hevent, hconsumes⟩
    rcases List.mem_append.mp hevent with hevent | hevent
    · exact absurd hconsumes (h.of_active event hevent).1
    · obtain rfl := List.mem_singleton.mp hevent
      exact hconsumes.elim
  canceled := ⟨fun _ => List.mem_append_right _ (List.mem_singleton_self _), fun _ => rfl⟩
  once := h.once_append (.inl rfl)
  origin := by
    intro other hother payload hpayload
    rcases List.mem_append.mp hother with hother | hother
    · obtain ⟨envelope, hanswers, hrest⟩ := h.origin other hother payload hpayload
      exact ⟨envelope, hanswers.append _, hrest⟩
    · obtain rfl := List.mem_singleton.mp hother
      cases hpayload
  late := h.late_append nofun

end Logged

/-! ## The mailbox -/

namespace ConversationRouter

variable {router router' : ConversationRouter}

/-- The envelopes that wait in the mailbox of a conversation. -/
def waiting (router : ConversationRouter) (conversationId : Bytes) : List OwnedEnvelope :=
  (router.queue conversationId).getD []

theorem waiting_take {conversationId : Bytes} {requestId : Option UInt64} {envelope : OwnedEnvelope}
    (h : router.takeEnvelopeLocked conversationId requestId = .ok (envelope, router')) :
    (envelope ∈ router.waiting conversationId ∧ envelope.requestId = requestId) ∧
      ∀ other, router'.waiting other ⊆ router.waiting other := by
  rcases router.takeEnvelopeLocked_cases conversationId requestId with ⟨-, herror⟩ |
    ⟨_, -, -, herror⟩ | ⟨envelopes, taken, router₁, hqueue, hfind, htake, -, -, hother⟩
  · rw [herror] at h
    cases h
  · rw [herror] at h
    cases h
  · rw [htake] at h
    cases h
    refine ⟨⟨?_, by simpa using List.find?_some hfind⟩, fun other => ?_⟩
    · rw [waiting, hqueue]
      exact List.mem_of_find?_eq_some hfind
    · rw [waiting, waiting, hother]
      split
      · rename_i heq
        rw [heq, hqueue]
        exact List.eraseP_subset
      · exact List.Subset.refl _

theorem distinct_take {conversationId : Bytes} {requestId : Option UInt64} {envelope : OwnedEnvelope}
    (hdistinct : router.Distinct)
    (h : router.takeEnvelopeLocked conversationId requestId = .ok (envelope, router')) :
    router'.Distinct := by
  rcases router.takeEnvelopeLocked_cases conversationId requestId with ⟨-, herror⟩ |
    ⟨_, -, -, herror⟩ | ⟨_, _, _, -, -, htake, -, hids, -⟩
  · rw [herror] at h
    cases h
  · rw [herror] at h
    cases h
  · rw [htake] at h
    cases h
    rw [Distinct, hids]
    exact hdistinct

theorem waiting_unregister (hdistinct : router.Distinct) (conversationId other : Bytes) :
    (router.unregisterConversation conversationId).waiting other ⊆ router.waiting other := by
  rw [waiting, queue_unregisterConversation hdistinct]
  split
  · exact List.nil_subset _
  · exact List.Subset.refl _

theorem waiting_register (conversationId other : Bytes) :
    (router.registerConversation conversationId).waiting other = router.waiting other := by
  rw [waiting, queue_registerConversation]
  split
  · rename_i heq
    rw [heq]
    rfl
  · rfl

theorem waiting_push {envelope : OwnedEnvelope} (h : router.pushEnvelope envelope = some router')
    {conversationId : Bytes} {other : OwnedEnvelope} (hmem : other ∈ router'.waiting conversationId) :
    other ∈ router.waiting conversationId ∨
      envelope = other ∧ other.conversationId = conversationId := by
  rw [waiting, queue_pushEnvelope h] at hmem
  split at hmem
  · rename_i heq
    cases hqueue : router.queue conversationId with
    | none =>
        rw [hqueue] at hmem
        cases hmem
    | some envelopes =>
        rw [hqueue, Option.map_some, Option.getD_some] at hmem
        rcases List.mem_append.mp hmem with hmem | hmem
        · left
          rw [waiting, hqueue]
          exact hmem
        · obtain rfl := List.mem_singleton.mp hmem
          exact .inr ⟨rfl, heq.symm⟩
  · exact .inl hmem

/-- What a section that somebody else runs makes of the router. -/
theorem outside_cases {o : Section} {pushed : Option OwnedEnvelope}
    (h : PendingRpcRequest.outside router o = some (router', pushed)) :
    (∃ id, o = .registerConversation id ∧ router' = router.registerConversation id) ∨
      (∃ id, o = .unregisterConversation id ∧ router' = router.unregisterConversation id) ∨
      (∃ envelope, pushed = some envelope ∧ router.pushEnvelope envelope = some router') ∨
      (∃ id requestId envelope, router.takeEnvelopeLocked id requestId = .ok (envelope, router')) ∨
      router' = router ∨ o = .close ∧ router' = router.close := by
  cases o with
  | registerConversation id =>
      cases h
      exact .inl ⟨id, rfl, rfl⟩
  | unregisterConversation id =>
      cases h
      exact .inr (.inl ⟨id, rfl, rfl⟩)
  | pushEnvelope envelope =>
      obtain ⟨router₁, hpush, heq⟩ := Option.map_eq_some_iff.mp h
      cases heq
      exact .inr (.inr (.inl ⟨envelope, rfl, hpush⟩))
  | takeEnvelope id requestId | waitForEnvelope id requestId =>
      simp only [PendingRpcRequest.outside] at h
      split at h
      · rename_i htake
        cases h
        exact .inr (.inr (.inr (.inl ⟨id, requestId, _, htake⟩)))
      · cases h
        exact .inr (.inr (.inr (.inr (.inl rfl))))
  | close =>
      cases h
      exact .inr (.inr (.inr (.inr (.inr ⟨rfl, rfl⟩))))
  | _ => cases h

/-- What somebody else does with the router adds to a mailbox what is pushed only. -/
theorem waiting_outside {o : Section} {pushed : Option OwnedEnvelope} (hdistinct : router.Distinct)
    (h : PendingRpcRequest.outside router o = some (router', pushed)) :
    router'.Distinct ∧ ∀ conversationId, ∀ envelope ∈ router'.waiting conversationId,
      envelope ∈ router.waiting conversationId ∨
        pushed = some envelope ∧ envelope.conversationId = conversationId := by
  rcases outside_cases h with ⟨id, -, rfl⟩ | ⟨id, -, rfl⟩ | ⟨envelope, rfl, hpush⟩ |
    ⟨id, requestId, envelope, htake⟩ | rfl | ⟨-, rfl⟩
  · refine ⟨hdistinct.registerConversation id, fun conversationId envelope hmem => .inl ?_⟩
    rw [waiting_register] at hmem
    exact hmem
  · exact ⟨hdistinct.unregisterConversation id,
      fun conversationId envelope hmem => .inl (waiting_unregister hdistinct id _ hmem)⟩
  · refine ⟨hdistinct.pushEnvelope hpush, fun conversationId other hmem => ?_⟩
    rcases waiting_push hpush hmem with hmem | ⟨rfl, hid⟩
    · exact .inl hmem
    · exact .inr ⟨rfl, hid⟩
  · exact ⟨distinct_take hdistinct htake,
      fun conversationId envelope hmem => .inl ((waiting_take htake).2 conversationId hmem)⟩
  · exact ⟨hdistinct, fun _ _ hmem => .inl hmem⟩
  · exact ⟨hdistinct, fun _ _ hmem => .inl hmem⟩

end ConversationRouter

/-! ## Runs -/

/-- What holds of a thread in a call. -/
structure PendingThread.Sound (request : PendingRpcRequest) (log : List PendingEvent)
    (thread : PendingThread) : Prop where
  began_le : thread.began ≤ log.length
  fresh : thread.stage ≠ .begins → thread.call ≠ .cancel →
    ¬ ConsumedBy log thread.began ∧ ¬ CanceledBy log thread.began
  answers : ∀ envelope, thread.stage.envelope = some envelope → Answers request log envelope

/-- A call that has taken no envelope. -/
theorem answers_of_none {stage : CallStage} (h : stage.envelope = none) (envelope : OwnedEnvelope)
    (henvelope : stage.envelope = some envelope) : Answers request log envelope := by
  rw [h] at henvelope
  cases henvelope

theorem PendingThread.Sound.append {thread : PendingThread} (h : thread.Sound request log)
    (events : List PendingEvent) : thread.Sound request (log ++ events) where
  began_le := by
    rw [List.length_append]
    exact Nat.le_add_right_of_le h.began_le
  fresh hstage hcall := by
    rw [ConsumedBy, CanceledBy, take_append_le h.began_le]
    exact h.fresh hstage hcall
  answers envelope henvelope := (h.answers envelope henvelope).append events

/-- A call that has begun to ask returns what is not too late. -/
theorem PendingThread.Sound.late {thread : PendingThread} (h : thread.Sound request log)
    (hstage : thread.stage ≠ .begins) (hcall : thread.call ≠ .cancel) (result : CallResult) :
    Late log thread.began result where
  began_le := h.began_le
  consumed hconsumed := absurd hconsumed (h.fresh hstage hcall).1
  canceled hcanceled := absurd hcanceled (h.fresh hstage hcall).2

/-- What holds of what the threads share. -/
structure PendingShared.Sound (request : PendingRpcRequest) (log : List PendingEvent)
    (s : PendingShared) : Prop where
  released : s.pending.released = false
  distinct : s.router.Distinct
  queued : ∀ envelope ∈ s.router.waiting request.conversationId,
    .pushed envelope ∈ log ∧ envelope.conversationId = request.conversationId

theorem PendingShared.Sound.append {s : PendingShared} (h : s.Sound request log)
    (events : List PendingEvent) : s.Sound request (log ++ events) where
  released := h.released
  distinct := h.distinct
  queued envelope hmem := ⟨List.mem_append_left _ (h.queued envelope hmem).1,
    (h.queued envelope hmem).2⟩

theorem PendingShared.Sound.unregister {s : PendingShared} (h : s.Sound request log) :
    PendingShared.Sound request log
      { s with router := s.router.unregisterConversation request.conversationId } where
  released := h.released
  distinct := h.distinct.unregisterConversation _
  queued envelope hmem :=
    h.queued envelope (ConversationRouter.waiting_unregister h.distinct _ _ hmem)

theorem PendingShared.Sound.currentStatus {s : PendingShared} (h : s.Sound request log) :
    s.pending.currentStatus = s.pending.status := by
  rw [PendingStatus.currentStatus, h.released]
  rfl

/-- What holds in every state. -/
structure PendingState.Sound (request : PendingRpcRequest) (s : PendingState) : Prop where
  shared : s.toPendingShared.Sound request s.log
  logged : Logged request s.pending.status s.log
  threads : ∀ t thread, s.threads t = some thread → thread.Sound request s.log

theorem sound_start (request : PendingRpcRequest) : request.start.Sound request where
  shared := by
    refine ⟨rfl, ConversationRouter.distinct_init.registerConversation _, fun envelope hmem => ?_⟩
    have hwaiting : request.start.router.waiting request.conversationId = [] := by
      show (ConversationRouter.init.registerConversation request.conversationId).waiting _ = []
      rw [ConversationRouter.waiting_register]
      rfl
    rw [hwaiting] at hmem
    cases hmem
  logged := .nil
  threads _ _ h := nomatch h

section SectionStep

variable {s shared : PendingShared} {thread : PendingThread} {canceled : Bool}

/-- A section that does not end the call. -/
theorem goesOn_sound {stage : CallStage} (hs : s.Sound request log)
    (hlogged : Logged request s.pending.status log) (hthread : thread.Sound request log)
    (h : request.Sections s thread.call thread.stage (.goesOn stage) shared canceled) :
    shared.Sound request (log ++ if canceled then [.canceled] else []) ∧
    Logged request shared.pending.status (log ++ if canceled then [.canceled] else []) ∧
    PendingThread.Sound request (log ++ if canceled then [.canceled] else [])
      { thread with stage := stage } := by
  obtain ⟨call, began, before⟩ := thread
  cases h with
  | cancel hreleased hactive =>
      rw [hactive] at hlogged
      have hafter : PendingShared.Sound request log
          { s with pending := { s.pending with status := .canceled } } :=
        ⟨hs.released, hs.distinct, hs.queued⟩
      have hthread' : PendingThread.Sound request log ⟨.cancel, began, .forgets⟩ :=
        ⟨hthread.began_le, fun _ hcall => absurd rfl hcall, answers_of_none rfl⟩
      exact ⟨hafter.append _, hlogged.append_canceled, hthread'.append _⟩
  | ask hactive =>
      rw [hs.currentStatus] at hactive
      simp only [Bool.false_eq_true, if_false, List.append_nil]
      rw [hactive] at hlogged
      refine ⟨hs, hactive ▸ hlogged, hthread.began_le, fun _ _ => ⟨?_, fun hmem => ?_⟩,
        answers_of_none rfl⟩
      · rintro ⟨event, hevent, hconsumes⟩
        exact (hlogged.of_active event (List.mem_of_mem_take hevent)).1 hconsumes
      · exact (hlogged.of_active _ (List.mem_of_mem_take hmem)).2 rfl
  | @take call envelope router htake =>
      simp only [Bool.false_eq_true, if_false, List.append_nil]
      obtain ⟨⟨hmem, hid⟩, hsub⟩ := ConversationRouter.waiting_take htake
      refine ⟨⟨hs.released, ConversationRouter.distinct_take hs.distinct htake,
        fun other hother => hs.queued other (hsub _ hother)⟩, hlogged, hthread.began_le,
        fun _ => hthread.fresh nofun, ?_⟩
      intro other hother
      obtain rfl := Option.some.inj hother
      obtain ⟨hpushed, hconversation⟩ := hs.queued _ hmem
      exact ⟨hpushed, hconversation, hid⟩
  | reread =>
      simp only [Bool.false_eq_true, if_false, List.append_nil]
      exact ⟨hs, hlogged, hthread.began_le, fun _ => hthread.fresh nofun, answers_of_none rfl⟩
  | unregister =>
      simp only [Bool.false_eq_true, if_false, List.append_nil]
      exact ⟨hs.unregister, hlogged, hthread.began_le, fun _ => hthread.fresh nofun,
        hthread.answers⟩

/-- A section that ends the call. -/
theorem returns_sound {result : CallResult} (hs : s.Sound request log)
    (hlogged : Logged request s.pending.status log) (hthread : thread.Sound request log)
    (h : request.Sections s thread.call thread.stage (.returns result) shared canceled) :
    shared.Sound request (log ++ [.returned thread.call thread.began result]) ∧
    Logged request shared.pending.status
      (log ++ [.returned thread.call thread.began result]) := by
  obtain ⟨call, began, stage⟩ := thread
  -- a call that has asked was not late, so it may return anything that does not consume
  have hquiet : stage ≠ .begins → ¬ (PendingEvent.returned call began result).Consumes →
      Logged request s.pending.status (log ++ [.returned call began result]) := by
    intro hstage hconsumes
    refine hlogged.append_quiet hconsumes nofun ?_
    rintro call' began' result' heq hcall
    cases heq
    exact hthread.late hstage hcall result
  cases h with
  | cancelLate =>
      refine ⟨hs.append _, hlogged.append_quiet id nofun ?_⟩
      rintro call' began' result' heq hcall
      cases heq
      exact absurd rfl hcall
  | refuse hinactive =>
      refine ⟨hs.append _, hlogged.append_quiet
        (PendingRpcRequest.not_consumes_reported hinactive call began .done) nofun ?_⟩
      rintro call' began' result' heq -
      cases heq
      refine ⟨hthread.began_le, ?_, fun hmem => ?_⟩
      · rintro ⟨event, hevent, hconsumes⟩
        have hstatus := hlogged.consumed.mpr ⟨event, List.mem_of_mem_take hevent, hconsumes⟩
        rw [hs.currentStatus, hstatus]
        rfl
      · have hstatus := hlogged.canceled.mpr (List.mem_of_mem_take hmem)
        rw [hs.currentStatus, hstatus]
        rfl
  | report hstage hresult => exact ⟨hs.append _, hquiet hstage (hresult began)⟩
  | consume hreleased hactive =>
      rw [hactive] at hlogged
      have hafter : PendingShared.Sound request log
          { s with pending := { s.pending with status := .consumed } } :=
        ⟨hs.released, hs.distinct, hs.queued⟩
      exact ⟨hafter.append _,
        hlogged.append_consumes (hthread.answers _ rfl) hthread.began_le⟩
  | forget => exact ⟨hs.unregister.append _, hquiet nofun id⟩

end SectionStep

theorem PendingState.Sound.step {m : PendingMove} {s s' : PendingState} (h : s.Sound request)
    (hstep : request.step m s = some s') : s'.Sound request := by
  cases m with
  | call t call =>
      simp only [PendingRpcRequest.step] at hstep
      split at hstep
      · obtain rfl := Option.some.inj hstep
        refine ⟨h.shared, h.logged, fun u thread hu => ?_⟩
        rcases update_eq_some hu with ⟨-, heq⟩ | ⟨-, hu⟩
        · obtain rfl := Option.some.inj heq
          exact ⟨Nat.le_refl _, fun hstage => absurd rfl hstage, answers_of_none rfl⟩
        · exact h.threads u thread hu
      · cases hstep
  | go t =>
      simp only [PendingRpcRequest.step, Option.bind_eq_bind, Option.bind_eq_some_iff] at hstep
      obtain ⟨thread, ht, ⟨next, shared, canceled⟩, hsection, hstep⟩ := hstep
      have hsections := PendingRpcRequest.sections_of_runSection hsection
      have hthread := h.threads t thread ht
      cases next with
      | goesOn stage =>
          obtain rfl := Option.some.inj hstep
          obtain ⟨hshared, hlogged, hafter⟩ :=
            goesOn_sound h.shared h.logged hthread hsections
          refine ⟨hshared, hlogged, fun u other hu => ?_⟩
          rcases update_eq_some hu with ⟨-, heq⟩ | ⟨-, hu⟩
          · obtain rfl := Option.some.inj heq
            exact hafter
          · exact (h.threads u other hu).append _
      | returns result =>
          obtain rfl := Option.some.inj hstep
          obtain ⟨hshared, hlogged⟩ := returns_sound h.shared h.logged hthread hsections
          refine ⟨hshared, hlogged, fun u other hu => ?_⟩
          rcases update_eq_some hu with ⟨-, heq⟩ | ⟨-, hu⟩
          · cases heq
          · exact (h.threads u other hu).append _
  | outside o =>
      simp only [PendingRpcRequest.step, Option.bind_eq_bind, Option.bind_eq_some_iff] at hstep
      obtain ⟨⟨router, pushed⟩, houtside, hstep⟩ := hstep
      obtain rfl := Option.some.inj hstep
      obtain ⟨hdistinct, hwaiting⟩ := ConversationRouter.waiting_outside h.shared.distinct houtside
      refine ⟨⟨h.shared.released, hdistinct, fun envelope hmem => ?_⟩, ?_,
        fun u thread hu => (h.threads u thread hu).append _⟩
      · rcases hwaiting request.conversationId envelope hmem with hmem | ⟨rfl, hid⟩
        · exact ⟨List.mem_append_left _ (h.shared.queued envelope hmem).1,
            (h.shared.queued envelope hmem).2⟩
        · exact ⟨List.mem_append_right _ (List.mem_singleton_self _), hid⟩
      · cases pushed with
        | none =>
            show Logged request s.pending.status (s.log ++ [])
            rw [List.append_nil]
            exact h.logged
        | some envelope => exact h.logged.append_quiet id nofun nofun

/-- What the callers of one request see. -/
structure PendingSafe (request : PendingRpcRequest) (log : List PendingEvent) : Prop where
  /-- At most one call returns a payload. -/
  once : log.Pairwise fun first second => first.payload ≠ none → second.payload = none
  /-- A payload is the one of an envelope that was pushed for the request, without an error. -/
  origin : ∀ event ∈ log, ∀ payload, event.payload = some payload → ∃ envelope,
    Answers request log envelope ∧ envelope.conversationError = none ∧ envelope.payload = payload
  /-- No call returns a payload once `cancel` has taken effect. -/
  canceled : log.Pairwise fun first second => first = .canceled → second.payload = none
  /-- A call that begins after the result was consumed, or the request canceled, says so. -/
  late : ∀ call began result, .returned call began result ∈ log → call ≠ .cancel →
    (ConsumedBy log began → result = .requestResultConsumed) ∧
      (CanceledBy log began → result = .canceled)

/-- In every run of calls on one request, with any envelopes pushed and any other use of the router. -/
theorem pending_request_safe (request : PendingRpcRequest) {s : PendingState}
    (h : Runs request.step unrestricted request.start s) : PendingSafe request s.log := by
  have hsound : s.Sound request :=
    h.invariant (sound_start request) fun _ _ _ hsound _ hstep => hsound.step hstep
  refine ⟨hsound.logged.once.imp ?_, hsound.logged.origin, hsound.logged.once.imp ?_, ?_⟩
  · intro first second honce hpayload
    refine honce (.inl ?_)
    by_contra hconsumes
    exact hpayload (PendingEvent.payload_eq_none hconsumes)
  · intro first second honce hcanceled
    exact honce (.inr hcanceled)
  · intro call began result hmem hcall
    have hlate := hsound.logged.late call began result hmem hcall
    exact ⟨hlate.consumed, hlate.canceled⟩

/-- A poll that finds the answer, and one that comes after it. -/
theorem pending_request_safe_polls : ∃ s,
    Runs (PendingRpcRequest.step ⟨0, ascii "c-1", 1⟩) unrestricted
      (PendingRpcRequest.start ⟨0, ascii "c-1", 1⟩) s ∧
    PendingSafe ⟨0, ascii "c-1", 1⟩ s.log ∧
    (s.log.map fun event => event.payload.isSome) = [false, true, false] := by
  obtain ⟨s, hs, htest⟩ := Runs.exists_of_follow
    (PendingRpcRequest.step ⟨0, ascii "c-1", 1⟩) unrestricted
    (PendingRpcRequest.start ⟨0, ascii "c-1", 1⟩)
    [.outside (.pushEnvelope ⟨ascii "c-1", some 1, none, .rpc, .bool true, true, none⟩),
      .call 0 .poll, .go 0, .go 0, .go 0, .go 0, .call 1 .poll, .go 1]
    (fun s => (s.log.map fun event => event.payload.isSome) = [false, true, false])
    (by decide +kernel)
  exact ⟨s, hs, pending_request_safe _ hs, of_decide_eq_true htest⟩

end Muxly.Client
