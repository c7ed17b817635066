/-
# Muxly.Client.Dispatcher -- the workers behind a compatibility transport

`CompatibilityAsyncDispatcher` of `client.zig`: a queue of jobs behind a mutex, one worker for each
connection of the pool, and the router that the answers go to. What a worker meets is up to the
outside: whether a lease and an exchange fail, and which bytes the server answers with.

A worker is at one `Stage` of its loop at a time, and `worker_returns` says what each section of it
does. The state also keeps a record of what happened: the jobs that were submitted, and the envelopes
that completed them.
-/
import Muxly.Client.Framing

namespace Muxly.Client

open Muxly.Core Muxly.Daemon Muxly.Server Muxly.Sync Muxly.Data

/-! ## The state -/

/-- `CompatibilityWorkerJob`; jobs are numbered in the order of their submits. -/
structure Job where
  number : Nat
  envelopeJson : Bytes

/-- An envelope that was pushed for a job: whether its conversation was registered, and whether the
router took it. -/
structure Completion where
  number : Nat
  envelope : OwnedEnvelope
  registered : Bool
  accepted : Bool

/-- `CompatibilityAsyncDispatcher`, with the leases of its pool and the router it answers to. -/
structure DispatcherState where
  jobs : List Job
  closing : Bool
  /-- The workers that hold a lease. -/
  leases : List Nat
  /-- The workers whose loop has ended. -/
  stopped : List Nat
  router : ConversationRouter
  /-- The jobs that were accepted, and what completed them. -/
  submitted : List Bytes
  completions : List Completion

/-- `CompatibilityTransportMode`. -/
inductive CompatibilityTransportMode where
  | sharedConnection
  | pooledConnections
  deriving DecidableEq

/-- `max_connections`. -/
def CompatibilityTransportMode.maxConnections : CompatibilityTransportMode → Nat
  | .sharedConnection => 1
  | .pooledConnections => 4

theorem maxConnections_pos (mode : CompatibilityTransportMode) : 0 < mode.maxConnections := by
  cases mode <;> decide

/-- What a worker meets outside. -/
inductive Outside where
  | nothing
  | fails (errorName : Bytes)
  | responds (bytes : Bytes)

/-! ## Sections -/

/-- A critical section, or an exchange with the server. -/
inductive DispatcherSection where
  | registerConversation (conversationId : Bytes)
  | unregisterConversation (conversationId : Bytes)
  | takeEnvelope (conversationId : Bytes) (requestId : Option UInt64)
  | submit (envelopeJson : Bytes)
  | close
  | nextJob (worker : Nat)
  | checkout (worker : Nat)
  | requestJson (job : Job)
  | completeFailed (job : Job) (errorName : Bytes)
  | pushEnvelopeBytes (job : Job) (response : Bytes)
  | releaseLease (worker : Nat)
  | stop (worker : Nat)

/-- What a section returns. -/
inductive DispatcherResult where
  | done
  /-- `error.ClientShuttingDown`. -/
  | refused
  | job (job : Job)
  | lease
  | response (bytes : Bytes)
  | failed (errorName : Bytes)
  /-- The response is no envelope. -/
  | invalid

namespace DispatcherState

/-- A dispatcher that has just been started. -/
def init : DispatcherState := ⟨[], false, [], [], .init, [], []⟩

section Sections

-- How `std.json` reads fractional numbers as integers, and what a parsed value is kept as.
variable (floatToInt : Bytes → Option Int) (toValue : Json → JsonValue)

/-- `ownedEnvelopeFromBorrowed`. -/
def ownedEnvelopeFromBorrowed (envelope : EnvelopeMessage) : OwnedEnvelope where
  conversationId := envelope.conversationId
  requestId := envelope.requestId
  target := envelope.target
  kind := envelope.kind
  payload := toValue envelope.payload
  fin := envelope.fin
  conversationError := envelope.conversationError

/-- `pushEnvelope` for a job. `error.UnknownConversation` is ignored wherever it can occur. -/
def pushEnvelope (number : Nat) (envelope : EnvelopeMessage) (st : DispatcherState) :
    DispatcherState :=
  let owned := ownedEnvelopeFromBorrowed toValue envelope
  let registered := (st.router.queue owned.conversationId).isSome
  match st.router.pushEnvelope owned with
  | none => { st with completions := st.completions ++ [⟨number, owned, registered, false⟩] }
  | some router =>
    { st with router, completions := st.completions ++ [⟨number, owned, registered, true⟩] }

/-- The envelope of a failure: `allocConversationEnvelope` in `completeFailedCompatibilityRequest`. -/
def failureEnvelope (request : EnvelopeMessage) (errorName : Bytes) : Bytes :=
  writeConversationEnvelope request.conversationId request.requestId request.target request.kind
    (ascii "null") true (some ⟨-32603, errorName⟩)

/-- `completeFailedCompatibilityRequest`. -/
def completeFailed (job : Job) (errorName : Bytes) (st : DispatcherState) : DispatcherState :=
  match parseConversationEnvelope floatToInt job.envelopeJson with
  | none => st
  | some request =>
    match parseConversationEnvelope floatToInt (failureEnvelope request errorName) with
    | none => st
    | some failure => st.pushEnvelope toValue job.number failure

/-- The section of `deinit`. -/
def close (st : DispatcherState) : DispatcherState :=
  { st.jobs.foldl (fun st job => st.completeFailed floatToInt toValue job (ascii "ClientShuttingDown"))
      { st with closing := true } with
    jobs := [] }

variable (mode : CompatibilityTransportMode)

/-- One section. -/
def attempt (outside : Outside) (o : DispatcherSection) (st : DispatcherState) :
    Outcome DispatcherResult DispatcherState :=
  match o with
  | .registerConversation conversationId =>
    .returns .done { st with router := st.router.registerConversation conversationId } .nobody
  | .unregisterConversation conversationId =>
    .returns .done { st with router := st.router.unregisterConversation conversationId } .nobody
  | .takeEnvelope conversationId requestId =>
    match st.router.takeEnvelopeLocked conversationId requestId with
    | .error _ => .returns .done st .nobody
    | .ok (_, router) => .returns .done { st with router } .nobody
  | .submit envelopeJson =>
    if st.closing then .returns .refused st .nobody
    else
      .returns .done { st with
        jobs := st.jobs ++ [⟨st.submitted.length, envelopeJson⟩]
        submitted := st.submitted ++ [envelopeJson] } .one
  | .close => .returns .done (st.close floatToInt toValue) .all
  | .nextJob worker =>
    match st.jobs with
    | [] =>
      if st.closing then .returns .done { st with stopped := worker :: st.stopped } .nobody
      else .waits
    | job :: jobs => .returns (.job job) { st with jobs } .nobody
  | .checkout worker =>
    if st.leases.length < mode.maxConnections then
      match outside with
      | .fails errorName => .returns (.failed errorName) st .nobody
      | _ => .returns .lease { st with leases := worker :: st.leases } .nobody
    else .waits
  | .requestJson _ =>
    match outside with
    | .responds bytes => .returns (.response bytes) st .nobody
    | .fails errorName => .returns (.failed errorName) st .nobody
    | .nothing => .returns (.failed (ascii "EndOfStream")) st .nobody
  | .completeFailed job errorName =>
    .returns .done (st.completeFailed floatToInt toValue job errorName) .nobody
  | .pushEnvelopeBytes job response =>
    match parseConversationEnvelope floatToInt response with
    | none => .returns .invalid st .nobody
    | some envelope => .returns .done (st.pushEnvelope toValue job.number envelope) .nobody
  | .releaseLease worker => .returns .done { st with leases := st.leases.erase worker } .nobody
  | .stop worker => .returns .done { st with stopped := worker :: st.stopped } .nobody

end Sections

end DispatcherState

/-! ## Threads -/

/-- What a thread runs. -/
abbrev DispatcherTask : Type := Task DispatcherSection DispatcherResult

/-- The end of `workerLoop`. -/
def stopLoop (worker : Nat) : DispatcherTask := .call (.stop worker) fun _ => .done

/-- The lease is given back; a loop that ends with an error ends after that. -/
def releaseLease (worker : Nat) (failed : Bool) : DispatcherTask :=
  .call (.releaseLease worker) fun _ => if failed then stopLoop worker else .done

/-- The job is completed with a failure. -/
def failJob (worker : Nat) (job : Job) (errorName : Bytes) (leased : Bool) : DispatcherTask :=
  .call (.completeFailed job errorName) fun _ => if leased then releaseLease worker false else .done

/-- The response goes to the router. -/
def pushResponse (worker : Nat) (job : Job) (response : Bytes) : DispatcherTask :=
  .call (.pushEnvelopeBytes job response) fun
    | .invalid => releaseLease worker true
    | _ => releaseLease worker false

/-- The exchange with the server. -/
def exchange (worker : Nat) (job : Job) : DispatcherTask :=
  .call (.requestJson job) fun
    | .response bytes => pushResponse worker job bytes
    | .failed errorName => failJob worker job errorName true
    | _ => .done

/-- A job, from its lease on. -/
def runJob (worker : Nat) (job : Job) : DispatcherTask :=
  .call (.checkout worker) fun
    | .lease => exchange worker job
    | .failed errorName => failJob worker job errorName false
    | _ => .done

/-- One round of `workerLoop`. -/
def workerRound (worker : Nat) : DispatcherTask :=
  .call (.nextJob worker) fun
    | .job job => runJob worker job
    | _ => .done

/-- A function of the client library that is one section here. -/
def DispatcherSection.isClient : DispatcherSection → Bool
  | .registerConversation _ | .unregisterConversation _ | .takeEnvelope .. | .submit _ | .close => true
  | _ => false

/-- What a thread may start: a function of the client library, or the next round of a worker. -/
inductive DispatcherCall where
  | client (o : DispatcherSection)
  | round (worker : Nat)

section Monitor

variable (floatToInt : Bytes → Option Int) (toValue : Json → JsonValue)
  (mode : CompatibilityTransportMode)

/-- One worker for each connection, each in its rounds until it has stopped, and any number of other
threads. -/
def dispatcherMonitor :
    Monitor Nat Outside DispatcherCall DispatcherSection DispatcherResult DispatcherState where
  attempt := DispatcherState.attempt floatToInt toValue mode
  task
    | .client o => .call o fun _ => .done
    | .round worker => workerRound worker
  starts st t
    | .client o => o.isClient && decide (mode.maxConnections ≤ t)
    | .round worker => decide (t = worker ∧ worker < mode.maxConnections ∧ worker ∉ st.stopped)

end Monitor

/-- The threads, and the dispatcher they share. -/
abbrev DispatcherConfig : Type :=
  Monitor.Config Nat DispatcherSection DispatcherResult DispatcherState

/-- A section that has returned. -/
abbrev DispatcherEvent : Type := Nat × DispatcherSection × DispatcherResult

/-- The start of a run. -/
def DispatcherConfig.start : DispatcherConfig :=
  .idle Nat DispatcherSection DispatcherResult .init

/-! ## The stages of a worker -/

/-- Where a worker is in its loop. -/
inductive Stage where
  | idle
  | taking
  | checking (job : Job)
  | exchanging (job : Job)
  | pushing (job : Job) (response : Bytes)
  | failing (job : Job) (errorName : Bytes) (leased : Bool)
  | releasing (failed : Bool)
  | stopping

namespace Stage

/-- What is left of the round. -/
def task (worker : Nat) : Stage → DispatcherTask
  | .idle => .done
  | .taking => workerRound worker
  | .checking job => runJob worker job
  | .exchanging job => exchange worker job
  | .pushing job response => pushResponse worker job response
  | .failing job errorName leased => failJob worker job errorName leased
  | .releasing failed => releaseLease worker failed
  | .stopping => stopLoop worker

/-- The job that the worker has taken and not completed. -/
def job? : Stage → Option Job
  | .checking job | .exchanging job | .pushing job _ | .failing job _ _ => some job
  | _ => none

/-- The worker holds a lease. -/
def leased : Stage → Bool
  | .exchanging _ | .pushing .. | .releasing _ => true
  | .failing _ _ leased => leased
  | _ => false

end Stage

section Steps

variable {floatToInt : Bytes → Option Int} {toValue : Json → JsonValue}
  {mode : CompatibilityTransportMode}

/-- What a section of a worker does: the stage it is at, what the outside decides, and the stage and
the state it leaves. -/
inductive WorkerStep (floatToInt : Bytes → Option Int) (toValue : Json → JsonValue) (worker : Nat)
    (st : DispatcherState) : Outside → Stage → Stage → DispatcherState → Prop
  | take {outside : Outside} {job : Job} {jobs : List Job} (h : st.jobs = job :: jobs) :
      WorkerStep floatToInt toValue worker st outside .taking (.checking job) { st with jobs }
  | leave {outside : Outside} (h : st.jobs = []) (hclosing : st.closing = true) :
      WorkerStep floatToInt toValue worker st outside .taking .idle
        { st with stopped := worker :: st.stopped }
  | lease {outside : Outside} (job : Job) :
      WorkerStep floatToInt toValue worker st outside (.checking job) (.exchanging job)
        { st with leases := worker :: st.leases }
  | leaseFails {outside : Outside} (job : Job) (errorName : Bytes) :
      WorkerStep floatToInt toValue worker st outside (.checking job) (.failing job errorName false) st
  | respond (job : Job) (response : Bytes) :
      WorkerStep floatToInt toValue worker st (.responds response) (.exchanging job)
        (.pushing job response) st
  | exchangeFails {outside : Outside} (job : Job) (errorName : Bytes) :
      WorkerStep floatToInt toValue worker st outside (.exchanging job)
        (.failing job errorName true) st
  | push {outside : Outside} (job : Job) {response : Bytes} {envelope : EnvelopeMessage}
      (h : parseConversationEnvelope floatToInt response = some envelope) :
      WorkerStep floatToInt toValue worker st outside (.pushing job response) (.releasing false)
        (st.pushEnvelope toValue job.number envelope)
  | invalid {outside : Outside} (job : Job) {response : Bytes}
      (h : parseConversationEnvelope floatToInt response = none) :
      WorkerStep floatToInt toValue worker st outside (.pushing job response) (.releasing true) st
  | fail {outside : Outside} (job : Job) (errorName : Bytes) (leased : Bool) :
      WorkerStep floatToInt toValue worker st outside (.failing job errorName leased)
        (if leased then .releasing false else .idle)
        (st.completeFailed floatToInt toValue job errorName)
  | release {outside : Outside} (failed : Bool) :
      WorkerStep floatToInt toValue worker st outside (.releasing failed)
        (if failed then .stopping else .idle) { st with leases := st.leases.erase worker }
  | stop {outside : Outside} :
      WorkerStep floatToInt toValue worker st outside .stopping .idle
        { st with stopped := worker :: st.stopped }

variable {worker : Nat} {st st' : DispatcherState} {outside : Outside} {stage : Stage}
  {o : DispatcherSection} {rest : DispatcherResult → DispatcherTask} {r : DispatcherResult}
  {wake : Wake}

/-- The specification of a worker's section. -/
theorem worker_returns (htask : stage.task worker = .call o rest)
    (h : DispatcherState.attempt floatToInt toValue mode outside o st = .returns r st' wake) :
    ∃ stage', rest r = stage'.task worker ∧ wake = .nobody ∧
      WorkerStep floatToInt toValue worker st outside stage stage' st' := by
  cases stage with
  | idle => cases htask
  | taking =>
      cases htask
      simp only [DispatcherState.attempt] at h
      split at h
      · rename_i hjobs
        split at h
        · rename_i hclosing
          cases h
          exact ⟨.idle, rfl, rfl, .leave hjobs hclosing⟩
        · cases h
      · rename_i job jobs hjobs
        cases h
        exact ⟨.checking job, rfl, rfl, .take hjobs⟩
  | checking job =>
      cases htask
      simp only [DispatcherState.attempt] at h
      split at h
      · split at h
        · rename_i errorName
          cases h
          exact ⟨.failing job errorName false, rfl, rfl, .leaseFails job errorName⟩
        · cases h
          exact ⟨.exchanging job, rfl, rfl, .lease job⟩
      · cases h
  | exchanging job =>
      cases htask
      simp only [DispatcherState.attempt] at h
      split at h
      · rename_i bytes
        cases h
        exact ⟨.pushing job bytes, rfl, rfl, .respond job bytes⟩
      · rename_i errorName
        cases h
        exact ⟨.failing job errorName true, rfl, rfl, .exchangeFails job errorName⟩
      · cases h
        exact ⟨.failing job _ true, rfl, rfl, .exchangeFails job _⟩
  | pushing job response =>
      cases htask
      simp only [DispatcherState.attempt] at h
      split at h
      · rename_i hparse
        cases h
        exact ⟨.releasing true, rfl, rfl, .invalid job hparse⟩
      · rename_i envelope hparse
        cases h
        exact ⟨.releasing false, rfl, rfl, .push job hparse⟩
  | failing job errorName leased =>
      cases htask
      cases h
      refine ⟨_, ?_, rfl, .fail job errorName leased⟩
      cases leased <;> rfl
  | releasing failed =>
      cases htask
      cases h
      refine ⟨_, ?_, rfl, .release failed⟩
      cases failed <;> rfl
  | stopping =>
      cases htask
      cases h
      exact ⟨.idle, rfl, rfl, .stop⟩

/-- A worker waits for a job, or for a lease. -/
theorem worker_waits (htask : stage.task worker = .call o rest)
    (h : DispatcherState.attempt floatToInt toValue mode outside o st = .waits) :
    (stage = .taking ∧ st.jobs = []) ∨
      ∃ job, stage = .checking job ∧ mode.maxConnections ≤ st.leases.length := by
  cases stage with
  | idle => cases htask
  | taking =>
      cases htask
      simp only [DispatcherState.attempt] at h
      split at h
      · rename_i hjobs
        exact .inl ⟨rfl, hjobs⟩
      · cases h
  | checking job =>
      cases htask
      simp only [DispatcherState.attempt] at h
      split at h
      · split at h <;> cases h
      · rename_i hleases
        exact .inr ⟨job, rfl, Nat.not_lt.mp hleases⟩
  | exchanging job =>
      cases htask
      simp only [DispatcherState.attempt] at h
      split at h <;> cases h
  | pushing job response =>
      cases htask
      simp only [DispatcherState.attempt] at h
      split at h <;> cases h
  | failing job errorName leased =>
      cases htask
      cases h
  | releasing failed =>
      cases htask
      cases h
  | stopping =>
      cases htask
      cases h

end Steps

/-! ## Completions -/

section Completions

variable {floatToInt : Bytes → Option Int} {toValue : Json → JsonValue} {st : DispatcherState}

/-- Everything but the router and its record. -/
structure SameQueue (st st' : DispatcherState) : Prop where
  jobs : st'.jobs = st.jobs
  closing : st'.closing = st.closing
  leases : st'.leases = st.leases
  stopped : st'.stopped = st.stopped
  submitted : st'.submitted = st.submitted

/-- The completion carries the ids of the request, and the router took it if the conversation was
registered. -/
def Fits (request : EnvelopeMessage) (completion : Completion) : Prop :=
  completion.envelope.conversationId = request.conversationId ∧
    completion.envelope.requestId = request.requestId ∧
    completion.accepted = completion.registered

theorem pushEnvelope_spec (number : Nat) (envelope : EnvelopeMessage) :
    SameQueue st (st.pushEnvelope toValue number envelope) ∧
      ∃ completion, completion.number = number ∧ Fits envelope completion ∧
        (st.pushEnvelope toValue number envelope).completions = st.completions ++ [completion] := by
  unfold DispatcherState.pushEnvelope
  simp only
  split
  · rename_i hnone
    rw [ConversationRouter.pushEnvelope_eq_none] at hnone
    exact ⟨⟨rfl, rfl, rfl, rfl, rfl⟩, _, rfl, ⟨rfl, rfl, by rw [hnone]; rfl⟩, rfl⟩
  · rename_i router hsome
    have hregistered : (st.router.queue envelope.conversationId).isSome = true := by
      rw [Option.isSome_iff_ne_none]
      intro hnone
      have hpush := (@ConversationRouter.pushEnvelope_eq_none st.router
        (DispatcherState.ownedEnvelopeFromBorrowed toValue envelope)).mpr hnone
      rw [hsome] at hpush
      cases hpush
    exact ⟨⟨rfl, rfl, rfl, rfl, rfl⟩, _, rfl, ⟨rfl, rfl, hregistered.symm⟩, rfl⟩

/-- The envelope of a failure is read back by the router. -/
theorem parse_failureEnvelope (request : EnvelopeMessage) (errorName : Bytes) :
    ∃ failure, parseConversationEnvelope floatToInt
        (DispatcherState.failureEnvelope request errorName) = some failure ∧
      failure.conversationId = request.conversationId ∧
      failure.requestId = request.requestId :=
  ⟨_, @parseConversationEnvelope_writeConversationEnvelope floatToInt _ _ _ _ _ .null _ _ rfl, rfl,
    rfl⟩

/-- A job whose text parses is completed by its failure. -/
theorem completeFailed_spec {job : Job} {request : EnvelopeMessage} (errorName : Bytes)
    (hparse : parseConversationEnvelope floatToInt job.envelopeJson = some request) :
    SameQueue st (st.completeFailed floatToInt toValue job errorName) ∧
      ∃ completion, completion.number = job.number ∧ Fits request completion ∧
        (st.completeFailed floatToInt toValue job errorName).completions =
          st.completions ++ [completion] := by
  obtain ⟨failure, hfailure, hid, hrequest⟩ := @parse_failureEnvelope floatToInt request errorName
  obtain ⟨hsame, completion, hnumber, hfits, hcompletions⟩ :=
    @pushEnvelope_spec toValue st job.number failure
  simp only [DispatcherState.completeFailed, hparse, hfailure]
  exact ⟨hsame, completion, hnumber, ⟨hfits.1.trans hid, hfits.2.1.trans hrequest, hfits.2.2⟩,
    hcompletions⟩

/-- The completion belongs to a job that was submitted. -/
def Completes (floatToInt : Bytes → Option Int) (submitted : List Bytes) (completion : Completion) :
    Prop :=
  ∃ text request, submitted[completion.number]? = some text ∧
    parseConversationEnvelope floatToInt text = some request ∧ Fits request completion

/-- The jobs are numbered as they were submitted, and their texts parse. -/
def Known (floatToInt : Bytes → Option Int) (submitted : List Bytes) (job : Job) : Prop :=
  submitted[job.number]? = some job.envelopeJson ∧
    ∃ request, parseConversationEnvelope floatToInt job.envelopeJson = some request

/-- Completing known jobs one after the other. -/
theorem foldl_completeFailed_spec (errorName : Bytes) {jobs : List Job}
    (hknown : ∀ job ∈ jobs, Known floatToInt st.submitted job) :
    let st' := jobs.foldl (fun st job => st.completeFailed floatToInt toValue job errorName) st
    SameQueue st st' ∧ ∃ more, st'.completions = st.completions ++ more ∧
      more.map Completion.number = jobs.map Job.number ∧
      ∀ completion ∈ more, Completes floatToInt st.submitted completion := by
  induction jobs generalizing st with
  | nil => exact ⟨⟨rfl, rfl, rfl, rfl, rfl⟩, [], by simp, rfl, by simp⟩
  | cons job jobs ih =>
      obtain ⟨htext, request, hparse⟩ := hknown job (List.mem_cons_self ..)
      obtain ⟨hsame, completion, hnumber, hfits, hcompletions⟩ :=
        @completeFailed_spec floatToInt toValue st _ _ errorName hparse
      obtain ⟨hsame', more, hmore, hnumbers, hall⟩ :=
        @ih (st.completeFailed floatToInt toValue job errorName)
          (fun job hjob => hsame.submitted ▸ hknown job (List.mem_cons_of_mem _ hjob))
      refine ⟨⟨hsame'.jobs.trans hsame.jobs, hsame'.closing.trans hsame.closing,
        hsame'.leases.trans hsame.leases, hsame'.stopped.trans hsame.stopped,
        hsame'.submitted.trans hsame.submitted⟩, completion :: more, ?_, ?_, ?_⟩
      · rw [List.foldl_cons, hmore, hcompletions, List.append_assoc]
        rfl
      · rw [List.map_cons, List.map_cons, hnumber, hnumbers]
      · intro done hdone
        rcases List.mem_cons.mp hdone with rfl | hdone
        · exact ⟨job.envelopeJson, request, hnumber ▸ htext, hparse, hfits⟩
        · exact hsame.submitted ▸ hall done hdone

end Completions

end Muxly.Client
