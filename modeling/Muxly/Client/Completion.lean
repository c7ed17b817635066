/-
# Muxly.Client.Completion -- what becomes of a job

Every submitted job is queued, or at one worker, or completed, and it is one of these once: `tally`
counts it. `Sound` holds between two steps of a run in which the responses are envelopes for their
jobs; with it the dispatcher keeps its promise, which `dispatcher_completes` states. One response that
is no envelope is enough to stop a worker for good.
-/
import Mathlib.Algebra.BigOperators.Group.Finset.Basic
import Mathlib.Algebra.BigOperators.Group.Finset.Piecewise
import Muxly.Client.Dispatcher

namespace Muxly.Client

open Muxly.Core Muxly.Daemon Muxly.Server Muxly.Sync Muxly.Data

/-! ## Runs in which the server answers -/

section Runs

variable (floatToInt : Bytes → Option Int)

/-- The response is an envelope with the ids of the job. -/
def answersJob (job : Job) (response : Bytes) : Bool :=
  match parseConversationEnvelope floatToInt response,
    parseConversationEnvelope floatToInt job.envelopeJson with
  | some envelope, some request =>
    decide (envelope.conversationId = request.conversationId ∧
      envelope.requestId = request.requestId)
  | _, _ => false

/-- What is submitted parses, and what the server answers to a job are envelopes for it. -/
def Answered (c : DispatcherConfig) : Move Nat Outside DispatcherCall → Prop
  | .start _ (.client (.submit envelopeJson)) =>
    (parseConversationEnvelope floatToInt envelopeJson).isSome = true
  | .enter t (.responds response) _ =>
    match c.next t with
    | some (.requestJson job, _) => answersJob floatToInt job response = true
    | _ => True
  | _ => True

instance (c : DispatcherConfig) (move : Move Nat Outside DispatcherCall) :
    Decidable (Answered floatToInt c move) := by
  unfold Answered
  split
  · infer_instance
  · split <;> infer_instance
  · infer_instance

variable {floatToInt} {toValue : Json → JsonValue} {mode : CompatibilityTransportMode}
  {c c' : DispatcherConfig} {stage : Nat → Stage} {history : List DispatcherEvent}

/-- The thread of a worker is at its stage. -/
def AtStage (c : DispatcherConfig) (worker : Nat) (stage : Stage) : Prop :=
  c.thread worker = .running (stage.task worker) ∨
    stage = .taking ∧ ∃ o rest, workerRound worker = .call o rest ∧ c.thread worker = .waiting o rest

/-- The thread of anybody else is idle, or in one section; what it submits parses. -/
def AtClient (floatToInt : Bytes → Option Int) (c : DispatcherConfig) (t : Nat) : Prop :=
  c.thread t = .running .done ∨
    ∃ o, o.isClient = true ∧ c.thread t = .running (.call o fun _ => .done) ∧
      ∀ envelopeJson, o = .submit envelopeJson →
        (parseConversationEnvelope floatToInt envelopeJson).isSome = true

/-- Where the threads are. -/
structure Placed (floatToInt : Bytes → Option Int) (mode : CompatibilityTransportMode)
    (c : DispatcherConfig) (stage : Nat → Stage) : Prop where
  workers : ∀ worker < mode.maxConnections, AtStage c worker (stage worker)
  clients : ∀ t, mode.maxConnections ≤ t → AtClient floatToInt c t

/-- How often a job is queued, at a worker, or completed. -/
def tally (mode : CompatibilityTransportMode) (st : DispatcherState) (stage : Nat → Stage)
    (number : Nat) : Nat :=
  (st.jobs.map Job.number).count number +
    ∑ worker ∈ Finset.range mode.maxConnections,
      ((stage worker).job?.toList.map Job.number).count number +
    (st.completions.map Completion.number).count number

/-- What holds of the dispatcher between two steps. -/
structure Sound (floatToInt : Bytes → Option Int) (mode : CompatibilityTransportMode)
    (st : DispatcherState) (stage : Nat → Stage) : Prop where
  leases : ∀ worker ∈ st.leases, worker < mode.maxConnections ∧ (stage worker).leased = true
  nodup : st.leases.Nodup
  stopped : ∀ worker ∈ st.stopped, stage worker = .idle ∧ st.closing = true
  lives : ∀ worker < mode.maxConnections, stage worker ≠ .releasing true ∧ stage worker ≠ .stopping
  answers : ∀ worker < mode.maxConnections, ∀ job response,
    stage worker = .pushing job response → answersJob floatToInt job response = true
  queued : ∀ job ∈ st.jobs, Known floatToInt st.submitted job
  taken : ∀ worker < mode.maxConnections, ∀ job ∈ (stage worker).job?,
    Known floatToInt st.submitted job
  completed : ∀ completion ∈ st.completions, Completes floatToInt st.submitted completion
  tally : ∀ number, tally mode st stage number = if number < st.submitted.length then 1 else 0
  closed : st.closing = true → st.jobs = []

/-- A job is queued only while somebody is awake to take it. -/
def Attended (mode : CompatibilityTransportMode) (c : DispatcherConfig) : Prop :=
  c.state.jobs ≠ [] →
    ∃ worker < mode.maxConnections, worker ∉ c.asleep ∧ worker ∉ c.state.stopped

/-! ### Steps of a worker -/

variable {st st' : DispatcherState} {worker : Nat} {new : Stage}

theorem forall_update {P : Nat → Stage → Prop} (h : ∀ w < mode.maxConnections, P w (stage w))
    (hnew : P worker new) : ∀ w < mode.maxConnections, P w (Function.update stage worker new w) := by
  intro w hw
  by_cases heq : w = worker
  · subst heq
    rwa [Function.update_self]
  · rw [Function.update_of_ne heq]
    exact h w hw

/-- Only the job of one worker changes. -/
theorem sum_update (hworker : worker < mode.maxConnections) (number : Nat) :
    (∑ w ∈ Finset.range mode.maxConnections,
        ((Function.update stage worker new w).job?.toList.map Job.number).count number) +
      ((stage worker).job?.toList.map Job.number).count number =
    (∑ w ∈ Finset.range mode.maxConnections,
        ((stage w).job?.toList.map Job.number).count number) +
      (new.job?.toList.map Job.number).count number := by
  have hmem := Finset.mem_range.mpr hworker
  rw [← Finset.add_sum_erase _ _ hmem, ← Finset.add_sum_erase _ (fun w =>
    ((stage w).job?.toList.map Job.number).count number) hmem, Function.update_self]
  have hrest : ∑ w ∈ (Finset.range mode.maxConnections).erase worker,
      ((Function.update stage worker new w).job?.toList.map Job.number).count number =
    ∑ w ∈ (Finset.range mode.maxConnections).erase worker,
      ((stage w).job?.toList.map Job.number).count number :=
    Finset.sum_congr rfl fun w hw => by rw [Function.update_of_ne (Finset.ne_of_mem_erase hw)]
  rw [hrest]
  omega

/-- A job that moves is counted once more and once less. -/
theorem tally_update (hworker : worker < mode.maxConnections) (number : Nat)
    (hmoves : (st'.jobs.map Job.number).count number + (new.job?.toList.map Job.number).count number +
        (st'.completions.map Completion.number).count number =
      (st.jobs.map Job.number).count number +
        ((stage worker).job?.toList.map Job.number).count number +
        (st.completions.map Completion.number).count number) :
    tally mode st' (Function.update stage worker new) number = tally mode st stage number := by
  have hsum := @sum_update mode stage worker new hworker number
  unfold tally
  omega

theorem Sound.update (h : Sound floatToInt mode st stage) (hworker : worker < mode.maxConnections)
    (hleases : ∀ w ∈ st'.leases, w = worker ∧ new.leased = true ∨ w ≠ worker ∧ w ∈ st.leases)
    (hnodup : st'.leases.Nodup)
    (hstopped : ∀ w ∈ st'.stopped,
      w = worker ∧ new = .idle ∧ st.closing = true ∨ w ≠ worker ∧ w ∈ st.stopped)
    (hclosing : st'.closing = st.closing) (hsubmitted : st'.submitted = st.submitted)
    (hlives : new ≠ .releasing true ∧ new ≠ .stopping)
    (hanswers : ∀ job response, new = .pushing job response →
      answersJob floatToInt job response = true)
    (hjobs : ∀ job ∈ st'.jobs, job ∈ st.jobs)
    (htaken : ∀ job ∈ new.job?, Known floatToInt st.submitted job)
    (hcompleted : ∀ completion ∈ st'.completions, Completes floatToInt st.submitted completion)
    (hmoves : ∀ number, (st'.jobs.map Job.number).count number +
        (new.job?.toList.map Job.number).count number +
        (st'.completions.map Completion.number).count number =
      (st.jobs.map Job.number).count number +
        ((stage worker).job?.toList.map Job.number).count number +
        (st.completions.map Completion.number).count number) :
    Sound floatToInt mode st' (Function.update stage worker new) where
  leases w hw := by
    rcases hleases w hw with ⟨rfl, hnew⟩ | ⟨hne, hw⟩
    · exact ⟨hworker, by rwa [Function.update_self]⟩
    · rw [Function.update_of_ne hne]
      exact h.leases w hw
  nodup := hnodup
  stopped w hw := by
    rw [hclosing]
    rcases hstopped w hw with ⟨rfl, hnew⟩ | ⟨hne, hw⟩
    · rwa [Function.update_self]
    · rw [Function.update_of_ne hne]
      exact h.stopped w hw
  lives := forall_update (P := fun _ s => s ≠ .releasing true ∧ s ≠ .stopping) h.lives hlives
  answers := forall_update (P := fun _ s => ∀ job response, s = .pushing job response →
    answersJob floatToInt job response = true) h.answers hanswers
  queued job hjob := hsubmitted ▸ h.queued job (hjobs job hjob)
  taken := by
    rw [hsubmitted]
    exact forall_update (P := fun _ s => ∀ job ∈ s.job?, Known floatToInt st.submitted job) h.taken
      htaken
  completed := hsubmitted ▸ hcompleted
  tally number := by rw [tally_update hworker number (hmoves number), h.tally, hsubmitted]
  closed hclosed := by
    have hnil := h.closed (hclosing ▸ hclosed)
    refine List.eq_nil_iff_forall_not_mem.mpr fun job hjob => ?_
    rw [hnil] at hjobs
    exact absurd (hjobs job hjob) List.not_mem_nil

/-- The leases, where the worker keeps its own. -/
theorem Sound.leases_same (h : Sound floatToInt mode st stage)
    (hleased : (stage worker).leased = true → new.leased = true) :
    ∀ w ∈ st.leases, w = worker ∧ new.leased = true ∨ w ≠ worker ∧ w ∈ st.leases := by
  intro w hw
  by_cases heq : w = worker
  · subst heq
    exact .inl ⟨rfl, hleased (h.leases w hw).2⟩
  · exact .inr ⟨heq, hw⟩

/-- A worker in its round has not stopped. -/
theorem Sound.stopped_same (h : Sound floatToInt mode st stage) (hstage : stage worker ≠ .idle) :
    ∀ w ∈ st.stopped, w = worker ∧ new = .idle ∧ st.closing = true ∨ w ≠ worker ∧ w ∈ st.stopped := by
  intro w hw
  refine .inr ⟨?_, hw⟩
  rintro rfl
  exact hstage (h.stopped w hw).1

/-- A worker without a lease is not among those that have one. -/
theorem Sound.not_mem_leases (h : Sound floatToInt mode st stage)
    (hleased : (stage worker).leased = false) : worker ∉ st.leases := fun hmem => by
  rw [(h.leases worker hmem).2] at hleased
  cases hleased

/-- There is a lease for every worker that asks for one. -/
theorem Sound.leases_free (h : Sound floatToInt mode st stage) (hworker : worker < mode.maxConnections)
    (hleased : (stage worker).leased = false) : st.leases.length < mode.maxConnections := by
  have hnodup : (worker :: st.leases).Nodup := h.nodup.cons (h.not_mem_leases hleased)
  have hsub : worker :: st.leases ⊆ List.range mode.maxConnections := by
    intro w hw
    rcases List.mem_cons.mp hw with rfl | hw
    · exact List.mem_range.mpr hworker
    · exact List.mem_range.mpr (h.leases w hw).1
  have hlength := (hnodup.subperm hsub).length_le
  rwa [List.length_cons, List.length_range] at hlength

/-- A section after which the worker still has its job, and nothing else has changed. -/
theorem Sound.stays (h : Sound floatToInt mode st stage) (hworker : worker < mode.maxConnections)
    (hstage : stage worker ≠ .idle) (hleased : (stage worker).leased = true → new.leased = true)
    (hlives : new ≠ .releasing true ∧ new ≠ .stopping)
    (hanswers : ∀ job response, new = .pushing job response →
      answersJob floatToInt job response = true)
    (hjob : new.job? = (stage worker).job?) :
    Sound floatToInt mode st (Function.update stage worker new) := by
  refine h.update hworker (h.leases_same hleased) h.nodup (h.stopped_same hstage) rfl rfl hlives
    hanswers (fun job hmem => hmem) ?_ h.completed fun number => by rw [hjob]
  intro job hmem
  rw [hjob] at hmem
  exact h.taken worker hworker job hmem

/-- A section that completes the job of the worker. -/
theorem Sound.completes (h : Sound floatToInt mode st stage) (hworker : worker < mode.maxConnections)
    {job : Job} (hjob : (stage worker).job? = some job) (hidle : stage worker ≠ .idle)
    (hsame : SameQueue st st') {completion : Completion} (hnumber : completion.number = job.number)
    (hcompletes : Completes floatToInt st.submitted completion)
    (hcompletions : st'.completions = st.completions ++ [completion]) (hnone : new.job? = none)
    (hleased : (stage worker).leased = true → new.leased = true)
    (hlives : new ≠ .releasing true ∧ new ≠ .stopping)
    (hpushing : ∀ job response, new ≠ .pushing job response) :
    Sound floatToInt mode st' (Function.update stage worker new) := by
  refine h.update hworker ?_ (hsame.leases ▸ h.nodup) ?_ hsame.closing hsame.submitted hlives
    (fun job response heq => absurd heq (hpushing job response)) ?_ ?_ ?_ ?_
  · rw [hsame.leases]
    exact h.leases_same hleased
  · rw [hsame.stopped]
    exact h.stopped_same hidle
  · rw [hsame.jobs]
    exact fun job hmem => hmem
  · rw [hnone]
    intro job hmem
    cases hmem
  · rw [hcompletions]
    intro done hdone
    rcases List.mem_append.mp hdone with hdone | hdone
    · exact h.completed done hdone
    · cases List.mem_singleton.mp hdone
      exact hcompletes
  · -- What the worker had is now among the completions.
    intro number
    rw [hjob, hsame.jobs, hcompletions, List.map_append, List.count_append, hnone]
    simp only [Option.toList_some, Option.toList_none, List.map_cons, List.map_nil, List.count_nil,
      hnumber]
    omega

/-- A section of a worker keeps the dispatcher sound. -/
theorem Sound.workerStep (h : Sound floatToInt mode st stage) (hworker : worker < mode.maxConnections)
    {outside : Outside}
    (hstep : WorkerStep floatToInt toValue worker st outside (stage worker) new st')
    (hanswered : ∀ job response, stage worker = .exchanging job → outside = .responds response →
      answersJob floatToInt job response = true) :
    Sound floatToInt mode st' (Function.update stage worker new) := by
  have hlives := h.lives worker hworker
  have htaken := h.taken worker hworker
  generalize hstage : stage worker = old at hstep hlives htaken
  cases hstep with
  | take hjobs =>
      refine h.update hworker (h.leases_same (by simp [hstage, Stage.leased])) h.nodup
        (h.stopped_same (by simp [hstage])) rfl rfl (by simp) (by simp) ?_ ?_ h.completed ?_
      · intro job hjob
        rw [hjobs]
        exact List.mem_cons_of_mem _ hjob
      · intro job hjob
        cases hjob
        exact h.queued _ (hjobs ▸ List.mem_cons_self ..)
      · intro number
        simp only [hstage, hjobs, Stage.job?, Option.toList_some, Option.toList_none, List.map_cons,
          List.map_nil, List.count_cons, List.count_nil]
        omega
  | leave hjobs hclosing =>
      refine h.update hworker (h.leases_same (by simp [hstage, Stage.leased])) h.nodup ?_ rfl rfl
        (by simp) (by simp) (fun job hjob => hjob) (by simp [Stage.job?]) h.completed ?_
      · intro w hw
        rcases List.mem_cons.mp hw with rfl | hw
        · exact .inl ⟨rfl, rfl, hclosing⟩
        · exact h.stopped_same (by simp [hstage]) w hw
      · intro number
        rw [hstage]
        rfl
  | lease job =>
      have hnot : worker ∉ st.leases := h.not_mem_leases (by simp [hstage, Stage.leased])
      refine h.update hworker ?_ (h.nodup.cons hnot) (h.stopped_same (by simp [hstage])) rfl rfl
        (by simp) (by simp) (fun job hjob => hjob) (fun job hjob => htaken job hjob) h.completed ?_
      · intro w hw
        rcases List.mem_cons.mp hw with rfl | hw
        · exact .inl ⟨rfl, rfl⟩
        · exact .inr ⟨fun heq => hnot (heq ▸ hw), hw⟩
      · intro number
        rw [hstage]
        rfl
  | leaseFails job errorName =>
      exact h.stays hworker (by simp [hstage]) (by simp [hstage, Stage.leased]) (by simp) (by simp)
        (by rw [hstage]; rfl)
  | respond job response =>
      refine h.stays hworker (by simp [hstage]) (fun _ => rfl) (by simp) ?_ (by rw [hstage]; rfl)
      intro job' response' heq
      cases heq
      exact hanswered job response hstage rfl
  | exchangeFails job errorName =>
      exact h.stays hworker (by simp [hstage]) (fun _ => rfl) (by simp) (by simp)
        (by rw [hstage]; rfl)
  | @push _ job response envelope hparse =>
      obtain ⟨hsame, completion, hnumber, hfits, hcompletions⟩ :=
        @pushEnvelope_spec toValue st job.number envelope
      obtain ⟨htext, request, hrequest⟩ := htaken job rfl
      have hids := h.answers worker hworker job response hstage
      simp only [answersJob, hparse, hrequest, decide_eq_true_eq] at hids
      have hcompletes : Completes floatToInt st.submitted completion := ⟨_, request, hnumber ▸ htext,
        hrequest, hfits.1.trans hids.1, hfits.2.1.trans hids.2, hfits.2.2⟩
      exact h.completes hworker (by rw [hstage]; rfl) (by simp [hstage]) hsame hnumber hcompletes
        hcompletions rfl (fun _ => rfl) (by simp) (by simp)
  | @invalid _ job response hparse =>
      have hids := h.answers worker hworker job response hstage
      rw [answersJob, hparse] at hids
      cases hids
  | fail job errorName leased =>
      obtain ⟨htext, request, hrequest⟩ := htaken job rfl
      obtain ⟨hsame, completion, hnumber, hfits, hcompletions⟩ :=
        @completeFailed_spec floatToInt toValue st _ _ errorName hrequest
      -- A worker that had a lease goes on to give it back.
      refine h.completes hworker (by rw [hstage]; rfl) (by simp [hstage]) hsame hnumber
        ⟨_, request, hnumber ▸ htext, hrequest, hfits⟩ hcompletions ?_ ?_ ?_ ?_
      · cases leased <;> rfl
      · intro hleased
        rw [hstage] at hleased
        cases hleased
        rfl
      · cases leased <;> simp
      · cases leased <;> simp
  | release failed =>
      cases failed with
      | true => exact absurd rfl hlives.1
      | false =>
          refine h.update hworker ?_ (h.nodup.erase worker) ?_ rfl rfl (by simp) (by simp)
            (fun job hjob => hjob) (by simp [Stage.job?]) h.completed ?_
          · intro w hw
            obtain ⟨hne, hw⟩ := h.nodup.mem_erase_iff.mp hw
            exact .inr ⟨hne, hw⟩
          · exact h.stopped_same (by simp [hstage])
          · intro number
            rw [hstage]
            rfl
  | stop => exact absurd rfl hlives.2

/-! ### Sections of the client library -/

/-- What a section of the client library does to the queue. -/
inductive ClientStep (floatToInt : Bytes → Option Int) (toValue : Json → JsonValue)
    (st : DispatcherState) : DispatcherSection → Wake → DispatcherState → Prop
  | router (o : DispatcherSection) (router : ConversationRouter) :
      ClientStep floatToInt toValue st o .nobody { st with router }
  | submit {envelopeJson : Bytes} (h : st.closing = false) :
      ClientStep floatToInt toValue st (.submit envelopeJson) .one { st with
        jobs := st.jobs ++ [⟨st.submitted.length, envelopeJson⟩]
        submitted := st.submitted ++ [envelopeJson] }
  | close : ClientStep floatToInt toValue st .close .all (st.close floatToInt toValue)

/-- The specification of these sections; none of them waits. -/
theorem client_returns {outside : Outside} {o : DispatcherSection} (hclient : o.isClient = true) :
    ∃ r st' wake, DispatcherState.attempt floatToInt toValue mode outside o st = .returns r st' wake ∧
      ClientStep floatToInt toValue st o wake st' := by
  cases o with
  | registerConversation conversationId => exact ⟨_, _, _, rfl, .router _ _⟩
  | unregisterConversation conversationId => exact ⟨_, _, _, rfl, .router _ _⟩
  | takeEnvelope conversationId requestId =>
      simp only [DispatcherState.attempt]
      split
      · exact ⟨_, _, _, rfl, .router _ st.router⟩
      · exact ⟨_, _, _, rfl, .router _ _⟩
  | submit envelopeJson =>
      simp only [DispatcherState.attempt]
      split
      · exact ⟨_, _, _, rfl, .router _ st.router⟩
      · rename_i hclosing
        exact ⟨_, _, _, rfl, .submit (Bool.eq_false_iff.mpr hclosing)⟩
  | close => exact ⟨_, _, _, rfl, .close⟩
  | nextJob worker => cases hclient
  | checkout worker => cases hclient
  | requestJson job => cases hclient
  | completeFailed job errorName => cases hclient
  | pushEnvelopeBytes job response => cases hclient
  | releaseLease worker => cases hclient
  | stop worker => cases hclient

/-- A job stays known when another is submitted. -/
theorem Known.snoc {submitted : List Bytes} {job : Job} (h : Known floatToInt submitted job)
    (text : Bytes) : Known floatToInt (submitted ++ [text]) job := by
  obtain ⟨hlt, -⟩ := List.getElem?_eq_some_iff.mp h.1
  exact ⟨by rw [List.getElem?_append_left hlt, h.1], h.2⟩

theorem Completes.snoc {submitted : List Bytes} {completion : Completion}
    (h : Completes floatToInt submitted completion) (text : Bytes) :
    Completes floatToInt (submitted ++ [text]) completion := by
  obtain ⟨job, request, htext, hrest⟩ := h
  obtain ⟨hlt, -⟩ := List.getElem?_eq_some_iff.mp htext
  exact ⟨job, request, by rw [List.getElem?_append_left hlt, htext], hrest⟩

/-- A section of the client library keeps the dispatcher sound, if what it submits parses. -/
theorem Sound.clientStep (h : Sound floatToInt mode st stage) {o : DispatcherSection} {wake : Wake}
    (hstep : ClientStep floatToInt toValue st o wake st')
    (hparses : ∀ envelopeJson, o = .submit envelopeJson →
      (parseConversationEnvelope floatToInt envelopeJson).isSome = true) :
    Sound floatToInt mode st' stage := by
  cases hstep with
  | router o router =>
      exact ⟨h.leases, h.nodup, h.stopped, h.lives, h.answers, h.queued, h.taken, h.completed,
        h.tally, h.closed⟩
  | @submit envelopeJson hclosing =>
      obtain ⟨request, hrequest⟩ := Option.isSome_iff_exists.mp (hparses envelopeJson rfl)
      refine ⟨h.leases, h.nodup, h.stopped, h.lives, h.answers, ?_, ?_, ?_, ?_, ?_⟩
      · intro job hjob
        rcases List.mem_append.mp hjob with hjob | hjob
        · exact (h.queued job hjob).snoc envelopeJson
        · cases List.mem_singleton.mp hjob
          exact ⟨by simp, request, hrequest⟩
      · exact fun worker hworker job hjob => (h.taken worker hworker job hjob).snoc envelopeJson
      · exact fun completion hcompletion => (h.completed completion hcompletion).snoc envelopeJson
      · intro number
        have htally := h.tally number
        unfold Client.tally at htally ⊢
        simp only [List.map_append, List.map_cons, List.map_nil, List.count_append,
          List.count_singleton, List.length_append, List.length_singleton, beq_iff_eq]
        split at htally <;> split <;> split <;> omega
      · intro hclosed
        rw [show st.closing = true from hclosed] at hclosing
        cases hclosing
  | close =>
      obtain ⟨hsame, more, hmore, hnumbers, hall⟩ := @foldl_completeFailed_spec
        floatToInt toValue { st with closing := true } (ascii "ClientShuttingDown") _ h.queued
      unfold DispatcherState.close
      refine ⟨?_, ?_, ?_, h.lives, h.answers, ?_, ?_, ?_, ?_, ?_⟩
      · simpa only [hsame.leases] using h.leases
      · simpa only [hsame.leases] using h.nodup
      · intro worker hworker
        rw [hsame.stopped] at hworker
        exact ⟨(h.stopped worker hworker).1, hsame.closing⟩
      · exact fun job hjob => absurd hjob List.not_mem_nil
      · simpa only [hsame.submitted] using h.taken
      · simp only [hsame.submitted, hmore]
        intro completion hcompletion
        rcases List.mem_append.mp hcompletion with hcompletion | hcompletion
        · exact h.completed completion hcompletion
        · exact hall completion hcompletion
      · intro number
        have htally := h.tally number
        unfold Client.tally at htally ⊢
        simp only [hsame.submitted, hmore, List.map_append, List.count_append, hnumbers,
          List.map_nil, List.count_nil]
        rw [← htally]
        omega
      · exact fun _ => rfl

/-! ### Where the threads go -/

theorem AtStage.next {o : DispatcherSection} {rest : DispatcherResult → DispatcherTask}
    {old : Stage} (h : AtStage c worker old) (hnext : c.next worker = some (o, rest)) :
    old.task worker = .call o rest := by
  unfold Monitor.Config.next at hnext
  rcases h with hthread | ⟨rfl, o', rest', hround, hthread⟩
  · rw [hthread] at hnext
    split at hnext
    · cases hnext
    · rename_i o' rest' heq
      cases hnext
      exact Thread.running.inj heq
    · rename_i heq
      cases heq
  · rw [hthread] at hnext
    simp only at hnext
    split at hnext
    · cases hnext
    · cases hnext
      exact hround

/-- A worker between two rounds. -/
theorem AtStage.idle {old : Stage} (h : AtStage c worker old)
    (hthread : c.thread worker = .running .done) : old = .idle := by
  rcases h with hstage | ⟨-, o, rest, -, hwaiting⟩
  · rw [hthread] at hstage
    have htask := Thread.running.inj hstage
    cases old with
    | idle => rfl
    | _ => cases htask
  · rw [hthread] at hwaiting
    cases hwaiting

theorem AtClient.next {o : DispatcherSection} {rest : DispatcherResult → DispatcherTask} {t : Nat}
    (h : AtClient floatToInt c t) (hnext : c.next t = some (o, rest)) :
    o.isClient = true ∧ (∀ r, rest r = .done) ∧ ∀ envelopeJson, o = .submit envelopeJson →
      (parseConversationEnvelope floatToInt envelopeJson).isSome = true := by
  unfold Monitor.Config.next at hnext
  rcases h with hthread | ⟨o', hclient, hthread, hparses⟩
  · rw [hthread] at hnext
    cases hnext
  · rw [hthread] at hnext
    cases hnext
    exact ⟨hclient, fun _ => rfl, hparses⟩

/-- A worker moves on. -/
theorem Placed.update_worker (h : Placed floatToInt mode c stage) (hworker : worker < mode.maxConnections)
    (hat : AtStage c' worker new) (hother : ∀ t, t ≠ worker → c'.thread t = c.thread t) :
    Placed floatToInt mode c' (Function.update stage worker new) where
  workers w hw := by
    by_cases heq : w = worker
    · subst heq
      rwa [Function.update_self]
    · rw [Function.update_of_ne heq, AtStage, hother w heq]
      exact h.workers w hw
  clients t ht := by
    rw [AtClient, hother t (by omega)]
    exact h.clients t ht

/-- Another thread moves on. -/
theorem Placed.update_client (h : Placed floatToInt mode c stage) {t : Nat} (ht : mode.maxConnections ≤ t)
    (hat : AtClient floatToInt c' t) (hother : ∀ u, u ≠ t → c'.thread u = c.thread u) :
    Placed floatToInt mode c' stage where
  workers w hw := by
    rw [AtStage, hother w (by omega)]
    exact h.workers w hw
  clients u hu := by
    by_cases heq : u = t
    · exact heq ▸ hat
    · rw [AtClient, hother u heq]
      exact h.clients u hu

/-- Only workers sleep, and they wait for a job. -/
theorem Placed.waiting (h : Placed floatToInt mode c stage) {t : Nat} {o : DispatcherSection}
    {rest : DispatcherResult → DispatcherTask} (hwaiting : c.thread t = .waiting o rest) :
    t < mode.maxConnections ∧ stage t = .taking := by
  rcases Nat.lt_or_ge t mode.maxConnections with ht | ht
  · rcases h.workers t ht with hthread | ⟨hstage, -⟩
    · rw [hwaiting] at hthread
      cases hthread
    · exact ⟨ht, hstage⟩
  · rcases h.clients t ht with hthread | ⟨o', -, hthread, -⟩ <;>
      · rw [hwaiting] at hthread
        cases hthread

/-! ### The invariant of a run -/

/-- What holds between two steps of a run. -/
structure Orderly (floatToInt : Bytes → Option Int) (mode : CompatibilityTransportMode)
    (c : DispatcherConfig) (stage : Nat → Stage) : Prop where
  placed : Placed floatToInt mode c stage
  sound : Sound floatToInt mode c.state stage
  attended : Attended mode c

theorem Attended.of_subset (h : Attended mode c) (hjobs : c'.state.jobs = c.state.jobs)
    (hstopped : c'.state.stopped = c.state.stopped) (hasleep : c'.asleep ⊆ c.asleep) :
    Attended mode c' := by
  intro hne
  obtain ⟨worker, hworker, hawake, hlives⟩ := h (hjobs ▸ hne)
  exact ⟨worker, hworker, fun hmem => hawake (hasleep hmem), hstopped ▸ hlives⟩

/-- A worker whose section has returned is there for the jobs that are left. -/
theorem WorkerStep.attends {outside : Outside} {old : Stage}
    (h : WorkerStep floatToInt toValue worker st outside old new st') (hold : old ≠ .stopping)
    (hlives : worker ∉ st.stopped) (hjobs : st'.jobs ≠ []) : worker ∉ st'.stopped := by
  cases h with
  | take h => exact hlives
  | leave h hclosing => exact absurd h hjobs
  | lease job => exact hlives
  | leaseFails job errorName => exact hlives
  | respond job response => exact hlives
  | exchangeFails job errorName => exact hlives
  | push job h => rwa [(pushEnvelope_spec _ _).1.stopped]
  | invalid job h => exact hlives
  | fail job errorName leased =>
      unfold DispatcherState.completeFailed
      split
      · exact hlives
      · split
        · exact hlives
        · rwa [(pushEnvelope_spec _ _).1.stopped]
  | release failed => exact hlives
  | stop => exact absurd rfl hold

/-- A signal leaves at least one worker awake. -/
theorem exists_awake {asleep : List Nat} (hnodup : asleep.Nodup)
    (hworkers : ∀ t ∈ asleep, t < mode.maxConnections) (sleeper : Nat) :
    ∃ worker < mode.maxConnections, worker ∉ Monitor.stillAsleep .one sleeper asleep := by
  have hpos := maxConnections_pos mode
  have hlength : asleep.length ≤ mode.maxConnections := by
    have hsub : asleep ⊆ List.range mode.maxConnections :=
      fun t ht => List.mem_range.mpr (hworkers t ht)
    simpa using (hnodup.subperm hsub).length_le
  have hshort : (Monitor.stillAsleep .one sleeper asleep).length < mode.maxConnections := by
    cases asleep with
    | nil => exact hpos
    | cons t asleep =>
        have hindex : sleeper % (t :: asleep).length < (t :: asleep).length :=
          Nat.mod_lt _ (Nat.succ_pos _)
        rw [Monitor.stillAsleep, List.length_eraseIdx_of_lt hindex]
        omega
  by_contra hall
  push Not at hall
  have hsub : List.range mode.maxConnections ⊆ Monitor.stillAsleep .one sleeper asleep :=
    fun worker hworker => hall worker (List.mem_range.mp hworker)
  have hle := (List.nodup_range.subperm hsub).length_le
  rw [List.length_range] at hle
  omega

/-- A step of a worker. -/
theorem Orderly.worker_returns {outside : Outside} {o : DispatcherSection}
    {rest : DispatcherResult → DispatcherTask} {r : DispatcherResult} {wake : Wake} {sleeper : Nat}
    (h : Orderly floatToInt mode c stage) (hworker : worker < mode.maxConnections)
    (hawake : worker ∉ c.asleep)
    (hcond : Answered floatToInt c (.enter worker outside sleeper))
    (hnext : c.next worker = some (o, rest))
    (hattempt : DispatcherState.attempt floatToInt toValue mode outside o c.state =
      .returns r st' wake) :
    ∃ stage, Orderly floatToInt mode
      ⟨st', Function.update c.thread worker (.running (rest r)),
        Monitor.stillAsleep wake sleeper c.asleep⟩ stage := by
  have htask := (h.placed.workers worker hworker).next hnext
  obtain ⟨new, hrest, rfl, hstep⟩ := Client.worker_returns htask hattempt
  have hanswered : ∀ job response, stage worker = .exchanging job → outside = .responds response →
      answersJob floatToInt job response = true := by
    rintro job response hstage rfl
    rw [hstage] at htask
    cases htask
    simpa only [Answered, hnext] using hcond
  have hidle : stage worker ≠ .idle := by
    intro hstage
    rw [hstage] at htask
    cases htask
  refine ⟨_, ⟨h.placed.update_worker hworker (.inl ?_) ?_,
    h.sound.workerStep hworker hstep hanswered, fun hjobs => ⟨worker, hworker, hawake, ?_⟩⟩⟩
  · simp [hrest]
  · intro t hne
    exact Function.update_of_ne hne ..
  · refine hstep.attends (h.sound.lives worker hworker).2 ?_ hjobs
    exact fun hmem => hidle (h.sound.stopped worker hmem).1

/-- A step of another thread. -/
theorem Orderly.client_returns {outside : Outside} {o : DispatcherSection} {t : Nat}
    {rest : DispatcherResult → DispatcherTask} {r : DispatcherResult} {wake : Wake} {sleeper : Nat}
    (h : Orderly floatToInt mode c stage) (ht : mode.maxConnections ≤ t)
    (hnodup : c.asleep.Nodup) (hwait : ∀ t ∈ c.asleep, ∃ o rest, c.thread t = .waiting o rest)
    (hnext : c.next t = some (o, rest))
    (hattempt : DispatcherState.attempt floatToInt toValue mode outside o c.state =
      .returns r st' wake) :
    Orderly floatToInt mode
      ⟨st', Function.update c.thread t (.running (rest r)),
        Monitor.stillAsleep wake sleeper c.asleep⟩ stage := by
  obtain ⟨hclient, hrest, hparses⟩ := (h.placed.clients t ht).next hnext
  obtain ⟨_, _, _, hreturns, hstep⟩ := Client.client_returns hclient
  rw [hattempt] at hreturns
  cases hreturns
  refine ⟨h.placed.update_client ht (.inl ?_) fun u hne => Function.update_of_ne hne ..,
    h.sound.clientStep hstep hparses, ?_⟩
  · simp [hrest]
  · cases hstep with
    | router o router => exact h.attended.of_subset rfl rfl fun u hu => hu
    | submit hclosing =>
        have hworkers : ∀ t ∈ c.asleep, t < mode.maxConnections := by
          intro t ht
          obtain ⟨o, rest, hwaiting⟩ := hwait t ht
          exact (h.placed.waiting hwaiting).1
        obtain ⟨worker, hworker, hawake⟩ := exists_awake hnodup hworkers sleeper
        refine fun _ => ⟨worker, hworker, hawake, fun hmem => ?_⟩
        rw [(h.sound.stopped worker hmem).2] at hclosing
        cases hclosing
    | close => exact fun hne => absurd rfl hne

/-- The invariant. -/
theorem exists_orderly
    (h : (dispatcherMonitor floatToInt toValue mode).Reaches (Answered floatToInt)
      DispatcherConfig.start history c) :
    ∃ stage, Orderly floatToInt mode c stage := by
  refine h.invariant (I := fun _ c => ∃ stage, Orderly floatToInt mode c stage) ?_ ?_
  · refine ⟨fun _ => .idle, ⟨fun _ _ => .inl rfl, fun _ _ => .inl rfl⟩, ?_, fun hne => absurd rfl hne⟩
    refine ⟨by simp [DispatcherConfig.start, Monitor.Config.idle, DispatcherState.init],
      List.nodup_nil,
      by simp [DispatcherConfig.start, Monitor.Config.idle, DispatcherState.init],
      by simp, by simp, ?_, by simp [Stage.job?], ?_, ?_, fun _ => rfl⟩
    · exact fun job hjob => absurd hjob List.not_mem_nil
    · exact fun completion hcompletion => absurd hcompletion List.not_mem_nil
    · simp [tally, DispatcherConfig.start, Monitor.Config.idle, DispatcherState.init, Stage.job?]
  · rintro c c' history move returned hreach ⟨stage, horderly⟩ hcond hstep
    obtain ⟨hnodup, hwait⟩ := hreach.sleepers rfl
    rcases Monitor.step_cases hstep with ⟨t, m, rfl, hthread, hstarts, -, rfl⟩ |
      ⟨t, choice, sleeper, o, rest, rfl, hnext, hattempt, -, rfl⟩ |
      ⟨t, choice, sleeper, o, rest, r, s, wake, rfl, hnext, hattempt, -, rfl⟩ | ⟨t, -, hmem, -, rfl⟩
    · cases m with
      | client o =>
          simp only [dispatcherMonitor, Bool.and_eq_true, decide_eq_true_eq] at hstarts
          refine ⟨stage, horderly.placed.update_client hstarts.2 (.inr ⟨o, hstarts.1, ?_, ?_⟩)
            fun u hne => Function.update_of_ne hne .., horderly.sound, horderly.attended⟩
          · simp [dispatcherMonitor]
          · rintro envelopeJson rfl
            exact hcond
      | round worker =>
          simp only [dispatcherMonitor, decide_eq_true_eq] at hstarts
          obtain ⟨rfl, hworker, hlives⟩ := hstarts
          have hidle := (horderly.placed.workers t hworker).idle hthread
          refine ⟨Function.update _ _ .taking, horderly.placed.update_worker hworker (.inl ?_)
            fun u hne => Function.update_of_ne hne .., ?_, horderly.attended⟩
          · simp [dispatcherMonitor, Stage.task]
          · refine horderly.sound.update hworker (horderly.sound.leases_same ?_) horderly.sound.nodup
              ?_ rfl rfl (by simp) (by simp) (fun job hjob => hjob) (by simp [Stage.job?])
              horderly.sound.completed ?_
            · simp [hidle, Stage.leased]
            · exact fun w hw => .inr ⟨fun heq => hlives (heq ▸ hw), hw⟩
            · intro number
              rw [hidle]
              rfl
    · rcases Nat.lt_or_ge t mode.maxConnections with hworker | hclient
      · have hstage := horderly.placed.workers t hworker
        rcases Client.worker_waits (hstage.next hnext) hattempt with ⟨htaking, hjobs⟩ |
          ⟨job, hchecking, hleases⟩
        · have htask := htaking ▸ hstage.next hnext
          refine ⟨Function.update stage t .taking, ?_, ?_, fun hne => absurd hjobs hne⟩
          · refine horderly.placed.update_worker hworker (.inr ⟨rfl, o, rest, htask, ?_⟩)
              fun u hne => Function.update_of_ne hne ..
            simp
          · rw [← htaking, Function.update_eq_self]
            exact horderly.sound
        · have hfree := horderly.sound.leases_free hworker (by rw [hchecking]; rfl)
          omega
      · have hisClient := ((horderly.placed.clients t hclient).next hnext).1
        obtain ⟨_, _, _, hreturns, -⟩ := Client.client_returns hisClient
        have hattempt' : DispatcherState.attempt floatToInt toValue mode choice o c.state = .waits :=
          hattempt
        rw [hreturns] at hattempt'
        cases hattempt'
    · rcases Nat.lt_or_ge t mode.maxConnections with hworker | hclient
      · exact horderly.worker_returns hworker (Monitor.not_mem_asleep_of_next hwait hnext) hcond hnext
          hattempt
      · exact ⟨stage, horderly.client_returns hclient hnodup hwait hnext hattempt⟩
    · exact ⟨stage, ⟨horderly.placed.workers, horderly.placed.clients⟩, horderly.sound,
        horderly.attended.of_subset rfl rfl List.erase_subset⟩

/-! ## Every job is completed -/

/-- How many envelopes have completed a job. -/
def DispatcherState.completedBy (st : DispatcherState) (number : Nat) : Nat :=
  (st.completions.map Completion.number).count number

/-- No worker has anything left to do. -/
def AtRest (mode : CompatibilityTransportMode) (c : DispatcherConfig) : Prop :=
  ∀ worker < mode.maxConnections, worker ∈ c.asleep ∨ worker ∈ c.state.stopped

/-- The promise of the dispatcher. -/
structure Completing (floatToInt : Bytes → Option Int) (toValue : Json → JsonValue)
    (mode : CompatibilityTransportMode) (c : DispatcherConfig) : Prop where
  /-- No worker stops before the dispatcher closes. -/
  lives : ∀ worker ∈ c.state.stopped, c.state.closing = true
  /-- Each envelope is one for a job that was submitted. -/
  completed : ∀ completion ∈ c.state.completions,
    Completes floatToInt c.state.submitted completion
  once : ∀ number, c.state.completedBy number ≤ 1
  /-- A worker that neither sleeps nor has stopped has a step to take. -/
  moves : ∀ worker < mode.maxConnections, worker ∉ c.asleep → worker ∉ c.state.stopped →
    ∃ move, (move = .start worker (.round worker) ∨ move = .enter worker .nothing 0) ∧
      (c.step (dispatcherMonitor floatToInt toValue mode) move).isSome = true
  /-- When the workers are at rest, all jobs have been completed. -/
  all : AtRest mode c → ∀ number < c.state.submitted.length, c.state.completedBy number = 1

/-- A worker at rest has no job. -/
theorem Orderly.job_eq_none (h : Orderly floatToInt mode c stage)
    (hwait : ∀ t ∈ c.asleep, ∃ o rest, c.thread t = .waiting o rest)
    (hrest : worker ∈ c.asleep ∨ worker ∈ c.state.stopped) : (stage worker).job? = none := by
  rcases hrest with hasleep | hstopped
  · obtain ⟨o, rest, hwaiting⟩ := hwait worker hasleep
    rw [(h.placed.waiting hwaiting).2]
    rfl
  · rw [(h.sound.stopped worker hstopped).1]
    rfl

/-- At rest, every job has been completed. -/
theorem Orderly.completedBy_of_atRest (h : Orderly floatToInt mode c stage)
    (hwait : ∀ t ∈ c.asleep, ∃ o rest, c.thread t = .waiting o rest) (hrest : AtRest mode c)
    {number : Nat} (hnumber : number < c.state.submitted.length) :
    c.state.completedBy number = 1 := by
  have hjobs : c.state.jobs = [] := by
    by_contra hne
    obtain ⟨worker, hworker, hawake, hlives⟩ := h.attended hne
    exact (hrest worker hworker).elim hawake hlives
  have hheld : ∑ worker ∈ Finset.range mode.maxConnections,
      ((stage worker).job?.toList.map Job.number).count number = 0 := by
    refine Finset.sum_eq_zero fun worker hworker => ?_
    rw [h.job_eq_none hwait (hrest worker (Finset.mem_range.mp hworker))]
    rfl
  have htally := h.sound.tally number
  unfold tally at htally
  rw [hjobs, hheld, if_pos hnumber] at htally
  simpa [DispatcherState.completedBy] using htally

/-- A worker that is awake has a step to take. -/
theorem exists_move (hworker : worker < mode.maxConnections) (hawake : worker ∉ c.asleep)
    (hlives : worker ∉ c.state.stopped) :
    ∃ move, (move = .start worker (.round worker) ∨ move = .enter worker .nothing 0) ∧
      (c.step (dispatcherMonitor floatToInt toValue mode) move).isSome = true := by
  cases hthread : c.thread worker with
  | running task =>
      cases task with
      | done =>
          refine ⟨.start worker (.round worker), .inl rfl, ?_⟩
          simp [Monitor.Config.step, hthread, dispatcherMonitor, hworker, hlives]
      | call o rest =>
          refine ⟨.enter worker .nothing 0, .inr rfl, ?_⟩
          simp only [Monitor.Config.step, Monitor.Config.next, hthread]
          split <;> rfl
  | waiting o rest =>
      refine ⟨.enter worker .nothing 0, .inr rfl, ?_⟩
      simp only [Monitor.Config.step, Monitor.Config.next, hthread, if_neg hawake]
      split <;> rfl

/-- Where every submitted text parses and every response is an envelope for its job, every job is
completed by exactly one envelope, and the workers live until the dispatcher closes. -/
theorem dispatcher_completes
    (h : (dispatcherMonitor floatToInt toValue mode).Reaches (Answered floatToInt)
      DispatcherConfig.start history c) :
    Completing floatToInt toValue mode c := by
  obtain ⟨stage, horderly⟩ := exists_orderly h
  refine ⟨fun worker hworker => (horderly.sound.stopped worker hworker).2, horderly.sound.completed,
    fun number => ?_, fun worker => exists_move,
    fun hrest number => horderly.completedBy_of_atRest (h.sleepers rfl).2 hrest⟩
  have htally := horderly.sound.tally number
  unfold tally at htally
  unfold DispatcherState.completedBy
  split at htally <;> omega

end Runs

/-- The request of the runs below, which also serves as its response. -/
def rpcJob : Bytes :=
  ascii "\x7b\"conversationId\":\"c\",\"requestId\":7,\"kind\":\"rpc\",\"payload\":1\x7d"

theorem dispatcher_completes_rpc : ∃ history c,
    (dispatcherMonitor (fun _ => none) (fun _ => .null) .sharedConnection).Reaches
      (Answered fun _ => none) DispatcherConfig.start history c ∧
      AtRest .sharedConnection c ∧ c.state.submitted = [rpcJob] ∧ c.state.completedBy 0 = 1 ∧
      Completing (fun _ => none) (fun _ => .null) .sharedConnection c := by
  obtain ⟨history, c, hreach, htest⟩ := Monitor.Reaches.exists_of_follow
    (M := dispatcherMonitor (fun _ => none) (fun _ => .null) .sharedConnection)
    (Answered fun _ => none) DispatcherConfig.start
    [.start 1 (.client (.registerConversation (ascii "c"))), .enter 1 .nothing 0,
      .start 0 (.round 0), .enter 0 .nothing 0,
      .start 1 (.client (.submit rpcJob)), .enter 1 .nothing 0,
      .enter 0 .nothing 0, .enter 0 .nothing 0, .enter 0 (.responds rpcJob) 0,
      .enter 0 .nothing 0, .enter 0 .nothing 0,
      .start 0 (.round 0), .enter 0 .nothing 0]
    (fun c => decide (c.asleep = [0]) && decide (c.state.submitted = [rpcJob]))
    (by decide +kernel)
  simp only [Bool.and_eq_true, decide_eq_true_eq] at htest
  have hcompleting := dispatcher_completes hreach
  have hrest : AtRest .sharedConnection c := by
    intro worker hworker
    rw [htest.1, Nat.lt_one_iff.mp hworker]
    exact .inl (List.mem_singleton_self 0)
  exact ⟨history, c, hreach, hrest, htest.2,
    hcompleting.all hrest 0 (by rw [htest.2]; decide), hcompleting⟩

/-- The server answers with two bytes that are no envelope: the only worker stops, and its job is
never completed. -/
theorem invalid_response_stops_worker : ∃ history c,
    (dispatcherMonitor (fun _ => none) (fun _ => .null) .sharedConnection).Reaches
      Monitor.anyMove DispatcherConfig.start history c ∧
      c.state.submitted = [rpcJob] ∧ c.state.stopped = [0] ∧ c.state.completedBy 0 = 0 ∧
      ¬Completing (fun _ => none) (fun _ => .null) .sharedConnection c := by
  obtain ⟨history, c, hreach, htest⟩ := Monitor.Reaches.exists_of_follow
    (M := dispatcherMonitor (fun _ => none) (fun _ => .null) .sharedConnection)
    Monitor.anyMove DispatcherConfig.start
    [.start 1 (.client (.registerConversation (ascii "c"))), .enter 1 .nothing 0,
      .start 1 (.client (.submit rpcJob)), .enter 1 .nothing 0,
      .start 0 (.round 0), .enter 0 .nothing 0, .enter 0 .nothing 0,
      .enter 0 (.responds (ascii "[]")) 0, .enter 0 .nothing 0, .enter 0 .nothing 0,
      .enter 0 .nothing 0]
    (fun c => decide (c.state.submitted = [rpcJob]) && decide (c.state.stopped = [0]) &&
      decide (c.state.completedBy 0 = 0) && !c.state.closing)
    (by decide +kernel)
  simp only [Bool.and_eq_true, decide_eq_true_eq, Bool.not_eq_true'] at htest
  obtain ⟨⟨⟨hsubmitted, hstopped⟩, hcount⟩, hclosing⟩ := htest
  refine ⟨history, c, hreach, hsubmitted, hstopped, hcount, fun h => ?_⟩
  rw [h.lives 0 (hstopped ▸ List.mem_singleton_self 0)] at hclosing
  cases hclosing

end Muxly.Client
