/-
# Muxly.Daemon.Survival -- no request of a document in range panics

A request is `InRange` when the ids it names are positive, its durations fit the clock, and its
viewport fits the screen coordinates. A document is `Roomy` when it is valid, there is an id left for
a node, and no node has more children than a screen has rows. Under these two conditions planning,
taking and releasing the guard and every handler answer, or fail with an error that the request is
told about; they do not panic and no loop runs out.
-/
import Muxly.Daemon.HalfDone
import Muxly.Daemon.Upkeep
import Muxly.Sync.Yields

namespace Muxly.Daemon

open Muxly.Control Muxly.Core Muxly.Sync Muxly.Tree
open Document

variable {α : Type} {d : Document} {request : RequestEnvelope}

/-! ## Ranges -/

/-- The numbers of a request, as far as a handler converts or asserts them. -/
structure RequestEnvelope.InRange (request : RequestEnvelope) : Prop where
  target : request.target.bind (·.nodeId) ≠ some 0
  selector : ∀ text, request.target.bind (·.selector) = some text → SelectorInRange text
  nodeId : ∀ x, request.integer "nodeId" = some x → 0 < x
  parentId : ∀ x, request.integer "parentId" = some x → 0 < x
  ms : ∀ x, request.integer "ms" = some x → x * 1000000 < u64Limit
  pauseMs : ∀ x, request.integer "pauseMs" = some x → x * 1000000 < u64Limit
  rows : ∀ x, request.integer "rows" = some x → x < u16Limit
  cols : ∀ x, request.integer "cols" = some x → x < u16Limit

/-- A document that a request can be carried out on. -/
structure Roomy (d : Document) : Prop where
  valid : Valid d
  tidy : Tidy d
  narrow : Narrow d
  room : d.nextNodeId + 1 < u64Limit

theorem Roomy.sane {e : DocumentEntry} (h : Roomy e.document) : Sane e := ⟨h.valid, h.tidy⟩

/-! ## Node targets -/

section Targets

variable (hrange : request.InRange)
include hrange

/-- The node id of a request, and what a handler makes of it. -/
theorem RequestEnvelope.InRange.target_pos {value : UInt64} (h : request.target.bind (·.nodeId) = some value) :
    value.toNat ≠ 0 := by
  intro hzero
  refine hrange.target ?_
  have hvalue : value = 0 := UInt64.toNat_inj.mp hzero
  rw [h, hvalue]

variable (hv : Valid d)
include hv

theorem resolveRequestNodeId_pos :
    Delivers Reported (resolveRequestNodeId d request) fun x => x ≠ 0 := by
  unfold resolveRequestNodeId
  cases htarget : request.target.bind (·.nodeId) with
  | some value => exact delivers_ok (hrange.target_pos htarget)
  | none =>
      cases hselector : request.target.bind (·.selector) with
      | some text =>
          have hlive := resolveSelector_live hv (hrange.selector text hselector)
          refine ⟨hlive.stops, fun x hx => ?_⟩
          obtain ⟨n, hn⟩ := hlive.returns x hx
          exact lookup_pos hn
      | none =>
          cases hvalue : getInteger request.params (ascii "nodeId") with
          | none => exact delivers_error (reported_error _)
          | some value =>
              have hpos : 0 < value := hrange.nodeId value hvalue
              have hcast := intCast_of_nonneg hvalue hpos.le
              have hnot : ¬ value < 0 := not_lt.mpr hpos.le
              simp only [if_neg hnot, hcast]
              exact delivers_ok (by omega)

/-- The node id that a handler resolves is an id that it can cast. -/
theorem requestNodeIdOrError_pos : Delivers Reported (requestNodeIdOrError d request)
    fun value => ∃ x : Nat, value = x ∧ x ≠ 0 ∧ x < u64Limit := by
  have hlimit : i64Limit < u64Limit := by decide
  unfold requestNodeIdOrError
  cases htarget : request.target.bind (·.nodeId) with
  | some value =>
      dsimp only
      split
      · exact delivers_error (reported_error _)
      · exact delivers_ok ⟨value.toNat, rfl, hrange.target_pos htarget, by omega⟩
  | none =>
      cases hselector : request.target.bind (·.selector) with
      | some text =>
          refine (resolveSelector_live hv (hrange.selector text hselector)).bind ?_
          rintro x ⟨n, hn⟩
          split
          · exact delivers_error (reported_error _)
          · exact delivers_ok ⟨x, rfl, lookup_pos hn, by omega⟩
      | none =>
          cases hvalue : getInteger request.params (ascii "nodeId") with
          | none => exact delivers_error (reported_error _)
          | some value =>
              have hpos : 0 < value := hrange.nodeId value hvalue
              have hlt := (getInteger_bounds hvalue).2
              refine delivers_ok ⟨value.toNat, by omega, by omega, ?_⟩
              simp only [u64Limit]
              omega

end Targets

/-! ## Planning -/

theorem reports_catchNull {listed : Err → Bool} {x : Except Failure α} (h : Reports x) :
    Reports (catchNull listed x) := by
  intro failure hfail
  cases x with
  | ok a => cases hfail
  | error failure' =>
      obtain ⟨e, rfl⟩ := h failure' rfl
      simp only [catchNull] at hfail
      split at hfail
      · cases hfail
      · cases hfail
        exact reported_error _

section Planning

variable (hrange : request.InRange) (hv : Valid d)
include hrange hv

/-- What the planner does with the node of a request, its errors caught. -/
theorem reports_plannedNode {k : Option Nat → Except Failure α} (hnone : Reports (k none))
    (hsome : ∀ x, x ≠ 0 → Reports (k (some x))) :
    Reports (catchNull isTargetError (resolveRequestNodeId d request) >>= k) := by
  have hpos := resolveRequestNodeId_pos hrange hv
  refine (reports_catchNull hpos.stops).bind fun found hfound => ?_
  cases found with
  | none => exact hnone
  | some x => exact hsome x (hpos.returns x (catchNull_eq_some.mp hfound))

omit hrange in
/-- The last question of a plan: the domain of the node. -/
theorem reports_plannedDomain {x : Nat} (hx : x ≠ 0) {k : Option (Option Nat) → Except Failure α}
    (hk : ∀ o, Reports (k o)) : Reports (catchNull isTopologyError
      (d.concurrentContainerDomainRoot x enabledConcurrentContainerKinds) >>= k) :=
  (reports_catchNull (reports_domainRoot hv _ hx)).bind fun o _ => hk o

theorem reports_resolveAppendPlan : Reports (resolveAppendPlan d request) := by
  unfold resolveAppendPlan
  cases hvalue : getInteger request.params (ascii "parentId") with
  | none => exact stopsWith_ok _
  | some value =>
      have hpos : 0 < value := hrange.parentId value hvalue
      have hnot : ¬ value < 0 := not_lt.mpr hpos.le
      have hparent : value.toNat ≠ 0 := by omega
      simp only [if_neg hnot, intCast_of_nonneg hvalue hpos.le, ok_bind]
      split
      · exact stopsWith_ok _
      · refine (reports_findNode hparent).bind fun parent _ => ?_
        cases parent with
        | none => exact stopsWith_ok _
        | some parent =>
            dsimp only
            split
            · exact stopsWith_ok _
            · refine reports_plannedDomain hv hparent fun o => ?_
              split <;> exact stopsWith_ok _

theorem reports_resolveRemovePlan : Reports (resolveRemovePlan d request) := by
  refine reports_plannedNode hrange hv (stopsWith_ok _) fun x hx => ?_
  dsimp only
  split
  · exact stopsWith_ok _
  refine (reports_findNode hx).bind fun node _ => ?_
  cases node with
  | none => exact stopsWith_ok _
  | some node =>
      refine (reports_catchNull (reports_classify hv hx)).bind fun mode _ => ?_
      cases mode with
      | none => exact stopsWith_ok _
      | some mode =>
          dsimp only
          split
          · exact stopsWith_ok _
          · cases node.parentId with
            | none => exact stopsWith_ok _
            | some p =>
                refine reports_plannedDomain hv hx fun o => ?_
                split <;> exact stopsWith_ok _

theorem reports_resolveDomainWritePlan : Reports (resolveDomainWritePlan d request) := by
  unfold resolveDomainWritePlan
  split
  · exact reports_resolveAppendPlan hrange hv
  · split
    · exact reports_resolveRemovePlan hrange hv
    · refine reports_plannedNode hrange hv (stopsWith_ok _) fun x hx => ?_
      refine (reports_findNode hx).bind fun node _ => ?_
      cases node with
      | none => exact stopsWith_ok _
      | some node =>
          dsimp only
          split
          · exact stopsWith_ok _
          · refine reports_plannedDomain hv hx fun o => ?_
            split <;> exact stopsWith_ok _

omit hrange in
/-- The walk over the subtree that a participating removal takes. -/
theorem reports_collectParticipating {x : Nat} {n : Node} (hx : d.lookup x = some n) :
    Reports (collectParticipatingDeleteDomainIds d x) := by
  have hlist : [x].flatMap hv.shape.forest.rev.preorder = hv.shape.forest.rev.preorder x := by simp
  have hlive : ∀ y ∈ [x].flatMap hv.shape.forest.rev.preorder, ∃ m, d.lookup y = some m := by
    intro y hy
    rw [hlist, Forest.mem_preorder, Forest.below_rev] at hy
    exact hv.shape.live_of_below hx hy
  have hbound : ([x].flatMap hv.shape.forest.rev.preorder).length ≤ d.nodeSlots.length + 1 := by
    rw [hlist]
    have hlength := hv.shape.forest.rev.length_preorder_le (Nat.lt_succ_of_le (lookup_le hx))
    have hforest : hv.shape.forest.rev.bound = d.nodeSlots.length + 1 := rfl
    omega
  refine StopsWith.bind ?_ fun domainIds _ => stopsWith_ok _
  rw [stackLoop_preorder hv.shape.forest.rev Failure.outOfFuel (f := noteDomain d) [x] ?_ hbound]
  · refine (delivers_foldlM (I := fun _ => True) trivial fun domainIds _ y hy => ?_).stops
    obtain ⟨m, hm⟩ := hlive y hy
    refine (reports_domainRoot hv _ (lookup_pos hm)).delivers.bind fun domainId _ => ?_
    cases domainId <;> exact delivers_ok trivial
  · intro y hy domainIds
    obtain ⟨m, hm⟩ := hlive y hy
    have hchildren : hv.shape.forest.rev.children y = m.children.reverse :=
      congrArg List.reverse (childrenOf_eq hm)
    rw [nodeOr_of_lookup hm, ok_bind, hchildren]
    cases noteDomain d domainIds y <;> rfl

theorem reports_resolveParticipatingDelete :
    Reports (resolveParticipatingDeleteDomainIds d request) := by
  unfold resolveParticipatingDeleteDomainIds
  split
  · exact stopsWith_ok _
  refine reports_plannedNode hrange hv (stopsWith_ok _) fun x hx => ?_
  refine (reports_catchNull (reports_classify hv hx)).bind fun found hfound => ?_
  cases found with
  | none => exact stopsWith_ok _
  | some mode =>
      dsimp only
      split
      · exact stopsWith_ok _
      · rename_i hmode
        -- The mode says that the node is there.
        have hsafe : mode = .recursiveCoordinatorSafe := not_not.mp hmode
        have hkind : mode ≠ .rootPolicyReject := by
          rw [hsafe]
          decide
        obtain ⟨-, n, -, -, hn, -⟩ := classify_ok (catchNull_eq_some.mp hfound) hkind
        refine (reports_collectParticipating hv hn).bind fun domainIds _ => ?_
        split <;> exact stopsWith_ok _

end Planning

/-! ## Guards -/

section Guards

variable {P : Document → Prop}

theorem ends_ensureDomainLock (domainId : Nat) {E : Failure → DocumentEntry → Prop} :
    Action.Ends (fun e => P e.document)
      (modify (·.ensureDomainLock domainId) : EntryAction PUnit) (fun _ e => P e.document) E :=
  Action.ends_modify fun e he => (document_ensureDomainLock e domainId).symm ▸ he

/-- A plan is made without a change of the document. -/
theorem ends_planGuard (hrange : request.InRange) (hP : ∀ d, P d → Valid d) :
    Action.Ends (fun e => P e.document) (planGuard request) (fun _ e => P e.document)
      fun failure _ => Reported failure := by
  have hread : ∀ {β : Type} {f : Document → Except Failure β}, (∀ d, P d → Reports (f d)) →
      Action.Ends (fun e : DocumentEntry => P e.document) (Action.view fun e => f e.document)
        (fun _ e => P e.document) fun failure _ => Reported failure := fun hf =>
    Action.ends_view (fun _ _ he _ => he) fun e failure he h => hf e.document he failure h
  have hget : Action.Ends (fun e : DocumentEntry => P e.document) (get : EntryAction DocumentEntry)
      (fun _ e => P e.document) fun failure _ => Reported failure :=
    ⟨fun s a s' hs h => by cases h; exact hs, fun s a s' hs h => by cases h⟩
  refine (hread fun d hd => reports_resolveDomainWritePlan hrange (hP d hd)).bind fun plan => ?_
  cases plan with
  | some plan =>
      refine hget.bind fun e => ?_
      cases plan with
      | content domainId =>
          exact (ends_ensureDomainLock domainId).bind fun _ => Action.ends_pure fun _ he => he
      | structural domainId parentId =>
          exact (ends_ensureDomainLock domainId).bind fun _ => Action.ends_pure fun _ he => he
  | none =>
      refine (hread fun d hd => reports_resolveParticipatingDelete hrange (hP d hd)).bind
        fun domainIds => ?_
      cases domainIds with
      | none => exact Action.ends_pure fun _ he => he
      | some domainIds =>
          refine (Action.ends_forM fun domainId _ => ends_ensureDomainLock domainId).bind fun _ => ?_
          exact hget.bind fun _ => Action.ends_pure fun _ he => he

/-- A program that leaves a property of the document as it is, unless it reports an error. -/
abbrev Upholds (P : Document → Prop) (p : EntryM α) : Prop :=
  Yields Reported (fun e => P e.document) p fun _ e => P e.document

theorem upholds_ret (a : α) : Upholds P (.ret (.ok a)) := yields_ret fun _ he => he

theorem upholds_acquire (m : Mutex) : Upholds P (Program.acquire m) := yields_acquire m

theorem upholds_release (m : Mutex) : Upholds P (Program.release m) := yields_release m

theorem upholds_look (f : DocumentEntry → α) (tag : DocumentEntry → GuardPhase → GuardPhase) :
    Upholds P (Program.actTag (fun e => (.ok (f e), e)) tag) :=
  yields_actTag ⟨fun s a s' hs h => by cases h; exact hs, fun s a s' hs h => by cases h⟩

theorem upholds_acquireCoordinatorExclusive : Upholds P acquireCoordinatorExclusive := by
  constructor
  · intro e guard e' he h
    rw [unlocked_acquireCoordinatorExclusive] at h
    cases h
    exact he
  · intro e failure e' he h
    rw [unlocked_acquireCoordinatorExclusive] at h
    cases h

theorem upholds_acquireQuiescentRead : Upholds P acquireQuiescentRead := by
  constructor
  · intro e guard e' he h
    rw [unlocked_acquireQuiescentRead] at h
    cases h
    exact he
  · intro e failure e' he h
    rw [unlocked_acquireQuiescentRead] at h
    cases h

theorem upholds_planDynamicGuardAcquisition (hrange : request.InRange)
    (hP : ∀ d, P d → Valid d) : Upholds P (planDynamicGuardAcquisition request) := by
  refine (upholds_acquire _).bind fun _ => Yields.onError ?_
  refine (upholds_acquire _).bind fun _ => Yields.ensure ?_ fun _ _ he => he
  exact (yields_actTag (ends_planGuard hrange hP)).bind fun plan =>
    (upholds_release _).bind fun _ => upholds_ret plan

theorem upholds_ensureAndLockDomainIds (domainIds : List Nat) :
    Upholds P (ensureAndLockDomainIds domainIds) :=
  yields_forEach fun domainId _ =>
    (yields_act (ends_ensureDomainLock domainId)).bind fun _ => upholds_acquire _

theorem upholds_unlockExistingDomainIds (domainIds : List Nat) :
    Upholds P (unlockExistingDomainIds domainIds) := by
  refine yields_forEach fun domainId _ => (upholds_look _ _).bind fun present => ?_
  split
  · exact upholds_release _
  · exact upholds_ret ()

theorem upholds_lockRuntime (plan : DynamicGuardPlan) : Upholds P plan.lockRuntime := by
  cases plan with
  | none => exact upholds_ret ()
  | domainWrite revision domainId => exact upholds_acquire _
  | structuralWrite revision domainId parentId =>
      exact (upholds_acquire _).bind fun _ => upholds_acquire _
  | participatingDomainWrite revision domainIds => exact upholds_ensureAndLockDomainIds domainIds

theorem upholds_unlockRuntime (plan : DynamicGuardPlan) : Upholds P plan.unlockRuntime := by
  cases plan with
  | none => exact upholds_ret ()
  | domainWrite revision domainId => exact upholds_release _
  | structuralWrite revision domainId parentId =>
      exact (upholds_release _).bind fun _ => upholds_release _
  | participatingDomainWrite revision domainIds => exact upholds_unlockExistingDomainIds domainIds

/-- The retries of a planned guard. -/
theorem upholds_acquireDynamicGuard (hrange : request.InRange) (hP : ∀ d, P d → Valid d)
    (attempts : Nat) : Upholds P (acquireDynamicGuard request attempts) := by
  induction attempts with
  | zero => exact upholds_acquireCoordinatorExclusive
  | succ attempts ih =>
      refine (upholds_planDynamicGuardAcquisition hrange hP).bind fun plan => ?_
      split
      · exact upholds_acquireCoordinatorExclusive
      · refine (upholds_lockRuntime plan).bind fun _ => (upholds_look _ _).bind fun matched => ?_
        split
        · exact upholds_ret _
        · exact (upholds_unlockRuntime plan).bind fun _ => ih

theorem upholds_acquireRequestGuardForEntry (hrange : request.InRange)
    (hP : ∀ d, P d → Valid d) : Upholds P (acquireRequestGuardForEntry request) := by
  unfold acquireRequestGuardForEntry
  split
  · exact upholds_acquireDynamicGuard hrange hP dynamicGuardRetryLimit
  · split
    · exact upholds_acquireQuiescentRead
    · exact upholds_acquireCoordinatorExclusive

end Guards

/-! ## Answers -/

/-- From a document with room the program returns, or reports an error. -/
abbrev Answers (p : EntryM α) : Prop :=
  Yields Reported (fun e => Roomy e.document) p fun _ _ => True

theorem answers_ret (a : α) : Answers (.ret (.ok a)) := yields_ret fun _ _ => trivial

/-- An operation that runs alone and refuses what it does not do. -/
theorem answers_of_alone {p : EntryM α} {f : EntryAction α} (halone : Alone [] p f)
    (h : ∀ e, Roomy e.document → Action.Ends (fun e' => e' = e) f (fun _ _ => True)
      fun failure _ => Reported failure) : Answers p :=
  halone.yields (Action.Ends.of_each h) fun _ _ hreport => hreport

/-- What a refusal says of the failure. -/
theorem ends_reported {e : DocumentEntry} {f : EntryAction α}
    {Q : α → DocumentEntry → Prop} {S : DocumentEntry → Prop}
    (h : Action.Ends (fun e' => e' = e) f Q fun failure e' => S e' ∧ (True → Reported failure)) :
    Action.Ends (fun e' => e' = e) f (fun _ _ => True) fun failure _ => Reported failure :=
  h.mono (fun _ h => h) (fun _ _ _ => trivial) fun _ _ h => h.2 trivial

section Bodies

variable {op : EntryM α} {Q : α → DocumentEntry → Prop} {P : DocumentEntry → Prop}

/-- A handler whose errors become the answer. -/
theorem yields_orError (h : Yields Reported P op Q) (code : RpcErrorCode) (text : String)
    (result : α → Payload) : Yields Reported P (orError code text op result) fun _ _ => True := by
  refine h.bindResult (fun a => yields_ret fun _ _ => trivial) fun failure hreport => ?_
  obtain ⟨e, rfl⟩ := hreport
  exact yields_ret fun _ _ => trivial

theorem yields_orFixedError (h : Yields Reported P op Q) (code : RpcErrorCode) (text : String)
    (result : α → Payload) :
    Yields Reported P (orFixedError code text op result) fun _ _ => True := by
  refine h.bindResult (fun a => yields_ret fun _ _ => trivial) fun failure hreport => ?_
  obtain ⟨e, rfl⟩ := hreport
  exact yields_ret fun _ _ => trivial

theorem answers_required {value : Option α} {message : String} {k : α → EntryM Body}
    (hk : ∀ a, value = some a → Answers (k a)) : Answers (required value message k) := by
  cases value with
  | none => exact answers_ret _
  | some a => exact hk a rfl

theorem answers_sleepFor {ms : Int} {message : String} {k : EntryM Body}
    (hms : ms * 1000000 < u64Limit) (hk : Answers k) : Answers (sleepFor ms message k) := by
  unfold sleepFor
  split
  · exact answers_ret _
  · rename_i hpos
    have hcast : intCast u64Limit ms = .ok ms.toNat := by
      rw [intCast, if_pos]
      omega
    have hfits : ms.toNat * 1000000 < u64Limit := by omega
    rw [sleepNanoseconds, hcast, ok_bind, if_pos hfits]
    exact hk

variable (hrange : request.InRange)
include hrange

theorem answers_pauseThen {k : EntryM Body} (hk : Answers k) : Answers (pauseThen request k) := by
  unfold pauseThen
  split
  · rename_i ms hms
    exact answers_sleepFor (hrange.pauseMs ms hms) hk
  · exact hk

/-- The node of a request: what follows gets an id that is not 0 and that can be cast. -/
theorem answers_withNodeTarget {k : Int → EntryM Body}
    (hk : ∀ x : Nat, x ≠ 0 → x < u64Limit → Answers (k x)) :
    Answers (withNodeTarget request k) := by
  have hlook : Yields Reported (fun e => Roomy e.document)
      (Program.actTag (fun e => (requestNodeIdOrError e.document request, e))
        (resolvedPhase request) : EntryM Int)
      fun value e => Roomy e.document ∧ ∃ x : Nat, value = x ∧ x ≠ 0 ∧ x < u64Limit := by
    refine yields_actTag (Action.ends_view ?_ ?_)
    · intro e value he h
      exact ⟨he, (requestNodeIdOrError_pos hrange he.valid).returns value h⟩
    · intro e failure he h
      exact (requestNodeIdOrError_pos hrange he.valid).stops failure h
  refine hlook.bindResult (fun value => Action.Ends.of_each ?_) fun failure hreport => ?_
  · rintro e ⟨he, x, rfl, hx, hlt⟩
    exact (hk x hx hlt).pre fun e' he' => he' ▸ he
  · obtain ⟨err, rfl⟩ := hreport
    dsimp only
    split
    · exact yields_ret fun _ _ => trivial
    · exact yields_fail (reported_error err)

omit hrange in
theorem intCast_natCast {x : Nat} (hx : x < u64Limit) : intCast u64Limit (x : Int) = .ok x := by
  rw [intCast, if_pos (by omega), Int.toNat_natCast]

theorem answers_withNodeId {k : Nat → EntryM Body} (hk : ∀ x, x ≠ 0 → Answers (k x)) :
    Answers (withNodeId request k) := by
  refine answers_withNodeTarget hrange fun x hx hlt => ?_
  rw [intCast_natCast hlt]
  exact hk x hx

end Bodies

/-! ## Handlers -/

section Handlers

variable {env : Env} (hquiet : env.Quiet) (documentPath : Bytes)

/-- A write of a content leaves the room of a document. -/
theorem keepsRoomy_replace (x : Nat) (content : Bytes) :
    Action.Keeps (fun e => Roomy e.document)
      (Sequential.replaceNodeContentWithAccounting x content) := by
  refine Action.keeps_of fun e he => ?_
  have hroom := Sequential.keeps_replace
    (I := fun e => Narrow e.document ∧ e.document.nextNodeId + 1 < u64Limit)
    (fun e y content total he => ⟨fun z n hz => ?_, he.2⟩) x content e ⟨he.narrow, he.room⟩
  · have hsane := (Sequential.sound_replaceContent x content e he.sane).1
    exact ⟨hsane.valid, hsane.tidy, hroom.1.1, hroom.1.2⟩
  · have hz' : (e.document.modifyNode y (·.setContent content)).lookup z = some n := hz
    rw [lookup_modifyNode] at hz'
    split at hz'
    · obtain ⟨m, hm, rfl⟩ := Option.map_eq_some_iff.mp hz'
      exact he.1 z m hm
    · exact he.1 z n hz'

include hquiet

theorem upholds_refreshSources (visit : Nat) :
    Upholds Roomy (refreshSourcesForDocument env visit) := by
  refine (alone_refreshSourcesForDocument handlerFree_nil env visit).yields
    ((Sequential.refreshSources_ends keepsRoomy_replace hquiet visit).pre ?_) fun _ _ h => h.2
  intro e he
  exact ⟨he, he.valid⟩

theorem answers_appendNode {p : Nat} (hp : p ≠ 0) (kind : NodeKind) (title : Bytes) :
    Answers (appendNode env documentPath p kind title) :=
  answers_of_alone (alone_appendNode handlerFree_nil env documentPath p kind title) fun _ he =>
    ends_reported (Sequential.refuses_appendNode he.valid hquiet documentPath
      (fun _ => ⟨hp, he.room⟩) kind title)

theorem answers_attachSyntheticTty {p : Nat} (hp : p ≠ 0) (title sessionName : Bytes) :
    Answers (attachSyntheticTty env documentPath p title sessionName) :=
  answers_of_alone (alone_attachSyntheticTty handlerFree_nil env documentPath p title sessionName)
    fun _ he => ends_reported (Sequential.refuses_attachSyntheticTty he.valid hquiet documentPath
      (fun _ => ⟨hp, he.room⟩) title sessionName)

theorem answers_attachLeaf (kind : NodeKind) (title : Bytes) (source : Source) :
    Answers (attachLeaf env documentPath kind title source) :=
  answers_of_alone (alone_attachLeaf handlerFree_nil env documentPath kind title source)
    fun _ he => ends_reported (Sequential.attachLeaf_ends hquiet he.sane documentPath
      (fun _ => he.room) kind title source)

theorem answers_removeNode {x : Nat} (hx : x ≠ 0) : Answers (removeNode env documentPath x) :=
  answers_of_alone (alone_removeNode handlerFree_nil env documentPath x) fun _ he =>
    ends_reported (Sequential.refuses_removeNode he.valid hquiet fun _ => hx)

theorem answers_appendTextChunk {x : Nat} (hx : x ≠ 0) (chunk : Bytes) :
    Answers (appendTextChunk env x chunk) :=
  answers_of_alone (alone_appendTextChunk handlerFree_nil env x chunk) fun _ _ =>
    ends_reported (Sequential.refuses_appendTextChunk hquiet (fun _ => hx) chunk)

theorem answers_pushSyntheticTtyChunk {x : Nat} (hx : x ≠ 0) (chunk : Bytes) :
    Answers (pushSyntheticTtyChunk env x chunk) :=
  answers_of_alone (alone_pushSyntheticTtyChunk handlerFree_nil env x chunk) fun _ _ =>
    ends_reported (Sequential.refuses_pushSyntheticTtyChunk hquiet (fun _ => hx) chunk)

theorem answers_updateNode {x : Nat} (hx : x ≠ 0) (title content : Option Bytes) :
    Answers (updateNode env x title content) := by
  refine answers_of_alone (alone_updateNode handlerFree_nil env x title content) fun e he => ?_
  have hone : (StoreCall.updateNode x title content).OneNode := trivial
  exact (storeCall_ends he.sane hquiet rootDocumentPath hone).mono (fun _ h => h) (fun _ _ h => h)
    fun _ _ h => h.2 hx

theorem answers_freezeTerminalNode {x : Nat} (hx : x ≠ 0) (kind : TerminalArtifactKind) :
    Answers (freezeTerminalNode env x kind) :=
  answers_of_alone (alone_freezeTerminalNode handlerFree_nil env x kind) fun _ _ =>
    ends_reported (Sequential.refuses_freezeTerminalNode hquiet (fun _ => hx) kind)

theorem answers_setFileFollowTail {x : Nat} (hx : x ≠ 0) (enabled : Bool) :
    Answers (setFileFollowTail env x enabled) :=
  answers_of_alone (alone_setFileFollowTail env x enabled) fun _ _ =>
    ends_reported (Sequential.refuses_setFileFollowTail hquiet (fun _ => hx) enabled)

omit hquiet in
/-- An edit of the document that refuses what it does not do. -/
theorem answers_onDocument {m : DocM α} {Q : α → Document → Prop}
    (hm : ∀ d, RefusesEdit d True m Q) : Answers (onDocument m) :=
  answers_of_alone (alone_onDocument m) fun _ _ => ends_reported (refuses_onDocument (hm _))

theorem answers_captureFileNode {x : Nat} (hx : x ≠ 0) : Answers (captureFileNode env x) := by
  refine (upholds_refreshSources hquiet 0).bind fun _ => ?_
  refine yields_read (fun _ _ _ _ => trivial) fun e _ => ?_
  refine (reports_nodeOr hx _).bind fun n _ => StopsWith.bind ?_ fun _ _ => stopsWith_ok _
  unfold requireFileSource
  split
  · exact stopsWith_ok _
  · exact stopsWith_error (reported_error _)

/-! ### The methods of a document -/

variable (hrange : request.InRange)
include hrange

theorem answers_handleAppend {pause : EntryM Body → EntryM Body}
    (hpause : ∀ k, Answers k → Answers (pause k)) :
    Answers (handleAppend env documentPath request pause) := by
  refine answers_required fun parentId hparent => answers_required fun _ _ =>
    answers_required fun title _ => answers_required fun kind _ => hpause _ ?_
  have hpos := hrange.parentId parentId hparent
  rw [intCast_of_nonneg hparent hpos.le]
  exact yields_orError (answers_appendNode hquiet documentPath (by omega) kind title) _ _ _

theorem answers_handleDebugTtyAttach :
    Answers (handleDebugTtyAttach env documentPath request) := by
  refine answers_required fun parentId hparent => ?_
  have hpos := hrange.parentId parentId hparent
  rw [if_neg (not_lt.mpr hpos.le), intCast_of_nonneg hparent hpos.le]
  exact yields_orError (answers_attachSyntheticTty hquiet documentPath (by omega) _ _) _ _ _

omit hrange in
theorem answers_removal {x : Nat} (hx : x ≠ 0) :
    Answers (orError .invalidParams "unable to remove node: " (removeNode env documentPath x)
      fun _ => .ok) := yields_orError (answers_removeNode hquiet documentPath hx) _ _ _

theorem answers_handleNodeFreeze : Answers (handleNodeFreeze env request) := by
  refine answers_withNodeTarget hrange fun x hx hlt => answers_required fun _ _ =>
    answers_required fun kind _ => ?_
  rw [intCast_natCast hlt]
  refine (answers_freezeTerminalNode hquiet hx kind).bindResult (fun _ => ?_) fun failure hreport =>
    ?_
  · refine Yields.bind (Q := fun _ _ => True) ?_ fun _ => yields_ret fun _ _ => trivial
    exact yields_read (fun _ _ _ _ => trivial) fun _ _ => reports_findNode hx
  · obtain ⟨e, rfl⟩ := hreport
    exact yields_ret fun _ _ => trivial

omit hquiet in
theorem answers_withKnownNode (k : Node → Payload) : Answers (withKnownNode request k) := by
  refine answers_withNodeId hrange fun x hx => ?_
  refine Yields.bind (Q := fun _ _ => True)
    (yields_read (fun _ _ _ _ => trivial) fun _ _ => reports_findNode hx) fun found => ?_
  cases found with
  | none => exact yields_ret fun _ _ => trivial
  | some n => exact yields_ret fun _ _ => trivial

omit hquiet hrange in
theorem reports_parseScrollOffset (item : JsonValue) : Reports (parseScrollOffset item) := by
  unfold parseScrollOffset
  split
  · rename_i x y hx hy
    split
    · exact stopsWith_error (reported_error _)
    · rename_i hneg
      obtain ⟨hxpos, hypos⟩ := not_or.mp hneg
      have hcast : ∀ z : Int64, ¬ z.toInt < 0 → intCast u64Limit z.toInt = .ok z.toInt.toNat := by
        intro z hz
        have hlt := z.toInt_lt
        rw [intCast, if_pos]
        simp only [u64Limit]
        omega
      rw [hcast x hxpos, hcast y hypos]
      exact stopsWith_ok _
  · exact stopsWith_error (reported_error _)

omit hquiet in
/-- A projection request in range is parsed, or refused; what it asks for fits the screen. -/
theorem parseProjectionRequest_fits : Delivers Reported (parseProjectionRequest request.params)
    fun parsed => parsed.rows < u16Limit ∧ parsed.cols < u16Limit := by
  unfold parseProjectionRequest
  cases hrows : getInteger request.params (ascii "rows") with
  | none => exact delivers_error (reported_error _)
  | some rows =>
      cases hcols : getInteger request.params (ascii "cols") with
      | none => exact delivers_error (reported_error _)
      | some cols =>
          have hrowsLimit := hrange.rows rows hrows
          have hcolsLimit := hrange.cols cols hcols
          dsimp only
          split
          · exact delivers_error (reported_error _)
          rename_i hpos
          obtain ⟨hrowsPos, hcolsPos⟩ := not_or.mp hpos
          have hrowsCast : intCast u16Limit rows = .ok rows.toNat := if_pos ⟨by omega, hrowsLimit⟩
          have hcolsCast : intCast u16Limit cols = .ok cols.toNat := if_pos ⟨by omega, hcolsLimit⟩
          have hfits : rows.toNat < u16Limit ∧ cols.toNat < u16Limit := ⟨by omega, by omega⟩
          rw [hrowsCast, ok_bind, hcolsCast, ok_bind]
          -- The offsets are the same question whether or not a node has the focus.
          split
          case' h_1 =>
            rename_i focused hfocused
            by_cases hneg : focused < 0
            · rw [if_pos hneg]
              exact delivers_error (reported_error _)
            rw [if_neg hneg, intCast_of_nonneg hfocused (by omega), ok_bind, pure_eq_ok, ok_bind]
          all_goals
            split
            · exact delivers_ok hfits
            · split
              · split
                · exact delivers_ok hfits
                · exact (stopsWith_mapM fun item _ => reports_parseScrollOffset item).delivers.bind
                    fun _ _ => delivers_ok hfits
                · exact delivers_error (reported_error _)
              · exact delivers_error (reported_error _)

omit hquiet in
/-- The root that a projection is asked for. -/
theorem resolveProjectionRoot_pos {d : Document} (hv : Valid d) :
    Delivers Reported (resolveProjectionRootNodeId request d)
      fun rootOverride => ∀ x, rootOverride = some x → x ≠ 0 := by
  have hnone : ∀ x, (none : Option Nat) = some x → x ≠ 0 := by
    intro x hx
    cases hx
  unfold resolveProjectionRootNodeId
  split
  · split
    · refine (requestNodeIdOrError_pos hrange hv).bind ?_
      rintro value ⟨x, rfl, hx, hlt⟩
      rw [if_neg (by omega), intCast_natCast hlt]
      refine delivers_ok ?_
      rintro y hy
      cases hy
      exact hx
    · exact delivers_ok hnone
  · exact delivers_ok hnone

theorem answers_handleProjectionGet (visit : Nat) :
    Answers (handleProjectionGet env request visit) := by
  have hfits := parseProjectionRequest_fits hrange
  refine (upholds_refreshSources hquiet visit).bind fun _ => ?_
  cases hparsed : parseProjectionRequest request.params with
  | error failure =>
      obtain ⟨e, rfl⟩ := hfits.stops failure hparsed
      exact yields_ret fun _ _ => trivial
  | ok parsed =>
      obtain ⟨hrows, hcols⟩ := hfits.returns parsed hparsed
      have hroot : Yields Reported (fun e => Roomy e.document)
          (Program.read fun e => resolveProjectionRootNodeId request e.document :
            EntryM (Option Nat))
          fun rootOverride e => Roomy e.document ∧ ∀ x, rootOverride = some x → x ≠ 0 := by
        refine yields_read ?_ fun e he => (resolveProjectionRoot_pos hrange he.valid).stops
        intro e rootOverride he h
        exact ⟨he, (resolveProjectionRoot_pos hrange he.valid).returns rootOverride h⟩
      refine hroot.bindResult (fun rootOverride => ?_) fun failure hreport => ?_
      · refine Yields.bind (Q := fun _ _ => True) ?_ fun _ => yields_ret fun _ _ => trivial
        refine yields_read (fun _ _ _ _ => trivial) ?_
        rintro e ⟨he, hpos⟩
        exact reports_projection he.valid he.narrow hpos hrows hcols
      · obtain ⟨e, rfl⟩ := hreport
        dsimp only
        split
        · exact yields_ret fun _ _ => trivial
        · exact yields_fail (reported_error e)

omit hrange in
theorem answers_handleLeafSourceAttach :
    Answers (handleLeafSourceAttach env documentPath request) := by
  refine answers_required fun kind _ => ?_
  split
  · exact answers_required fun path _ =>
      yields_orError (answers_attachLeaf hquiet documentPath _ path _) _ _ _
  · split
    · exact answers_required fun sessionName _ =>
        yields_orError (answers_attachLeaf hquiet documentPath _ sessionName _) _ _ _
    · exact answers_ret _

omit hquiet in
theorem answers_handleViewNode {op : Nat → DocM Unit} {Q : Unit → Document → Prop}
    (hop : ∀ x, x ≠ 0 → ∀ d, RefusesEdit d True (op x) Q) : Answers (handleViewNode request op) :=
  answers_withNodeId hrange fun x hx =>
    yields_orFixedError (answers_onDocument (hop x hx)) _ _ _

omit hquiet hrange in
theorem answers_handleView {op : DocM Unit} {Q : Unit → Document → Prop}
    (hop : ∀ d, RefusesEdit d True op Q) : Answers (handleView op) :=
  (answers_onDocument hop).bind fun _ => yields_ret fun _ _ => trivial

omit hrange in
/-- A read of a document with room after its sources were refreshed. -/
theorem answers_refreshed (visit : Nat) (result : Document → Payload) : Answers (do
    refreshSourcesForDocument env visit
    let document ← Program.read fun e => .ok e.document
    reply (result document)) := by
  refine (upholds_refreshSources hquiet visit).bind fun _ => ?_
  refine Yields.bind (Q := fun _ _ => True) ?_ fun _ => yields_ret fun _ _ => trivial
  exact yields_read (fun _ _ _ _ => trivial) fun _ _ => stopsWith_ok _

theorem answers_handleDebugRequest {handler : EntryM Body}
    (h : handleDebugRequest env documentPath request = some handler) : Answers handler := by
  unfold handleDebugRequest at h
  split at h
  · cases h
  cases hm : request.method <;> rw [hm] at h <;> simp only [reduceCtorEq, Option.some.injEq] at h
  case debugSleep =>
    exact h ▸ answers_required fun ms hms => answers_sleepFor (hrange.ms ms hms) (answers_ret _)
  case debugDocumentValidate =>
    subst h
    refine yields_orError (Q := fun _ _ => True) ?_ _ _ _
    exact yields_read (fun _ _ _ _ => trivial) fun e he => reports_of_ok he.valid.validate_ok
  case debugTextAppend =>
    subst h
    refine answers_withNodeTarget hrange fun x hx hlt => answers_required fun chunk _ =>
      answers_pauseThen hrange ?_
    rw [intCast_natCast hlt]
    exact yields_orError (answers_appendTextChunk hquiet hx chunk) _ _ _
  case debugTtyAttach => exact h ▸ answers_handleDebugTtyAttach hquiet documentPath hrange
  case debugTtyPush =>
    subst h
    refine answers_withNodeTarget hrange fun x hx hlt => answers_required fun chunk _ =>
      answers_pauseThen hrange ?_
    rw [intCast_natCast hlt]
    exact yields_orError (answers_pushSyntheticTtyChunk hquiet hx chunk) _ _ _
  case debugNodeAppend =>
    exact h ▸ answers_handleAppend hquiet documentPath hrange fun _ hk => answers_pauseThen hrange hk
  case debugNodeRemove =>
    subst h
    refine answers_withNodeTarget hrange fun x hx hlt => answers_pauseThen hrange ?_
    rw [intCast_natCast hlt]
    exact answers_removal hquiet documentPath hx

theorem answers_handleDocumentRequest {handler : EntryM Body}
    (h : handleDocumentRequest env documentPath request = some handler) : Answers handler := by
  unfold handleDocumentRequest at h
  cases hm : request.method <;> rw [hm] at h <;> simp only [reduceCtorEq, Option.some.injEq] at h
  case documentGet => exact h ▸ answers_refreshed hquiet 0 _
  case graphGet => exact h ▸ answers_refreshed hquiet 0 _
  case viewGet => exact h ▸ answers_refreshed hquiet 0 _
  case documentSerialize => exact h ▸ answers_refreshed hquiet 0 _
  case projectionGet => exact h ▸ answers_handleProjectionGet hquiet hrange 0
  case documentStatus =>
    subst h
    refine Yields.bind (Q := fun _ _ => True) ?_ fun _ => yields_ret fun _ _ => trivial
    exact yields_read (fun _ _ _ _ => trivial) fun _ _ => stopsWith_ok _
  case nodeGet => exact h ▸ answers_withKnownNode hrange _
  case leafSourceGet => exact h ▸ answers_withKnownNode hrange _
  case documentFreeze =>
    subst h
    refine (answers_onDocument (Q := fun _ _ => True) fun d => ?_).bind fun _ =>
      yields_ret fun _ _ => trivial
    exact refusesEdit_modify trivial
  case nodeAppend =>
    exact h ▸ answers_handleAppend hquiet documentPath hrange fun _ hk => hk
  case nodeUpdate =>
    exact h ▸ answers_withNodeId hrange fun x hx =>
      yields_orError (answers_updateNode hquiet hx _ _) _ _ _
  case nodeFreeze => exact h ▸ answers_handleNodeFreeze hquiet hrange
  case nodeRemove =>
    exact h ▸ answers_withNodeId hrange fun x hx => answers_removal hquiet documentPath hx
  case viewSetRoot =>
    exact h ▸ answers_handleViewNode hrange fun x hx d => refusesEdit_view _ fun _ => hx
  case viewElide =>
    exact h ▸ answers_handleViewNode hrange fun x hx d => refusesEdit_view _ fun _ => hx
  case viewExpand =>
    exact h ▸ answers_handleViewNode hrange fun x hx d => refusesEdit_view _ fun _ => hx
  case viewClearRoot =>
    exact h ▸ answers_handleView (Q := fun _ _ => True) fun d => refusesEdit_modify trivial
  case viewReset =>
    exact h ▸ answers_handleView (Q := fun _ _ => True) fun d => refusesEdit_modify trivial
  case leafSourceAttach => exact h ▸ answers_handleLeafSourceAttach hquiet documentPath
  case fileCapture =>
    exact h ▸ answers_withNodeId hrange fun x hx =>
      yields_orError (answers_captureFileNode hquiet hx) _ _ _
  case fileFollowTail =>
    subst h
    refine answers_withNodeTarget hrange fun x hx hlt => answers_required fun enabled _ => ?_
    rw [intCast_natCast hlt]
    exact yields_orError (answers_setFileFollowTail hquiet hx enabled) _ _ _

end Handlers

end Muxly.Daemon
