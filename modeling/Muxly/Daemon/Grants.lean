/-
# Muxly.Daemon.Grants -- planned guards: lock, check, retry, release

A planned guard is granted when its domains are locked and the topology revision is still the one of
the plan. What the plan rests on is then published, and stays true: no other thread adds a link in
the domains of the guard, and the target stays live.
-/
import Muxly.Daemon.Acquisition

namespace Muxly.Daemon

open Muxly.Control Muxly.Core Muxly.Core.Document Muxly.Sync Muxly.Sync.Program Muxly.Tree

variable {R : Regime} {t : Nat} {H : Set Mutex}

/-! ## The target of a plan -/

/-- The domains of a planned guard ascend. -/
theorem PlanFacts.sorted {d : Document} {request : RequestEnvelope} {guard : RequestGuard}
    {x : WriteTarget} (h : PlanFacts d request guard x) : guard.domainIds.Pairwise (· < ·) := by
  cases h with
  | content hmethod hresolve howns => exact List.pairwise_singleton _ _
  | append hmethod hvalue hpos hp hplain howns => exact List.pairwise_singleton _ _
  | remove hmethod hresolve hchild hplain howns => exact List.pairwise_singleton _ _
  | participate hmethod hresolve hroot hlive hsorted hlength hcover => exact hsorted

/-- The target of a guard that is held stays live. -/
theorem stable_fresh {guard : RequestGuard} {topology : Document} {target : Option WriteTarget}
    {request : RequestEnvelope} (hmutexes : guard.mutexes ⊆ H)
    (hfacts : R.structured → guard.isDynamic = true → ∃ x, target = some x ∧
      PlanFacts topology request guard x) :
    (discipline R).Stable t H (Fresh R t guard topology target) := by
  intro v v' hv hv' hok h hr
  have hframe : Frame R t H v v' := hr
  have hunder : (v'.tag t).Under guard topology target := by
    rw [hframe.tag]
    exact h.under
  refine ⟨hunder, fun hdyn hacc x hx => ?_⟩
  have hR := R.structured_of_accounted hacc
  obtain ⟨y, hy, hplan⟩ := hfacts hR hdyn
  rw [hx] at hy
  cases hy
  obtain ⟨n, hn⟩ := h.live hdyn hacc x hx
  obtain ⟨grant, htag, rfl, rfl, rfl⟩ : ∃ grant, v.tag t = .held grant ∧ grant.guard = guard ∧
      grant.topology = topology ∧ grant.target = target := by
    have hu := h.under
    cases htag : v.tag t with
    | idle =>
        rw [htag] at hu
        rw [show guard = .none from hu] at hdyn
        cases hdyn
    | claiming guard => rw [htag] at hu; cases hu
    | planned plan topology target => rw [htag] at hu; cases hu
    | held grant => rw [htag] at hu; exact ⟨grant, rfl, hu⟩
  have hrests := Published.basis hok hR _ (Backed.basis_of_held htag hdyn)
  obtain ⟨r, hr, howns⟩ := hplan.owned hrests.shape
  exact hframe.kept hacc x.nodeId r (hmutexes (RequestGuard.domain_mem_mutexes.mpr hr))
    (hrests.owns (hv.shape hR) (hv.linked hacc) howns hn)

/-! ## Locking and checking -/

theorem domain_lt_parent (d p : Nat) : Mutex.domain d < Mutex.parent p := by
  rw [Mutex.lt_iff, Mutex.rank, Mutex.rank, Prod.Lex.toLex_lt_toLex]
  exact .inl Nat.one_lt_two

/-- The mutexes of a plan are taken; a plan whose domain occurs twice would wait for itself. -/
theorem wp_lockRuntime {request : RequestEnvelope} {plan : DynamicGuardPlan} {topology : Document}
    {target : Option WriteTarget} {revision : Nat}
    (hmade : PlanMade R request plan topology target revision) :
    (discipline R).wp t plan.lockRuntime (fun r H' B => r = .ok () ∧
        plan.intoRequestGuard.domainIds.Nodup ∧ H' = plan.intoRequestGuard.mutexes ∧
        ∀ v, Invariant R v → B v → Planned R t plan topology target revision v)
      ∅ (Planned R t plan topology target revision) := by
  have hnone : ∀ m : Mutex, m ∉ (∅ : Set Mutex) := Set.notMem_empty
  have htake : ∀ {H : Set Mutex} {d : Nat} {v : State}, d ∈ plan.intoRequestGuard.domainIds →
      Planned R t plan topology target revision v → Published R H v.shared (v.tag t) →
      Published R (insert (.domain d) H) v.shared (v.tag t) := by
    intro H d v hd hA hok
    refine hok.take fun d' hd' => ?_
    cases hd'
    exact hA.keys hd
  cases plan with
  | none => exact absurd hmade.dynamic (by simp [DynamicGuardPlan.intoRequestGuard,
      RequestGuard.isDynamic])
  | domainWrite revision' domainId =>
      refine ⟨fun _ _ _ _ _ m hm => absurd hm (hnone m), fun _ => ⟨_, stable_planned _ _ _ _ _,
        fun v _ hA hok => ⟨hA, htake (List.mem_singleton_self _) hA hok⟩, rfl,
        List.nodup_singleton _, ?_, fun _ _ h => h⟩⟩
      rw [DynamicGuardPlan.intoRequestGuard, RequestGuard.mutexes, domainMutexes_cons,
        domainMutexes_nil]
  | structuralWrite revision' domainId parentId =>
      refine ⟨fun _ _ _ _ _ m hm => absurd hm (hnone m), fun _ => ⟨_, stable_planned _ _ _ _ _,
        fun v _ hA hok => ⟨hA, htake (List.mem_singleton_self _) hA hok⟩, ?_⟩⟩
      refine ⟨fun _ _ _ _ _ m hm => ?_, fun _ => ⟨_, stable_planned _ _ _ _ _,
        fun v _ hA hok => ⟨hA, Published.take hok fun d hd => by cases hd⟩, rfl,
        List.nodup_singleton _, ?_, fun _ _ h => h⟩⟩
      · rcases hm with rfl | hm
        · exact domain_lt_parent domainId parentId
        · exact absurd hm (hnone m)
      · rw [DynamicGuardPlan.intoRequestGuard, RequestGuard.mutexes, domainMutexes_cons,
          domainMutexes_nil]
  | participatingDomainWrite revision' domainIds =>
      refine Discipline.wp_mono (fun r H B h => ?_) (wp_takeDomains takes_ensureAndLock domainIds
        (fun H => stable_planned H _ _ _ _) (fun v hA => hA.keys) (fun hR => ?_)
        fun _ m hm => absurd hm (hnone m))
      · obtain ⟨hr, hnodup, -, hH, hB⟩ := h
        refine ⟨hr, hnodup, ?_, hB⟩
        rw [hH, Set.empty_union]
        rfl
      · obtain ⟨x, -, hfacts⟩ := hmade.facts (R.structured_of_ordered hR)
        exact hfacts.sorted

/-- Outside any guard the mutexes of a plan are given back. -/
theorem wp_unlockRuntime (plan : DynamicGuardPlan)
    (hnodup : plan.intoRequestGuard.domainIds.Nodup) :
    (discipline R).wp t plan.unlockRuntime
      (fun r H' B => r = .ok () ∧ H' = ∅ ∧ ∀ v, Invariant R v → B v → Tagged t .idle v)
      plan.intoRequestGuard.mutexes (Tagged t .idle) := by
  cases plan with
  | none => exact ⟨rfl, rfl, fun _ _ h => h⟩
  | domainWrite revision domainId =>
      refine wp_unlock_idle (by simp [DynamicGuardPlan.intoRequestGuard, RequestGuard.mutexes])
        ⟨rfl, ?_, fun _ _ h => h⟩
      simp [DynamicGuardPlan.intoRequestGuard, RequestGuard.mutexes, domainMutexes_cons]
  | structuralWrite revision domainId parentId =>
      refine wp_unlock_idle (by simp [DynamicGuardPlan.intoRequestGuard, RequestGuard.mutexes])
        (wp_unlock_idle (by simp [DynamicGuardPlan.intoRequestGuard, RequestGuard.mutexes])
          ⟨rfl, ?_, fun _ _ h => h⟩)
      ext m
      simp only [DynamicGuardPlan.intoRequestGuard, RequestGuard.mutexes, domainMutexes_cons,
        domainMutexes_nil, Set.mem_sdiff, Set.mem_insert_iff, Set.mem_singleton_iff,
        Set.mem_empty_iff_false]
      tauto
  | participatingDomainWrite revision domainIds =>
      refine Discipline.wp_mono (fun r H B h => ?_)
        (wp_unlockExisting hnodup (Set.Subset.refl (domainMutexes domainIds)))
      obtain ⟨hr, hH, hB⟩ := h
      exact ⟨hr, hH.trans (Set.sdiff_self ..), hB⟩

/-- As long as the revision is the one of the plan its target is live. -/
theorem Planned.targetLive {request : RequestEnvelope} {plan : DynamicGuardPlan}
    {topology : Document} {target : Option WriteTarget} {revision : Nat} {v : State}
    (hplanned : Planned R t plan topology target revision v)
    (hmade : PlanMade R request plan topology target revision)
    (hcurrent : v.shared.runtime.topologyRevision = revision)
    (hok : Published R plan.intoRequestGuard.mutexes v.shared (v.tag t)) :
    TargetLive R target v := by
  intro hacc x hx
  have hR := R.structured_of_accounted hacc
  obtain ⟨y, hy, hfacts⟩ := hmade.facts hR
  rw [hx] at hy
  cases hy
  have hrests := hok.basis hR _ (by rw [hplanned.tag]; rfl)
  obtain ⟨r, -, howns⟩ := hfacts.owned hrests.shape
  obtain ⟨n, hn⟩ := howns.live
  obtain ⟨n', hn', -⟩ := ((hplanned.unrevised hR).2 hcurrent).2 hacc |>.lookup hn
  exact ⟨n', hn'⟩

/-- The phase of a plan that was found current. -/
theorem published_granted {request : RequestEnvelope} {plan : DynamicGuardPlan}
    {topology : Document} {target : Option WriteTarget} {revision : Nat} {v : State}
    (hmade : PlanMade R request plan topology target revision)
    (hplanned : Planned R t plan topology target revision v)
    (hcurrent : v.shared.runtime.topologyRevision = revision)
    (hok : Published R plan.intoRequestGuard.mutexes v.shared (v.tag t)) :
    Published R plan.intoRequestGuard.mutexes v.shared
      (.granted plan.intoRequestGuard topology target) := by
  have hbasis : (v.tag t).basis = some ⟨plan.intoRequestGuard, topology, target⟩ := by
    rw [hplanned.tag]
    rfl
  have hbasis' : (GuardPhase.granted plan.intoRequestGuard topology target).basis
      = some ⟨plan.intoRequestGuard, topology, target⟩ := by
    rw [GuardPhase.granted, GuardPhase.basis, if_pos hmade.dynamic]
  exact
    { backed :=
        { locks := hok.backed.locks
          claimed := fun D hD => hok.backed.claimed D (by rw [hplanned.tag]; exact hD)
          dynamic := fun b hb => hok.backed.dynamic b (by rw [hbasis, ← hbasis']; exact hb)
          claiming := fun _ h => by cases h
          held := fun _ h => by cases h; exact Set.Subset.refl _
          exclusive := fun _ h hex => by
            cases h
            have hdyn := hmade.dynamic
            cases plan <;> simp_all [DynamicGuardPlan.intoRequestGuard, RequestGuard.isExclusive] }
      basis := fun hR b hb => hok.basis hR b (by rw [hbasis, ← hbasis']; exact hb)
      grown := fun hR _ _ h _ _ y c hc hnew => by
        cases h
        exact absurd (((hplanned.unrevised hR).2 hcurrent).1 y c hc) hnew
      resolved := fun _ _ _ h _ hres => by
        cases h
        cases hres
      live := fun hacc _ w h _ hw _ => by
        cases h
        exact hplanned.targetLive hmade hcurrent hok hacc w hw }

section Check

variable {request : RequestEnvelope} {plan : DynamicGuardPlan} {topology : Document}
  {target : Option WriteTarget} {revision : Nat} {v : State}
  (hmade : PlanMade R request plan topology target revision)
  (hplanned : Planned R t plan topology target revision v)

include hplanned in
theorem Planned.checkedPhase_eq : checkedPhase plan v.shared (v.tag t)
    = if plan.revisionMatches v.shared = true then
        .granted plan.intoRequestGuard topology target else .idle := by
  rw [hplanned.tag]
  rfl

variable (hv : Invariant R v)
  (hok : Published R plan.intoRequestGuard.mutexes v.shared (v.tag t))
include hmade hplanned hv hok

/-- The check of the revision grants the guard or drops the plan. -/
theorem permitted_checked
    (hpeers : (discipline R).Peers t plan.intoRequestGuard.mutexes v)
    (hcond : (discipline R).cond t v (Config.stepView v t (fun e => e) (checkedPhase plan))) :
    (discipline R).Permitted t plan.intoRequestGuard.mutexes v
      (Config.stepView v t (fun e => e) (checkedPhase plan)) := by
  have hphase := hplanned.checkedPhase_eq
  have hdyn := hmade.dynamic
  by_cases hcurrent : plan.revisionMatches v.shared = true
  · rw [if_pos hcurrent] at hphase
    have hrevision : v.shared.runtime.topologyRevision = revision := by
      simpa [hmade.revision] using hcurrent
    refine permitted_phase hv hok hpeers hcond rfl rfl (List.Subset.refl _) (.inl rfl)
      (by rw [hphase]; exact published_granted hmade hplanned hrevision hok)
      (fun D hD => .inl ?_) (fun S hS => ?_) fun b hb => .inl ?_
    · rw [hphase] at hD
      rw [hplanned.tag]
      exact hD
    · rw [hphase] at hS
      cases plan <;> cases hS
    · rw [hphase, GuardPhase.granted, GuardPhase.basis, if_pos hdyn] at hb
      rw [hplanned.tag]
      exact hb
  · rw [if_neg hcurrent] at hphase
    exact permitted_phase hv hok hpeers hcond rfl rfl (List.Subset.refl _) (.inl rfl)
      (by rw [hphase]; exact published_idle hok.backed.locks)
      (fun _ hD => by rw [hphase] at hD; cases hD) (fun _ hS => by rw [hphase] at hS; cases hS)
      fun _ hb => by rw [hphase] at hb; cases hb

omit hv in
/-- When the check succeeds the target of the plan is still live. -/
theorem fresh_checked (hcurrent : plan.revisionMatches v.shared = true) :
    Fresh R t plan.intoRequestGuard topology target
      (Config.stepView v t (fun e => e) (checkedPhase plan)) := by
  have hrevision : v.shared.runtime.topologyRevision = revision := by
    simpa [hmade.revision] using hcurrent
  refine ⟨?_, fun _ => hplanned.targetLive hmade hrevision hok⟩
  rw [Config.stepView_tag_self, hplanned.checkedPhase_eq, if_pos hcurrent]
  exact ⟨rfl, rfl, rfl⟩

end Check

/-! ## The retry loop -/

/-- A granted guard: exclusive, or planned for this request. -/
def GrantedFor (R : Regime) (request : RequestEnvelope) (guard : RequestGuard)
    (topology : Document) (target : Option WriteTarget) : Prop :=
  guard.isExclusive = true ∨ (guard.isDynamic = true ∧ (R.structured → ∃ x, target = some x ∧
    PlanFacts topology request guard x))

theorem closed_acquired (P : RequestGuard → Document → Option WriteTarget → Prop) :
    (discipline R).Closed (Acquired R t P) := by
  intro r H A B hAB h
  cases r with
  | error failure => exact ⟨h.1, fun v hv hA => h.2 v hv (hAB v hv hA)⟩
  | ok guard =>
      obtain ⟨topology, target, hP, hnodup, hH, hlast⟩ := h
      exact ⟨topology, target, hP, hnodup, hH, fun v hv hA => hlast v hv (hAB v hv hA)⟩

theorem Acquired.mono {P P' : RequestGuard → Document → Option WriteTarget → Prop}
    (hP : ∀ {guard topology target}, P guard topology target → P' guard topology target)
    {r : Except Failure RequestGuard} {H : Set Mutex} {B : State → Prop}
    (h : Acquired R t P r H B) : Acquired R t P' r H B := by
  cases r with
  | error failure => exact h
  | ok guard =>
      obtain ⟨topology, target, hguard, hrest⟩ := h
      exact ⟨topology, target, hP hguard, hrest⟩

/-- Planned, locked, found current or stale, and in the end acquired exclusively. -/
theorem wp_acquireDynamicGuard (request : RequestEnvelope) (attempts : Nat) :
    (discipline R).wp t (acquireDynamicGuard request attempts)
      (Acquired R t (GrantedFor R request)) ∅ (Tagged t .idle) := by
  have hexclusive : (discipline R).wp t acquireCoordinatorExclusive
      (Acquired R t (GrantedFor R request)) ∅ (Tagged t .idle) :=
    Discipline.wp_mono (fun _ _ _ h => h.mono .inl) wp_acquireCoordinatorExclusive
  have hclosed := closed_acquired (R := R) (t := t) (GrantedFor R request)
  induction attempts with
  | zero => exact hexclusive
  | succ attempts ih =>
      rw [acquireDynamicGuard, bind_eq, Discipline.wp_bindResult]
      refine Discipline.wp_mono (fun r H B h => ?_) (wp_planDynamicGuardAcquisition request)
      cases r with
      | error failure => exact h
      | ok plan =>
          obtain ⟨rfl, ⟨rfl, hB⟩ | ⟨topology, target, revision, hmade, hB⟩⟩ := h
          · simp only [onOk, if_true]
            exact Discipline.wp_pre hclosed hB hexclusive
          · have hne : plan ≠ .none := by
              rintro rfl
              exact absurd hmade.dynamic (by simp [DynamicGuardPlan.intoRequestGuard,
                RequestGuard.isDynamic])
            simp only [onOk, if_neg hne, bind_eq]
            refine Discipline.wp_pre hclosed hB ?_
            rw [Discipline.wp_bindResult]
            refine Discipline.wp_mono (fun r H B' h => ?_) (wp_lockRuntime hmade)
            obtain ⟨rfl, hnodup, rfl, hB'⟩ := h
            intro v hv hBv hok hpeers hcond
            have hplanned := hB' v hv hBv
            refine ⟨permitted_checked hmade hplanned hv hok hpeers hcond, ?_⟩
            by_cases hcurrent : plan.revisionMatches v.shared = true
            · refine ⟨Fresh R t plan.intoRequestGuard topology target,
                stable_fresh (Set.Subset.refl _) fun hR _ => hmade.facts hR,
                fresh_checked hmade hplanned hok hcurrent, ?_⟩
              simp only [bindResult, onOk, hcurrent, if_true, pure_eq]
              exact ⟨topology, target, .inr ⟨hmade.dynamic, hmade.facts⟩, hnodup, rfl,
                fun _ _ h => h⟩
            · refine ⟨Tagged t .idle, stable_tagged _ _, ?_, ?_⟩
              · rw [Tagged, Config.stepView_tag_self, hplanned.checkedPhase_eq, if_neg hcurrent]
              · simp only [bindResult, onOk, hcurrent, Bool.false_eq_true, if_false]
                rw [Discipline.wp_bindResult]
                refine Discipline.wp_mono (fun r H B h => ?_) (wp_unlockRuntime plan hnodup)
                obtain ⟨rfl, rfl, hB⟩ := h
                exact Discipline.wp_pre hclosed hB ih

/-- What the guard of a request on this document may be: none for the root document, one for readers
for a reading method, and for any other method an exclusive one, or one that was planned for it. -/
structure Suits (R : Regime) (documentPath : Bytes) (request : RequestEnvelope)
    (guard : RequestGuard) (topology : Document) (target : Option WriteTarget) : Prop where
  kind : (guard = .none ∧ documentPath = rootDocumentPath) ∨ guard.isExclusive = true ∨
    guard.isDynamic = true ∨ requestUsesQuiescentReadGuard request.method = true
  lane : guard.isDynamic = true → requestSupportsDynamicDomainLane request = true
  plan : R.structured → guard.isDynamic = true →
    ∃ x, target = some x ∧ PlanFacts topology request guard x

theorem RequestGuard.static_of_isExclusive {guard : RequestGuard} (h : guard.isExclusive = true) :
    guard.isDynamic = false := by
  cases guard with
  | coordinatorExclusive domainIds => rfl
  | _ => cases h

theorem suits_of_static {documentPath : Bytes} {request : RequestEnvelope} {guard : RequestGuard}
    {topology : Document} {target : Option WriteTarget} (hstatic : guard.isDynamic = false)
    (hkind : (guard = .none ∧ documentPath = rootDocumentPath) ∨ guard.isExclusive = true ∨
      requestUsesQuiescentReadGuard request.method = true) :
    Suits R documentPath request guard topology target where
  kind := by
    rcases hkind with h | h | h
    · exact .inl h
    · exact .inr (.inl h)
    · exact .inr (.inr (.inr h))
  lane h := by rw [hstatic] at h; cases h
  plan _ h := by rw [hstatic] at h; cases h

/-- `acquireRequestGuard` leaves a guard that suits the request. -/
theorem wp_acquireRequestGuard (documentPath : Bytes) (request : RequestEnvelope) :
    (discipline R).wp t (acquireRequestGuard documentPath request)
      (Acquired R t (Suits R documentPath request)) ∅ (Tagged t .idle) := by
  unfold acquireRequestGuard
  split
  · rename_i hroot
    exact ⟨Document.init 0 [], none, suits_of_static rfl (.inl ⟨rfl, hroot⟩), List.nodup_nil, rfl,
      fun v _ h => ⟨by rw [show v.tag t = .idle from h]; rfl, fun h => by cases h⟩⟩
  · unfold acquireRequestGuardForEntry
    split
    · rename_i hlane
      refine Discipline.wp_mono (fun _ _ _ h => h.mono fun h => ?_) (wp_acquireDynamicGuard request _)
      rcases h with hex | ⟨hdyn, hplan⟩
      · exact suits_of_static (RequestGuard.static_of_isExclusive hex) (.inr (.inl hex))
      · exact ⟨.inr (.inr (.inl hdyn)), fun _ => hlane, fun hR _ => hplan hR⟩
    · split
      · rename_i hquiescent
        refine Discipline.wp_mono (fun _ _ _ h => h.mono fun h => ?_) wp_acquireQuiescentRead
        obtain ⟨domainIds, rfl⟩ := h
        exact suits_of_static rfl (.inr (.inr hquiescent))
      · refine Discipline.wp_mono (fun _ _ _ h => h.mono fun hex => ?_) wp_acquireCoordinatorExclusive
        exact suits_of_static (RequestGuard.static_of_isExclusive hex) (.inr (.inl hex))

/-! ## Release -/

/-- Every guard is given back in full. -/
theorem wp_release {guard : RequestGuard} {topology : Document} {target : Option WriteTarget}
    (hnodup : guard.domainIds.Nodup) :
    (discipline R).wp t guard.release (fun _ H B => H = ∅ ∧ ∀ v, Invariant R v → B v → Tagged t .idle v)
      guard.mutexes (fun v => (v.tag t).Under guard topology target) := by
  intro v hv hA hok hpeers hcond
  refine ⟨permitted_phase hv hok hpeers hcond rfl rfl (List.Subset.refl _) (.inl rfl)
    (published_idle hok.backed.locks) (fun _ h => by cases h) (fun _ h => by cases h)
    (fun _ h => by cases h), Tagged t .idle, stable_tagged _ _, Config.stepView_tag_self .., ?_⟩
  simp only [bindResult, onOk]
  cases guard with
  | none => exact ⟨rfl, fun _ _ h => h⟩
  | coordinatorExclusive domainIds =>
      simp only [bind_eq]
      rw [Discipline.wp_bindResult]
      refine Discipline.wp_mono (fun r H B h => ?_)
        (wp_unlockExisting hnodup (Set.subset_insert _ (domainMutexes domainIds)))
      obtain ⟨rfl, rfl, hB⟩ := h
      have hcoord : Mutex.coordinator ∉ domainMutexes domainIds := by simp [domainMutexes]
      refine Discipline.wp_pre (fun _ _ _ _ hA h => ⟨h.1, fun v hv hAv => h.2 v hv (hA v hv hAv)⟩) hB
        (wp_unlock_idle ⟨Set.mem_insert _ _, hcoord⟩ ⟨?_, fun _ _ h => h⟩)
      ext m
      simp only [RequestGuard.mutexes, Set.mem_sdiff, Set.mem_insert_iff,
        Set.mem_singleton_iff, Set.mem_empty_iff_false]
      tauto
  | quiescentRead domainIds =>
      refine Discipline.wp_mono (fun r H B h => ?_)
        (wp_unlockExisting hnodup (Set.Subset.refl (domainMutexes domainIds)))
      exact ⟨h.2.1.trans (Set.sdiff_self ..), h.2.2⟩
  | participatingDomainWrite domainIds =>
      refine Discipline.wp_mono (fun r H B h => ?_)
        (wp_unlockRuntime (.participatingDomainWrite 0 domainIds) hnodup)
      exact h.2
  | domainWrite domainId =>
      refine Discipline.wp_mono (fun r H B h => ?_)
        (wp_unlockRuntime (.domainWrite 0 domainId) hnodup)
      exact h.2
  | structuralWrite domainId parentId =>
      refine Discipline.wp_mono (fun r H B h => ?_)
        (wp_unlockRuntime (.structuralWrite 0 domainId parentId) hnodup)
      exact h.2

end Muxly.Daemon
