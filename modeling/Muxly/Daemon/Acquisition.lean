/-
# Muxly.Daemon.Acquisition -- taking and giving back a request guard

`acquireCoordinatorExclusive`, `acquireQuiescentRead`, the planned guards with their retries, and
`RequestGuard.release` follow the discipline. `Acquired` is what an acquisition leaves: the mutexes of
the guard and nothing else, and for a planned guard the facts that the plan was made from, none of
which has been undone since.
-/
import Muxly.Daemon.Steps

namespace Muxly.Daemon

open Muxly.Control Muxly.Core Muxly.Core.Document Muxly.Sync Muxly.Sync.Program Muxly.Tree

variable {R : Regime} {t : Nat} {H : Set Mutex}

/-! ## Publishing while mutexes come and go -/

theorem Published.take {e : DocumentEntry} {phase : GuardPhase} (h : Published R H e phase)
    {m : Mutex} (hm : ∀ d, m = .domain d → d ∈ e.runtime.domainIds) :
    Published R (insert m H) e phase where
  backed :=
    { locks := fun d hd => (Set.mem_insert_iff.mp hd).elim (fun hd => hm d hd.symm)
        (h.backed.locks d)
      claimed := h.backed.claimed
      dynamic := h.backed.dynamic
      claiming := fun guard hguard => ⟨.inr (h.backed.claiming guard hguard).1,
        (h.backed.claiming guard hguard).2⟩
      held := fun grant hgrant => (h.backed.held grant hgrant).trans (Set.subset_insert _ _)
      exclusive := h.backed.exclusive }
  basis := h.basis
  grown := h.grown
  resolved := h.resolved
  live := h.live

theorem Published.give {e : DocumentEntry} {phase : GuardPhase} (h : Published R H e phase)
    {H' : Set Mutex} (hsub : H' ⊆ H)
    (hclaiming : ∀ guard, phase = .claiming guard → Mutex.coordinator ∈ H')
    (hheld : ∀ grant, phase = .held grant → grant.guard.mutexes ⊆ H') :
    Published R H' e phase where
  backed :=
    { locks := fun d hd => h.backed.locks d (hsub hd)
      claimed := h.backed.claimed
      dynamic := h.backed.dynamic
      claiming := fun guard hguard => ⟨hclaiming guard hguard, (h.backed.claiming guard hguard).2⟩
      held := hheld
      exclusive := h.backed.exclusive }
  basis := h.basis
  grown := h.grown
  resolved := h.resolved
  live := h.live

theorem published_idle {e : DocumentEntry}
    (hlocks : ∀ d, Mutex.domain d ∈ H → d ∈ e.runtime.domainIds) : Published R H e .idle where
  backed :=
    { locks := hlocks
      claimed := fun _ h => by cases h
      dynamic := fun _ h => by cases h
      claiming := fun _ h => by cases h
      held := fun _ h => by cases h
      exclusive := fun _ h => by cases h }
  basis _ _ h := by cases h
  grown _ _ _ h := by cases h
  resolved _ _ _ h := by cases h
  live _ _ _ h := by cases h

/-- An idle thread publishes nothing but its locks. -/
theorem Published.give_idle {e : DocumentEntry} {phase : GuardPhase} (h : Published R H e phase)
    (hidle : phase = .idle) {H' : Set Mutex} (hsub : H' ⊆ H) : Published R H' e phase := by
  subst hidle
  exact published_idle fun d hd => h.backed.locks d (hsub hd)

/-! ## Assertions -/

/-- The phase of a thread. -/
def Tagged (t : Nat) (phase : GuardPhase) (v : State) : Prop := v.tag t = phase

theorem stable_tagged (H : Set Mutex) (phase : GuardPhase) :
    (discipline R).Stable t H (Tagged t phase) := fun _ _ _ _ _ h hr => hr.tag.trans h

/-- Some domain locks exist. -/
def InMap (domainIds : List Nat) (v : State) : Prop := domainIds ⊆ v.shared.runtime.domainIds

theorem stable_inMap (H : Set Mutex) (domainIds : List Nat) :
    (discipline R).Stable t H (InMap domainIds) :=
  fun _ _ _ _ _ h hr => List.Subset.trans h hr.keys

/-! ## Lists of domain locks -/

/-- The turns of the two loops that take domain locks: where the lock exists, a turn takes it. -/
def Takes (body : Nat → EntryM Unit) : Prop :=
  ∀ d, ∃ update rest, body d = .step update (fun _ l => l) rest ∧
    ∀ e : DocumentEntry, d ∈ e.runtime.domainIds →
      update e = e ∧ rest e = .lock (.domain d) (.ret (.ok ()))

theorem takes_lockExisting : Takes (fun domainId => do
    let present ← read fun e => .ok (decide (domainId ∈ e.runtime.domainIds))
    if present then acquire (.domain domainId)) := by
  refine fun d => ⟨_, _, rfl, fun e hd => ⟨rfl, ?_⟩⟩
  simp only [bindResult, onOk, hd, decide_true, if_true]
  rfl

theorem takes_ensureAndLock : Takes (fun domainId => do
    act fun e => (.ok (), e.ensureDomainLock domainId)
    acquire (.domain domainId)) := by
  refine fun d => ⟨_, _, rfl, fun e hd => ⟨?_, rfl⟩⟩
  simp only [DocumentEntry.ensureDomainLock, dif_pos hd]

theorem domain_lt_domain {d d' : Nat} : Mutex.domain d < Mutex.domain d' ↔ d < d' := by
  rw [Mutex.lt_iff, Mutex.rank, Mutex.rank, Prod.Lex.toLex_lt_toLex]
  simp

/-- Taking the locks of a list of existing domains, in ascending order. -/
theorem wp_takeDomains {body : Nat → EntryM Unit} (hbody : Takes body) {A : State → Prop}
    (domainIds : List Nat) (hA : ∀ H, (discipline R).Stable t H A)
    (hin : ∀ v, A v → InMap domainIds v) (hsorted : R.ordered → domainIds.Pairwise (· < ·))
    (hlow : R.ordered → ∀ m ∈ H, ∀ d ∈ domainIds, m < Mutex.domain d) :
    (discipline R).wp t (forEach domainIds body)
      (fun r H' B => r = .ok () ∧ domainIds.Nodup ∧ (∀ d ∈ domainIds, Mutex.domain d ∉ H) ∧
        H' = H ∪ domainMutexes domainIds ∧ ∀ v, Invariant R v → B v → A v) H A := by
  induction domainIds generalizing H with
  | nil =>
      exact ⟨rfl, List.nodup_nil, by simp, by simp, fun _ _ h => h⟩
  | cons d rest ih =>
      obtain ⟨update, after, heq, hturn⟩ := hbody d
      rw [forEach, heq]
      intro v hv hAv hok _ _
      obtain ⟨hsame, hafter⟩ := hturn v.shared (hin v hAv (List.mem_cons_self ..))
      have hview : Config.stepView v t update (fun _ l => l) = v :=
        Config.stepView_eq_self hsame rfl
      rw [hview]
      refine ⟨permitted_refl hv hok, A, hA H, hAv, ?_⟩
      simp only [hafter, bindResult, onOk]
      refine ⟨fun _ _ _ _ hR m hm => hlow hR m hm d (List.mem_cons_self ..), fun hd => ?_⟩
      refine ⟨A, hA _, fun v _ hAv hok => ⟨hAv, hok.take fun d' hd' => ?_⟩, ?_⟩
      · cases hd'
        exact hin v hAv (List.mem_cons_self ..)
      · have hrest := ih (H := insert (.domain d) H)
          (fun v hAv => List.Subset.trans (List.subset_cons_self ..) (hin v hAv))
          (fun hR => (List.pairwise_cons.mp (hsorted hR)).2) fun hR m hm d' hd' => by
            rcases hm with rfl | hm
            · exact domain_lt_domain.mpr ((List.pairwise_cons.mp (hsorted hR)).1 d' hd')
            · exact hlow hR m hm d' (List.mem_cons_of_mem _ hd')
        refine Discipline.wp_mono (fun r H' B h => ?_) hrest
        obtain ⟨hr, hnodup, hfresh, hH', hB⟩ := h
        refine ⟨hr, List.nodup_cons.mpr ⟨fun hmem => hfresh d hmem (Set.mem_insert _ _), hnodup⟩,
          fun d' hd' => ?_, ?_, hB⟩
        · rcases List.mem_cons.mp hd' with rfl | hd'
          · exact hd
          · exact fun hmem => hfresh d' hd' (Set.mem_insert_of_mem _ hmem)
        · rw [hH', domainMutexes_cons, Set.insert_union, Set.union_insert]

/-- Giving back the locks of a list of existing domains, outside any guard. -/
theorem wp_unlockExisting {domainIds : List Nat} (hnodup : domainIds.Nodup)
    (hsub : domainMutexes domainIds ⊆ H) :
    (discipline R).wp t (unlockExistingDomainIds domainIds)
      (fun r H' B => r = .ok () ∧ H' = H \ domainMutexes domainIds ∧
        ∀ v, Invariant R v → B v → Tagged t .idle v) H (Tagged t .idle) := by
  have hrev : domainMutexes domainIds = domainMutexes domainIds.reverse := by
    ext m
    simp [domainMutexes]
  have hnodup' : domainIds.reverse.Nodup := List.nodup_reverse.mpr hnodup
  rw [hrev] at hsub ⊢
  unfold unlockExistingDomainIds
  generalize domainIds.reverse = xs at hsub hnodup' ⊢
  clear hrev hnodup
  induction xs generalizing H with
  | nil =>
      exact ⟨rfl, by simp, fun _ _ h => h⟩
  | cons d rest ih =>
      intro v hv hA hok _ _
      have hd : Mutex.domain d ∈ H := hsub (by simp)
      have hpresent : d ∈ v.shared.runtime.domainIds := hok.backed.locks d hd
      have hview : Config.stepView v t (fun e => e) (fun _ l => l) = v :=
        Config.stepView_eq_self rfl rfl
      refine ⟨?_, Tagged t .idle, stable_tagged H _, ?_, ?_⟩
      · exact hview.symm ▸ permitted_refl hv hok
      · exact hview.symm ▸ hA
      · simp only [bindResult, onOk, hpresent, decide_true, if_true]
        refine ⟨hd, Tagged t .idle, stable_tagged _ _, fun v _ hA hok => ⟨hA, ?_⟩, ?_⟩
        · exact hok.give_idle hA Set.sdiff_subset
        · have hrest := ih (H := H \ {.domain d}) ?_ (List.nodup_cons.mp hnodup').2
          · refine Discipline.wp_mono (fun r H' B h => ?_) hrest
            obtain ⟨hr, hH', hB⟩ := h
            refine ⟨hr, ?_, hB⟩
            rw [hH']
            ext m
            rw [domainMutexes_cons, Set.mem_sdiff, Set.mem_sdiff, Set.mem_sdiff, Set.mem_insert_iff,
              Set.mem_singleton_iff, not_or, and_assoc]
          · rintro m ⟨d', hd', rfl⟩
            refine ⟨hsub ⟨d', List.mem_cons_of_mem _ hd', rfl⟩, ?_⟩
            rintro ⟨⟩
            exact (List.nodup_cons.mp hnodup').1 hd'

/-! ## Guards over a snapshot of all domains -/

/-- The common part of `acquireCoordinatorExclusive` and `acquireQuiescentRead`. -/
def claimSnapshot (mk : List Nat → RequestGuard) : EntryM (List Nat) := do
  acquire .coordinator
  let domainIds ← actTag (fun e => (.ok e.snapshotDomainIds, e))
    fun e _ => .claiming (mk e.snapshotDomainIds)
  lockExistingDomainIds domainIds
  mark fun e _ => .granted (mk domainIds) e.document none
  return domainIds

theorem acquireCoordinatorExclusive_eq : acquireCoordinatorExclusive
    = (claimSnapshot .coordinatorExclusive >>= fun domainIds =>
        pure (.coordinatorExclusive domainIds)) := by
  simp only [acquireCoordinatorExclusive, claimSnapshot, Program.bind_assoc]
  rfl

theorem acquireQuiescentRead_eq : acquireQuiescentRead
    = (claimSnapshot .quiescentRead >>= fun domainIds => do
        release .coordinator
        pure (.quiescentRead domainIds)) := by
  simp only [acquireQuiescentRead, claimSnapshot, Program.bind_assoc]
  rfl

/-- A guard that holds the domains of a snapshot, and no plan. -/
structure SnapshotGuard (mk : List Nat → RequestGuard) : Prop where
  domainIds : ∀ domainIds, (mk domainIds).domainIds = domainIds
  static : ∀ domainIds, (mk domainIds).isDynamic = false
  mutexes : ∀ domainIds, (mk domainIds).mutexes ⊆ insert .coordinator (domainMutexes domainIds)

theorem mem_snapshotDomainIds {e : DocumentEntry} {d : Nat} :
    d ∈ e.snapshotDomainIds ↔ d ∈ e.runtime.domainIds :=
  (List.perm_insertionSort (· ≤ ·) e.runtime.domainIds).mem_iff

theorem stable_under (H : Set Mutex) (guard : RequestGuard) (topology : Document)
    (target : Option WriteTarget) :
    (discipline R).Stable t H fun v => (v.tag t).Under guard topology target :=
  fun v v' _ _ _ h hr => by
    show (v'.tag t).Under guard topology target
    rw [Frame.tag hr]
    exact h

/-- The phase while the domains of a snapshot are being taken. -/
theorem published_claiming {e : DocumentEntry} {guard : RequestGuard}
    (hlocks : ∀ d, Mutex.domain d ∈ H → d ∈ e.runtime.domainIds) (hcoord : Mutex.coordinator ∈ H)
    (hkeys : ∀ d, d ∈ e.runtime.domainIds ↔ d ∈ guard.domainIds) :
    Published R H e (.claiming guard) where
  backed :=
    { locks := hlocks
      claimed := fun D hD d hd => (hkeys d).mpr ((RequestGuard.claims_cases hD).1 ▸ hd)
      dynamic := fun _ h => by cases h
      claiming := fun _ h => by cases h; exact ⟨hcoord, hkeys⟩
      held := fun _ h => by cases h
      exclusive := fun _ h => by cases h }
  basis _ _ h := by cases h
  grown _ _ _ h := by cases h
  resolved _ _ _ h := by cases h
  live _ _ _ h := by cases h

/-- The phase of a guard without a plan. -/
theorem published_held {e : DocumentEntry} {grant : Grant} (hstatic : grant.guard.isDynamic = false)
    (hlocks : ∀ d, Mutex.domain d ∈ H → d ∈ e.runtime.domainIds)
    (hheld : grant.guard.mutexes ⊆ H)
    (hexclusive : grant.guard.isExclusive = true → e.runtime.domainIds ⊆ grant.guard.domainIds) :
    Published R H e (.held grant) where
  backed :=
    { locks := hlocks
      claimed := fun D hD d hd => hlocks d (hheld (RequestGuard.domain_mem_mutexes.mpr
        ((RequestGuard.claims_cases hD).1 ▸ hd)))
      dynamic := fun _ h => by simp [GuardPhase.basis, hstatic] at h
      claiming := fun _ h => by cases h
      held := fun _ h => by cases h; exact hheld
      exclusive := fun _ h => by cases h; exact hexclusive }
  basis _ _ h := by simp [GuardPhase.basis, hstatic] at h
  grown _ _ _ h hdyn := by cases h; rw [hstatic] at hdyn; cases hdyn
  resolved _ _ _ h hdyn := by cases h; rw [hstatic] at hdyn; cases hdyn
  live _ _ _ h hdyn := by cases h; rw [hstatic] at hdyn; cases hdyn

/-- The coordinator is taken, all domain locks are listed, and all of them are taken. -/
theorem wp_claimSnapshot {mk : List Nat → RequestGuard} (hmk : SnapshotGuard mk) :
    (discipline R).wp t (claimSnapshot mk)
      (fun r H' B => ∃ domainIds topology, r = .ok domainIds ∧ domainIds.Nodup ∧
        H' = insert .coordinator (domainMutexes domainIds) ∧
        ∀ v, Invariant R v → B v → (v.tag t).Under (mk domainIds) topology none)
      ∅ (Tagged t .idle) := by
  refine ⟨fun _ _ _ _ _ m hm => absurd hm (Set.notMem_empty m), fun _ => ⟨Tagged t .idle,
    stable_tagged _ _,
    fun v _ hA hok => ⟨hA, Published.take hok fun d hd => by cases hd⟩, ?_⟩⟩
  -- The snapshot: from here on the thread claims the domains it listed.
  intro v hv hA hok hpeers hcond
  have hidle : v.tag t = .idle := hA
  have hcoord : Mutex.coordinator ∈ insert Mutex.coordinator (∅ : Set Mutex) := Set.mem_insert _ _
  have hkeys : ∀ d, d ∈ v.shared.runtime.domainIds ↔
      d ∈ (mk v.shared.snapshotDomainIds).domainIds := fun d => by
    rw [hmk.domainIds, mem_snapshotDomainIds]
  have hsorted := pairwise_lt_insertionSort v.shared.runtime.nodup
  refine ⟨permitted_phase hv hok hpeers hcond rfl rfl (List.Subset.refl _) (.inl rfl)
    (published_claiming hok.backed.locks hcoord hkeys) (fun _ _ => .inr (by rw [hidle]; rfl))
    (fun _ h => by cases h) (fun _ h => by cases h), ?_⟩
  generalize hids : v.shared.snapshotDomainIds = domainIds at hkeys
  have hsorted' : domainIds.Pairwise (· < ·) := hids ▸ hsorted
  refine ⟨fun v => Tagged t (.claiming (mk domainIds)) v ∧ InMap domainIds v,
    (stable_tagged _ _).and (stable_inMap _ _), ⟨?_, fun d hd => ?_⟩, ?_⟩
  · rw [Tagged, Config.stepView_tag_self, hids]
  · exact (hkeys d).mpr ((hmk.domainIds domainIds).symm ▸ hd)
  simp only [bindResult, onOk, bind_eq, pure_eq, hids]
  rw [Discipline.wp_bindResult]
  refine Discipline.wp_mono (fun r H' B h => ?_) (wp_takeDomains takes_lockExisting domainIds
    (fun H => (stable_tagged H _).and (stable_inMap H _)) (fun v h => h.2) (fun _ => hsorted')
    fun _ m hm d _ => ?_)
  swap
  · rcases hm with rfl | hm
    · rw [Mutex.lt_iff, Mutex.rank, Mutex.rank, Prod.Lex.toLex_lt_toLex]
      exact .inl Nat.zero_lt_one
    · cases hm
  obtain ⟨rfl, hnodup, -, rfl, hB⟩ := h
  have hH : insert Mutex.coordinator ∅ ∪ domainMutexes domainIds
      = insert Mutex.coordinator (domainMutexes domainIds) := by rw [Set.insert_union, Set.empty_union]
  rw [hH]
  -- The grant: every domain lock that exists is held.
  intro v hv hBv hok hpeers hcond
  have hclaim : v.tag t = .claiming (mk domainIds) := (hB v hv hBv).1
  have hall : ∀ d, d ∈ v.shared.runtime.domainIds ↔ d ∈ domainIds := fun d => by
    have hclaiming := (hok.backed.claiming _ hclaim).2 d
    rwa [hmk.domainIds] at hclaiming
  refine ⟨permitted_phase hv hok hpeers hcond rfl rfl (List.Subset.refl _) (.inl rfl)
    (published_held (hmk.static _) hok.backed.locks (hmk.mutexes _) fun _ d hd => ?_)
    (fun D hD => .inl (by rw [hclaim]; exact hD)) (fun S hS => .inr ⟨Set.mem_insert _ _, ?_⟩)
    (fun b hb => ?_), fun v => (v.tag t).Under (mk domainIds) _ none, stable_under _ _ _ _, ?_,
    domainIds, v.shared.document, rfl, hnodup, rfl, fun _ _ h => h⟩
  · show d ∈ (mk domainIds).domainIds
    rw [hmk.domainIds]
    exact (hall d).mp hd
  · rw [GuardPhase.reads_held hS]
    show v.shared.runtime.domainIds ⊆ (mk domainIds).domainIds
    rw [hmk.domainIds]
    exact fun d hd => (hall d).mp hd
  · simp [GuardPhase.granted, GuardPhase.basis, hmk.static] at hb
  · show GuardPhase.Under _ _ _ ((Config.stepView v t _ _).tag t)
    rw [Config.stepView_tag_self]
    exact ⟨rfl, rfl, rfl⟩

/-! ## What an acquisition leaves -/

/-- The target of the plan is still live. -/
def TargetLive (R : Regime) (target : Option WriteTarget) (v : State) : Prop :=
  R.accounted → ∀ x, target = some x → ∃ n, v.shared.document.lookup x.nodeId = some n

/-- A guard that was just granted. -/
structure Fresh (R : Regime) (t : Nat) (guard : RequestGuard) (topology : Document)
    (target : Option WriteTarget) (v : State) : Prop where
  under : (v.tag t).Under guard topology target
  live : guard.isDynamic = true → TargetLive R target v

/-- An acquisition succeeds with a guard that has the property `P`, and holds exactly its mutexes, or
it fails and holds nothing. -/
def Acquired (R : Regime) (t : Nat)
    (P : RequestGuard → Document → Option WriteTarget → Prop) :
    Except Failure RequestGuard → Set Mutex → (State → Prop) → Prop
  | .ok guard, H, B => ∃ topology target, P guard topology target ∧ guard.domainIds.Nodup ∧
      H = guard.mutexes ∧ ∀ v, Invariant R v → B v → Fresh R t guard topology target v
  | .error _, H, B => H = ∅ ∧ ∀ v, Invariant R v → B v → Tagged t .idle v

theorem wp_acquireCoordinatorExclusive :
    (discipline R).wp t acquireCoordinatorExclusive
      (Acquired R t fun guard _ _ => guard.isExclusive = true) ∅ (Tagged t .idle) := by
  rw [acquireCoordinatorExclusive_eq, bind_eq, Discipline.wp_bindResult]
  refine Discipline.wp_mono (fun r H B h => ?_)
    (wp_claimSnapshot ⟨fun _ => rfl, fun _ => rfl, fun _ => Set.Subset.refl _⟩)
  obtain ⟨domainIds, topology, rfl, hnodup, rfl, hB⟩ := h
  exact ⟨topology, none, rfl, hnodup, rfl, fun v hv hBv => ⟨hB v hv hBv, fun h => by cases h⟩⟩

theorem wp_acquireQuiescentRead :
    (discipline R).wp t acquireQuiescentRead
      (Acquired R t fun guard _ _ => ∃ domainIds, guard = .quiescentRead domainIds) ∅
      (Tagged t .idle) := by
  rw [acquireQuiescentRead_eq, bind_eq, Discipline.wp_bindResult]
  refine Discipline.wp_mono (fun r H B h => ?_)
    (wp_claimSnapshot ⟨fun _ => rfl, fun _ => rfl, fun _ => Set.subset_insert _ _⟩)
  obtain ⟨domainIds, topology, rfl, hnodup, rfl, hB⟩ := h
  have hnot : Mutex.coordinator ∉ domainMutexes domainIds := by simp [domainMutexes]
  have hback : insert Mutex.coordinator (domainMutexes domainIds) \ {.coordinator}
      = domainMutexes domainIds := Set.insert_sdiff_self_of_notMem hnot
  have hunder : ∀ {v : State}, (v.tag t).Under (.quiescentRead domainIds) topology none →
      ∃ grant, v.tag t = .held grant ∧ grant.guard = .quiescentRead domainIds := by
    intro v h
    cases htag : v.tag t with
    | held grant => exact ⟨grant, rfl, by rw [htag] at h; exact h.1⟩
    | _ => rw [htag] at h; cases h
  refine ⟨Set.mem_insert _ _, _, stable_under _ (.quiescentRead domainIds) topology none, fun v hv hBv hok => ?_,
    topology, none, ⟨domainIds, rfl⟩, hnodup, hback, fun v _ h => ⟨h, fun h => by cases h⟩⟩
  obtain ⟨grant, htag, hguard⟩ := hunder (hB v hv hBv)
  refine ⟨hB v hv hBv, Published.give hok Set.sdiff_subset (fun guard h => ?_) fun grant' h => ?_⟩
  · rw [htag] at h
    cases h
  · rw [htag] at h
    cases h
    rw [hguard, hback]
    exact Set.Subset.refl _

/-! ## Planning -/

/-- What a plan that was published rests on. -/
structure PlanMade (R : Regime) (request : RequestEnvelope) (plan : DynamicGuardPlan)
    (topology : Document) (target : Option WriteTarget) (revision : Nat) : Prop where
  dynamic : plan.intoRequestGuard.isDynamic = true
  nonempty : plan.intoRequestGuard.domainIds ≠ []
  revision : ∀ e, plan.revisionMatches e = decide (e.runtime.topologyRevision = revision)
  facts : R.structured → ∃ x, target = some x ∧
    PlanFacts topology request plan.intoRequestGuard x

/-- A plan is published, its domain locks exist, and as long as the revision is the one of the plan
no link was added. -/
structure Planned (R : Regime) (t : Nat) (plan : DynamicGuardPlan) (topology : Document)
    (target : Option WriteTarget) (revision : Nat) (v : State) : Prop where
  tag : v.tag t = .planned plan topology target
  keys : InMap plan.intoRequestGuard.domainIds v
  unrevised : R.structured → revision ≤ v.shared.runtime.topologyRevision ∧
    (v.shared.runtime.topologyRevision = revision → NoNewLinks topology v.shared.document ∧
      (R.accounted → SameLinks topology v.shared.document))

theorem stable_planned (H : Set Mutex) (plan : DynamicGuardPlan) (topology : Document)
    (target : Option WriteTarget) (revision : Nat) :
    (discipline R).Stable t H (Planned R t plan topology target revision) := by
  intro v v' _ _ _ h hr
  have hframe : Frame R t H v v' := hr
  refine ⟨hframe.tag.trans h.tag, List.Subset.trans h.keys hframe.keys, fun hR => ?_⟩
  obtain ⟨hle, hsame⟩ := h.unrevised hR
  have hmono := hframe.revision hR
  refine ⟨hle.trans hmono, fun heq => ?_⟩
  obtain ⟨hnew, hlinks⟩ := hsame (by omega)
  obtain ⟨hnew', hlinks'⟩ := hframe.unrevised hR (by omega)
  exact ⟨hnew.trans hnew', fun hacc => (hlinks hacc).trans (hlinks' hacc)⟩

/-- A planned thread publishes no mutex but its domain locks. -/
theorem Planned.give {plan : DynamicGuardPlan} {topology : Document}
    {target : Option WriteTarget} {revision : Nat} {v : State}
    (h : Planned R t plan topology target revision v) (hok : Published R H v.shared (v.tag t))
    {H' : Set Mutex} (hsub : H' ⊆ H) : Published R H' v.shared (v.tag t) :=
  hok.give hsub (fun _ hphase => by rw [h.tag] at hphase; cases hphase)
    fun _ hphase => by rw [h.tag] at hphase; cases hphase

/-- What planning leaves: no plan, or a published one, or an error; and no mutex. -/
def PlanLeft (R : Regime) (t : Nat) (request : RequestEnvelope) :
    Except Failure DynamicGuardPlan → Set Mutex → (State → Prop) → Prop
  | .ok plan, H, B => H = ∅ ∧ ((plan = .none ∧ ∀ v, Invariant R v → B v → Tagged t .idle v) ∨
      ∃ topology target revision, PlanMade R request plan topology target revision ∧
        ∀ v, Invariant R v → B v → Planned R t plan topology target revision v)
  | .error _, H, B => H = ∅ ∧ ∀ v, Invariant R v → B v → Tagged t .idle v

theorem PublishedPlan.planPhase_eq {request : RequestEnvelope} {e : DocumentEntry}
    {plan : DynamicGuardPlan} {domainIds : List Nat}
    (h : PublishedPlan request e plan domainIds) :
    planPhase request e = .planned plan e.document (plannedTarget e.document request) := by
  unfold planPhase
  rw [h.run]
  have hclaims := h.claims
  cases plan with
  | none => cases hclaims
  | domainWrite revision domainId => rfl
  | structuralWrite revision domainId parentId => rfl
  | participatingDomainWrite revision domainIds => rfl

theorem PublishedPlan.dynamic {request : RequestEnvelope} {e : DocumentEntry}
    {plan : DynamicGuardPlan} {domainIds : List Nat}
    (h : PublishedPlan request e plan domainIds) :
    plan.intoRequestGuard.isDynamic = true ∧ plan.intoRequestGuard.domainIds = domainIds := by
  have hclaims := h.claims
  cases plan with
  | none => cases hclaims
  | domainWrite revision domainId => exact ⟨rfl, Option.some.inj hclaims⟩
  | structuralWrite revision domainId parentId => exact ⟨rfl, Option.some.inj hclaims⟩
  | participatingDomainWrite revision domainIds => exact ⟨rfl, Option.some.inj hclaims⟩

/-- The phase of a plan that was just made. -/
theorem published_planned {request : RequestEnvelope} {e : DocumentEntry}
    {plan : DynamicGuardPlan} {domainIds : List Nat}
    (h : PublishedPlan request e plan domainIds)
    (hlocks : ∀ d, Mutex.domain d ∈ H → d ∈ e.runtime.domainIds)
    (hs : R.structured → Shape e.document) :
    Published R H (e.ensureDomainLocks domainIds)
      (.planned plan e.document (plannedTarget e.document request)) where
  backed :=
    { locks := fun d hd => ((ensureDomainLocks_spec domainIds e).2.2 d).mpr (.inl (hlocks d hd))
      claimed := fun D hD d hd => by
        rw [GuardPhase.claims, h.claims] at hD
        cases hD
        exact ((ensureDomainLocks_spec _ e).2.2 d).mpr (.inr hd)
      dynamic := fun b hb => by
        cases hb
        exact ⟨h.dynamic.1, by rw [h.dynamic.2]; exact h.nonempty⟩
      claiming := fun _ h => by cases h
      held := fun _ h => by cases h
      exclusive := fun _ h => by cases h }
  basis hR b hb := by
    cases hb
    obtain ⟨x, hx, hfacts⟩ := h.facts (hs hR)
    refine ⟨hs hR, ?_, request, x, hx, hfacts⟩
    rw [(ensureDomainLocks_spec domainIds e).1]
    exact evolves_progress.refl _
  grown _ _ _ h := by cases h
  resolved _ _ _ h := by cases h
  live _ _ _ h := by cases h

theorem coordinator_lt_nodeRegistry : Mutex.coordinator < Mutex.nodeRegistry := by
  rw [Mutex.lt_iff, Mutex.rank, Mutex.rank, Prod.Lex.toLex_lt_toLex]
  exact .inl (by decide)

/-- Giving back a mutex outside any guard. -/
theorem wp_unlock_idle {m : Mutex} {β : Type} {rest : EntryM β}
    {Q : Except Failure β → Set Mutex → (State → Prop) → Prop} (hm : m ∈ H)
    (h : (discipline R).wp t rest Q (H \ {m}) (Tagged t .idle)) :
    (discipline R).wp t (.unlock m rest) Q H (Tagged t .idle) :=
  ⟨hm, Tagged t .idle, stable_tagged _ _,
    fun _ _ hA hok => ⟨hA, Published.give_idle hok hA Set.sdiff_subset⟩, h⟩

theorem wp_planDynamicGuardAcquisition (request : RequestEnvelope) :
    (discipline R).wp t (planDynamicGuardAcquisition request) (PlanLeft R t request) ∅
      (Tagged t .idle) := by
  have hne : Mutex.coordinator ≠ Mutex.nodeRegistry := by decide
  have hempty : (insert Mutex.nodeRegistry (insert Mutex.coordinator (∅ : Set Mutex)) \ {.coordinator})
      \ {.nodeRegistry} = ∅ := by
    ext m
    simp only [Set.mem_sdiff, Set.mem_insert_iff, Set.mem_singleton_iff, Set.mem_empty_iff_false]
    tauto
  have hempty' : (insert Mutex.nodeRegistry (insert Mutex.coordinator (∅ : Set Mutex)) \ {.nodeRegistry})
      \ {.coordinator} = ∅ := by
    ext m
    simp only [Set.mem_sdiff, Set.mem_insert_iff, Set.mem_singleton_iff, Set.mem_empty_iff_false]
    tauto
  refine ⟨fun _ _ _ _ _ m hm => absurd hm (Set.notMem_empty m), fun _ => ⟨Tagged t .idle,
    stable_tagged _ _, fun v _ hA hok => ⟨hA, Published.take hok fun d hd => by cases hd⟩, ?_⟩⟩
  refine ⟨fun _ _ _ _ _ m hm => ?_, fun _ => ⟨Tagged t .idle, stable_tagged _ _,
    fun v _ hA hok => ⟨hA, Published.take hok fun d hd => by cases hd⟩, ?_⟩⟩
  · rcases hm with rfl | hm
    · exact coordinator_lt_nodeRegistry
    · exact absurd hm (Set.notMem_empty m)
  intro v hv hA hok hpeers hcond
  have hidle : v.tag t = .idle := hA
  rcases planGuard_cases request v.shared with ⟨r, hrun, hr⟩ | ⟨plan, domainIds, hplan⟩
  · -- No plan, or an error: nothing has happened.
    have hphase : planPhase request v.shared = .idle := by
      unfold planPhase
      rw [hrun]
      rcases hr with rfl | ⟨failure, rfl⟩ <;> rfl
    have hview : Config.stepView v t (fun e => (planGuard request e).2)
        (fun e _ => planPhase request e) = v :=
      Config.stepView_eq_self (by rw [hrun]) (by rw [hphase, hidle])
    rw [hview]
    refine ⟨permitted_refl hv hok, Tagged t .idle, stable_tagged _ _, hA, ?_⟩
    rcases hr with rfl | ⟨failure, rfl⟩
    · simp only [hrun, bindResult, onOk, bind_eq, pure_eq, release]
      refine wp_unlock_idle (by simp) (wp_unlock_idle (by simp) ⟨hempty, .inl ⟨rfl, fun _ _ h => h⟩⟩)
    · simp only [hrun, bindResult, onOk, release]
      exact wp_unlock_idle (by simp) (wp_unlock_idle (by simp) ⟨hempty', fun _ _ h => h⟩)
  · obtain ⟨hdoc, hrev, hmem⟩ := ensureDomainLocks_spec domainIds v.shared
    have hrun := hplan.run
    have hphase := hplan.planPhase_eq
    have hpub := published_planned (R := R) hplan hok.backed.locks hv.shape
    refine ⟨permitted_phase hv hok hpeers hcond (by rw [hrun]; exact hdoc) (by rw [hrun]; exact hrev)
      (fun d hd => by rw [hrun]; exact (hmem d).mpr (.inl hd)) (.inr (by simp))
      (by rw [hrun, hphase]; exact hpub) (fun _ _ => .inr (by rw [hidle]; rfl))
      (fun _ h => by rw [hphase] at h; cases h)
      (fun b hb => by rw [hphase] at hb; cases hb; exact .inr rfl), ?_⟩
    have hmade : PlanMade R request plan v.shared.document
        (plannedTarget v.shared.document request) v.shared.runtime.topologyRevision :=
      ⟨hplan.dynamic.1, by rw [hplan.dynamic.2]; exact hplan.nonempty, hplan.revision,
        fun hR => hplan.facts (hv.shape hR)⟩
    refine ⟨_, stable_planned _ plan v.shared.document (plannedTarget v.shared.document request)
      v.shared.runtime.topologyRevision, ⟨?_, ?_, fun _ => ?_⟩, ?_⟩
    · rw [Config.stepView_tag_self, hphase]
    · rw [InMap, Config.stepView_shared, hrun, hplan.dynamic.2]
      exact fun d hd => (hmem d).mpr (.inr hd)
    · rw [Config.stepView_shared, hrun, hdoc, hrev]
      exact ⟨le_refl _, fun _ => ⟨fun _ _ hc => hc, fun _ => .refl _⟩⟩
    · simp only [hrun, bindResult, onOk, bind_eq, pure_eq, release]
      refine ⟨by simp, _, stable_planned _ plan _ _ _, fun v _ hA hok =>
        ⟨hA, hA.give hok Set.sdiff_subset⟩, ?_⟩
      refine ⟨by simp, _, stable_planned _ plan _ _ _, fun v _ hA hok =>
        ⟨hA, hA.give hok Set.sdiff_subset⟩, hempty, .inr ⟨_, _, _, hmade, fun _ _ h => h⟩⟩

end Muxly.Daemon
