/-
# Muxly.Daemon.Conduct -- the data steps of a handler under its guard

Between grant and release a handler changes the document, and records what it resolved. `DocEdit` is
what such a change shows: most changes leave all links alone (`Linkless`), and only the commits of
an append and of a removal do not. `Handles` is an assertion that a handler may carry along.
-/
import Muxly.Daemon.Coverage

namespace Muxly.Daemon

open Muxly.Control Muxly.Core Muxly.Core.Document Muxly.Sync Muxly.Sync.Program Muxly.Tree

variable {R : Regime} {t : Nat} {H : Set Mutex} {guard : RequestGuard} {topology : Document}
  {target : Option WriteTarget}

/-! ## Assertions of a handler -/

theorem under_cases {phase : GuardPhase} (h : phase.Under guard topology target) :
    (phase = .idle ∧ guard = .none) ∨ ∃ grant, phase = .held grant ∧ grant.guard = guard ∧
      grant.topology = topology ∧ grant.target = target := by
  cases phase with
  | idle => exact .inl ⟨rfl, h⟩
  | claiming guard => cases h
  | planned plan topology target => cases h
  | held grant => exact .inr ⟨grant, rfl, h⟩

/-- A handler gives back a mutex that is not one of its guard. -/
theorem Published.give_under {e : DocumentEntry} {phase : GuardPhase} (h : Published R H e phase)
    (hunder : phase.Under guard topology target) {H' : Set Mutex} (hsub : H' ⊆ H)
    (hguard : guard.mutexes ⊆ H') : Published R H' e phase := by
  refine h.give hsub (fun guard' hphase => ?_) fun grant hphase => ?_
  · rw [hphase] at hunder
    cases hunder
  · rw [hphase] at hunder
    rw [hunder.1]
    exact hguard

/-- An assertion that speaks of the guard, and that no other thread falsifies. -/
structure Carries (R : Regime) (t : Nat) (guard : RequestGuard) (topology : Document)
    (target : Option WriteTarget) (A : State → Prop) : Prop where
  under : ∀ v, A v → (v.tag t).Under guard topology target
  stable : (discipline R).Stable t guard.mutexes A

/-- An assertion that a handler carries along: neither does a step of the handler falsify it after
which every live node is still live. -/
structure Handles (R : Regime) (t : Nat) (guard : RequestGuard) (topology : Document)
    (target : Option WriteTarget) (A : State → Prop) : Prop
    extends Carries R t guard topology target A where
  own : ∀ v v', Invariant R v → A v → (v'.tag t).Under guard topology target →
    (R.structured → Evolves v.shared.document v'.shared.document) → (R.accounted → ∀ x n,
    v.shared.document.lookup x = some n → ∃ n', v'.shared.document.lookup x = some n') → A v'

theorem handles_under : Handles R t guard topology target
    fun v => (v.tag t).Under guard topology target where
  under _ h := h
  stable := stable_under _ _ _ _
  own _ _ _ _ h _ _ := h

theorem handles_fresh {request : RequestEnvelope}
    (hfacts : R.structured → guard.isDynamic = true → ∃ x, target = some x ∧
      PlanFacts topology request guard x) :
    Handles R t guard topology target (Fresh R t guard topology target) where
  under _ h := h.under
  stable := stable_fresh (Set.Subset.refl _) hfacts
  own _ _ _ h hunder _ hlive := by
    refine ⟨hunder, fun hdyn hacc x hx => ?_⟩
    obtain ⟨n, hn⟩ := h.live hdyn hacc x hx
    exact hlive hacc x.nodeId n hn

theorem Carries.stable_at {A : State → Prop} (hA : Carries R t guard topology target A)
    (hsub : guard.mutexes ⊆ H) : (discipline R).Stable t H A :=
  Discipline.stable_of_subset hsub
    (fun v _ hAv hok => Published.give_under hok (hA.under v hAv) hsub (Set.Subset.refl _)) hA.stable

/-! ## Changes of the document -/

/-- What a change of the document by a handler shows. -/
structure DocEdit (R : Regime) (H : Set Mutex) (guard : RequestGuard) (topology : Document)
    (target : Option WriteTarget) (e e' : DocumentEntry) : Prop where
  keys : e'.runtime.domainIds = e.runtime.domainIds
  shape : R.structured → Shape e'.document
  linked : R.accounted → Linked e'.document
  evolves : R.structured → Evolves e.document e'.document
  revision : R.structured → e.runtime.topologyRevision ≤ e'.runtime.topologyRevision
  unrevised : R.structured → e'.runtime.topologyRevision = e.runtime.topologyRevision →
    NoNewLinks e.document e'.document ∧ (R.accounted → SameLinks e.document e'.document)
  links : R.structured → SameLinks e.document e'.document ∨
    LinkEdit R H guard topology e.document e'.document
  removal : R.structured → ∀ x, target = some (.remove x) → guard.isDynamic = true →
    NoNewLinks e.document e'.document
  writes : R.accounted → guard.isDynamic = true →
    WritesWithin guard.domainIds e.document e'.document
  live : R.accounted → guard.isDynamic = true → ∀ w, target = some w → w.Stays → ∀ n,
    e.document.lookup w.nodeId = some n → ∃ n', e'.document.lookup w.nodeId = some n'

theorem DocEdit.refl (e : DocumentEntry) (hs : R.structured → Shape e.document)
    (hl : R.accounted → Linked e.document) : DocEdit R H guard topology target e e where
  keys := rfl
  shape := hs
  linked := hl
  evolves _ := evolves_progress.refl _
  revision _ := le_refl _
  unrevised _ _ := ⟨fun _ _ hc => hc, fun _ => .refl _⟩
  links _ := .inl (.refl _)
  removal _ _ _ _ := fun _ _ hc => hc
  writes _ _ := fun _ _ hn => .inl hn
  live _ _ _ _ _ n hn := ⟨n, hn⟩

/-- A change that leaves all links alone. -/
theorem DocEdit.of_sameLinks {e e' : DocumentEntry} (hl : R.accounted → Linked e.document)
    (hkeys : e'.runtime.domainIds = e.runtime.domainIds)
    (hrev : e'.runtime.topologyRevision = e.runtime.topologyRevision)
    (hsame : R.structured → SameLinks e.document e'.document ∧
      e.document.nextNodeId ≤ e'.document.nextNodeId ∧ Shape e'.document)
    (hwrites : R.accounted → guard.isDynamic = true →
      WritesWithin guard.domainIds e.document e'.document) :
    DocEdit R H guard topology target e e' where
  keys := hkeys
  shape hR := (hsame hR).2.2
  linked hacc := (hsame (R.structured_of_accounted hacc)).1.linked (hl hacc)
  evolves hR := (hsame hR).1.evolves (hsame hR).2.1
  revision _ := hrev.ge
  unrevised hR _ := ⟨(hsame hR).1.noNewLinks, fun _ => (hsame hR).1⟩
  links hR := .inl (hsame hR).1
  removal hR _ _ _ := (hsame hR).1.noNewLinks
  writes := hwrites
  live hacc _ _ _ _ _ hn := by
    obtain ⟨n', hn', -⟩ := (hsame (R.structured_of_accounted hacc)).1.lookup hn
    exact ⟨n', hn'⟩

/-- What a handler records about its guard. -/
structure Recording (R : Regime) (guard : RequestGuard) (target : Option WriteTarget)
    (f : Grant → Grant) : Prop where
  keepsGuard : ∀ grant, (f grant).guard = grant.guard
  keepsTopology : ∀ grant, (f grant).topology = grant.topology
  keepsTarget : ∀ grant, (f grant).target = grant.target
  resolved : R.accounted → guard.isDynamic = true → ∀ grant n, (f grant).resolved = some n →
    grant.resolved = some n ∨ ∃ x, target = some x ∧ n = x.nodeId

theorem Recording.under {f : Grant → Grant} (hf : Recording R guard target f) {phase : GuardPhase}
    (h : phase.Under guard topology target) : (phase.record f).Under guard topology target := by
  cases phase with
  | idle => exact h
  | claiming guard => cases h
  | planned plan topology target => cases h
  | held grant => exact ⟨(hf.keepsGuard grant).trans h.1, (hf.keepsTopology grant).trans h.2.1,
      (hf.keepsTarget grant).trans h.2.2⟩

theorem recording_id : Recording R guard target fun grant => grant :=
  ⟨fun _ => rfl, fun _ => rfl, fun _ => rfl, fun _ _ _ _ h => .inl h⟩

theorem record_id (phase : GuardPhase) : phase.record (fun grant => grant) = phase := by
  cases phase <;> rfl

section Permit

variable {f : Grant → Grant} (hf : Recording R guard target f) {v : State}
  (hunder : (v.tag t).Under guard topology target)
include hf hunder

theorem Recording.claims_eq : ((v.tag t).record f).claims = (v.tag t).claims := by
  rcases under_cases hunder with ⟨htag, -⟩ | ⟨grant, htag, -⟩
  · rw [htag]
    rfl
  · rw [htag]
    exact congrArg RequestGuard.claims (hf.keepsGuard grant)

theorem Recording.reads_eq : ((v.tag t).record f).reads = (v.tag t).reads := by
  rcases under_cases hunder with ⟨htag, -⟩ | ⟨grant, htag, -⟩
  · rw [htag]
    rfl
  · rw [htag]
    simp only [GuardPhase.record, GuardPhase.reads, hf.keepsGuard grant]

theorem Recording.basis_eq : ((v.tag t).record f).basis = (v.tag t).basis := by
  rcases under_cases hunder with ⟨htag, -⟩ | ⟨grant, htag, -⟩
  · rw [htag]
    rfl
  · rw [htag]
    simp only [GuardPhase.record, GuardPhase.basis, hf.keepsGuard grant, hf.keepsTopology grant,
      hf.keepsTarget grant]

/-- The plan is still published after the handler has changed the document. -/
theorem DocEdit.published {e' : DocumentEntry} (hv : Invariant R v)
    (hok : Published R H v.shared (v.tag t))
    (hedit : DocEdit R H guard topology target v.shared e') :
    Published R H e' ((v.tag t).record f) := by
  have hb := hok.backed
  have hheld : ∀ grant', (v.tag t).record f = .held grant' → ∃ grant, v.tag t = .held grant ∧
      grant' = f grant ∧ grant.guard = guard ∧ grant.topology = topology ∧
      grant.target = target := by
    intro grant' h
    rcases under_cases hunder with ⟨htag, -⟩ | ⟨grant, htag, hsame⟩
    · rw [htag] at h
      cases h
    · rw [htag] at h
      cases h
      exact ⟨grant, htag, rfl, hsame⟩
  refine ⟨⟨?_, ?_, ?_, ?_, ?_, ?_⟩, ?_, ?_, ?_, ?_⟩
  · rw [hedit.keys]
    exact hb.locks
  · rw [hedit.keys, hf.claims_eq hunder]
    exact hb.claimed
  · rw [hf.basis_eq hunder]
    exact hb.dynamic
  · intro guard' h
    rcases under_cases hunder with ⟨htag, -⟩ | ⟨grant, htag, -⟩ <;>
    · rw [htag] at h
      cases h
  · intro grant' h
    obtain ⟨grant, htag, rfl, -⟩ := hheld grant' h
    rw [hf.keepsGuard]
    exact hb.held grant htag
  · intro grant' h hex
    obtain ⟨grant, htag, rfl, -⟩ := hheld grant' h
    rw [hf.keepsGuard] at hex ⊢
    rw [hedit.keys]
    exact hb.exclusive grant htag hex
  · intro hR b hbasis
    rw [hf.basis_eq hunder] at hbasis
    have hrests := hok.basis hR b hbasis
    exact ⟨hrests.shape, evolves_progress.trans hrests.evolves (hedit.evolves hR), hrests.facts⟩
  · intro hR grant' x h hdyn htarget y c hc hnew
    obtain ⟨grant, htag, rfl, hguard, -, htarget'⟩ := hheld grant' h
    rw [hf.keepsGuard] at hdyn ⊢
    rw [hf.keepsTarget] at htarget
    rw [hf.keepsTopology] at hnew ⊢
    have hold := hedit.removal hR x (htarget' ▸ htarget) (hguard ▸ hdyn) y c hc
    obtain ⟨hy, hkind, hfar⟩ := hok.grown hR grant x htag hdyn htarget y c hold hnew
    obtain ⟨n, hn⟩ := live_of_mem_childrenOf hold
    obtain ⟨n', hn'⟩ := live_of_mem_childrenOf hc
    refine ⟨hy, ?_, hfar⟩
    rw [(hedit.evolves hR).hasContainerKind_eq (hv.shape hR) hn hn']
    exact hkind
  · intro hacc grant' n h hdyn hres
    obtain ⟨grant, htag, rfl, hguard, -, htarget⟩ := hheld grant' h
    rw [hf.keepsGuard] at hdyn
    rw [hf.keepsTarget]
    rcases hf.resolved hacc (hguard ▸ hdyn) grant n hres with hold | hnew
    · exact hok.resolved hacc grant n htag hdyn hold
    · rw [htarget]
      exact hnew
  · intro hacc grant' w h hdyn hw hstays
    obtain ⟨grant, htag, rfl, hguard, -, htarget⟩ := hheld grant' h
    rw [hf.keepsGuard] at hdyn
    rw [hf.keepsTarget] at hw
    obtain ⟨n, hn⟩ := hok.live hacc grant w htag hdyn hw hstays
    exact hedit.live hacc (hguard ▸ hdyn) w (htarget ▸ hw) hstays n hn

/-- A change of the document under the guard of the handler is permitted. -/
theorem permitted_edit (hv : Invariant R v) (hok : Published R H v.shared (v.tag t))
    (hpeers : (discipline R).Peers t H v) {update : DocumentEntry → DocumentEntry}
    {tag : DocumentEntry → GuardPhase → GuardPhase}
    (hcond : (discipline R).cond t v (Config.stepView v t update tag))
    (htag : tag v.shared (v.tag t) = (v.tag t).record f)
    (hedit : DocEdit R H guard topology target v.shared (update v.shared)) :
    (discipline R).Permitted t H v (Config.stepView v t update tag) := by
  refine Step.permitted ?_ hv hok hpeers hcond
  have hself : (Config.stepView v t update tag).tag t = (v.tag t).record f :=
    (Config.stepView_tag_self v t update tag).trans htag
  have hguarded : ∀ {grant}, v.tag t = .held grant → grant.guard = guard ∧
      grant.topology = topology := by
    intro grant h
    rw [h] at hunder
    exact ⟨hunder.1, hunder.2.1⟩
  exact
    { tags := fun u hu => Config.stepView_tag_of_ne v hu update tag
      published := by rw [hself]; exact hedit.published hf hunder hv hok
      keys := hedit.keys.symm ▸ List.Subset.refl _
      coordinator := .inl hedit.keys
      claims := fun D hD => .inl (by rwa [hself, hf.claims_eq hunder] at hD)
      reads := fun S hS => .inl (by rwa [hself, hf.reads_eq hunder] at hS)
      basis := fun b hb => .inl (by rwa [hself, hf.basis_eq hunder] at hb)
      shape := hedit.shape
      linked := hedit.linked
      evolves := hedit.evolves
      revision := hedit.revision
      unrevised := hedit.unrevised
      links := fun hR => (hedit.links hR).imp_right fun hlinks => by
        rcases under_cases hunder with ⟨-, hnone⟩ | ⟨grant, hgrant, hguard, htopology, -⟩
        · have hwrites := hlinks.writes
          rw [hnone] at hwrites
          simp [RequestGuard.isExclusive, RequestGuard.isDynamic] at hwrites
        · exact ⟨grant, hgrant, by rw [hguard, htopology]; exact hlinks⟩
      guarantee := fun hacc grant hgrant hdyn => by
        rw [(hguarded hgrant).1] at hdyn ⊢
        exact hedit.writes hacc hdyn }

end Permit

/-! ## Rules for the steps of a handler -/

section Rules

variable {A : State → Prop} (hA : Handles R t guard topology target A)
  (hsub : guard.mutexes ⊆ H) {α : Type}
include hA hsub

omit hA hsub in
/-- A step that only reads. -/
theorem ensures_read {f : DocumentEntry → Except Failure α} {P : Except Failure α → State → Prop}
    (hP : ∀ r, (discipline R).Stable t H (P r))
    (h : ∀ v, Invariant R v → A v → Published R H v.shared (v.tag t) → P (f v.shared) v) :
    (discipline R).Ensures t H A (read f) P := by
  refine Discipline.ensures_actTag hP fun v hv hAv hok _ _ => ?_
  have hview : Config.stepView v t (fun e => ((f e, e) : Except Failure α × DocumentEntry).2)
      (fun _ l => l) = v := Config.stepView_eq_self rfl rfl
  rw [hview]
  exact ⟨permitted_refl hv hok, h v hv hAv hok⟩

theorem keeps_read (f : DocumentEntry → Except Failure α) :
    (discipline R).Keeps t H A (read f) :=
  ensures_read (fun _ => hA.stable_at hsub) fun _ _ hAv _ => hAv

/-- A step that changes the document. -/
theorem keeps_edit {f : DocumentEntry → Except Failure α × DocumentEntry}
    (h : ∀ v, Invariant R v → A v → Published R H v.shared (v.tag t) →
      DocEdit R H guard topology target v.shared (f v.shared).2 ∧ (R.accounted → ∀ x n,
        v.shared.document.lookup x = some n →
        ∃ n', (f v.shared).2.document.lookup x = some n')) :
    (discipline R).Keeps t H A (act f) := by
  refine Discipline.ensures_actTag (fun _ => hA.stable_at hsub) fun v hv hAv hok hpeers hcond => ?_
  obtain ⟨hedit, hlive⟩ := h v hv hAv hok
  have hunder := hA.under v hAv
  refine ⟨permitted_edit recording_id hunder hv hok hpeers hcond (record_id _).symm hedit,
    hA.own v _ hv hAv ?_ hedit.evolves hlive⟩
  rw [Config.stepView_tag_self]
  exact hunder

end Rules

section Sections

variable {A : State → Prop} (hA : Carries R t guard topology target A)
  (hsub : guard.mutexes ⊆ H) {α : Type}
include hA hsub

/-- A critical section of a handler. -/
theorem ensures_section {m : Mutex} (hdomain : ∀ d, m ≠ .domain d)
    (hlock : ∀ v, Invariant R v → A v → Published R H v.shared (v.tag t) → R.ordered →
      ∀ m' ∈ H, m' < m) {p : EntryM α} {P P' : Except Failure α → State → Prop}
    (hp : (discipline R).Ensures t (insert m H) A p P)
    (hP : ∀ r v, P r v → P' r v ∧ (v.tag t).Under guard topology target)
    (hP' : ∀ r, (discipline R).Stable t H (P' r)) :
    (discipline R).Ensures t H A (withMutex m p) P' := by
  refine Discipline.ensures_withMutex (fun v hv hAv hok hR => hlock v hv hAv hok hR)
    (fun v _ _ hok => Published.take hok fun d hd => absurd hd (hdomain d))
    (hA.stable_at (hsub.trans (Set.subset_insert _ _))) hp (fun r v _ hPv hok => ?_) hP'
  obtain ⟨hP'v, hunder⟩ := hP r v hPv
  exact ⟨hP'v, Published.give_under hok hunder (Set.subset_insert _ _) hsub⟩

theorem keeps_section {m : Mutex} (hdomain : ∀ d, m ≠ .domain d)
    (hlock : R.ordered → ∀ m' ∈ H, m' < m) {p : EntryM α}
    (hp : (discipline R).Keeps t (insert m H) A p) :
    (discipline R).Keeps t H A (withMutex m p) :=
  ensures_section hA hsub hdomain (fun _ _ _ _ => hlock) hp
    (fun _ v hAv => ⟨hAv, hA.under v hAv⟩) fun _ => hA.stable_at hsub

end Sections

end Muxly.Daemon
