/-
# Muxly.Daemon.Threads -- every thread of a document follows the guard protocol

A thread acquires a guard, runs its body under it, and gives it back. `follows_system` puts this
together for any number of threads, from any state of the document and of its lock map.
-/
import Muxly.Daemon.Dispatch

namespace Muxly.Daemon

open Muxly.Control Muxly.Core Muxly.Core.Document Muxly.Sync Muxly.Sync.Program Muxly.Tree

variable {R : Regime} {t : Nat} {documentPath : Bytes} {request : RequestEnvelope} {α : Type}

/-! ## Guarded bodies -/

/-- A body between the acquisition of a guard and its release. -/
theorem keeps_underGuard {P : RequestGuard → Document → Option WriteTarget → Prop}
    {acquireGuard : EntryM RequestGuard}
    (hacquire : (discipline R).wp t acquireGuard (Acquired R t P) ∅ (Tagged t .idle))
    {body : EntryM α} (hbody : ∀ guard topology target, P guard topology target →
      Conducts R t guard topology target body) :
    (discipline R).Keeps t ∅ (Tagged t .idle) (underGuard acquireGuard body) := by
  unfold underGuard
  show (discipline R).wp t (bindResult _ _) _ _ _
  rw [Discipline.wp_bindResult]
  refine Discipline.wp_mono (fun r H B h => ?_) hacquire
  cases r with
  | error failure => exact h
  | ok guard =>
      obtain ⟨topology, target, hP, hnodup, rfl, hB⟩ := h
      have hclosed := Discipline.closed_ensures (D := discipline R) (ε := Failure) (α := α) ∅
        fun _ => Tagged t .idle
      refine ((hbody guard topology target hP).pre hB).wp_bindResult hclosed fun r => ?_
      rw [Discipline.wp_bindResult]
      refine Discipline.wp_mono (fun _ H B h => ?_) (wp_release hnodup)
      exact h

/-- A body that starts without a guard, as on the root document. -/
theorem keeps_unguarded {body : EntryM α}
    (hbody : (discipline R).Keeps t ∅ (Tagged t .idle) body) :
    (discipline R).Keeps t ∅ (Tagged t .idle) (underGuard (.ret (.ok .none)) body) := by
  refine hbody.bind fun r => ?_
  intro v hv hA hok hpeers hcond
  have hview : Config.stepView v t (fun e => ((.ok (), e) : Except Failure Unit × DocumentEntry).2)
      (fun _ _ => GuardPhase.idle) = v := Config.stepView_eq_self rfl hA.symm
  rw [hview]
  exact ⟨permitted_refl hv hok, Tagged t .idle, stable_tagged _ _, hA, rfl, fun _ _ h => h⟩

theorem keeps_observe (look : DocumentEntry → Except Failure α) :
    (discipline R).Keeps t ∅ (Tagged t .idle) (underGuard acquireQuiescentRead (read look)) := by
  refine keeps_underGuard wp_acquireQuiescentRead fun guard topology target h => ?_
  exact (keeps_read handles_under (Set.Subset.refl _) _).pre under_of_fresh

theorem keeps_refreshDocument (env : Env) (visit : Nat) :
    (discipline R).Keeps t ∅ (Tagged t .idle)
      (underGuard acquireCoordinatorExclusive (refreshSourcesForDocument env visit)) := by
  refine keeps_underGuard wp_acquireCoordinatorExclusive fun guard topology target hex => ?_
  exact (keeps_refreshSourcesForDocument handles_under (Set.Subset.refl _) mutexes_low
    (RequestGuard.static_of_isExclusive hex) env visit).pre under_of_fresh

/-! ## Tasks -/

/-- The requests considered: on a document that is not the root document, where the links matter;
and none that takes a second guard, where the order of the mutexes matters. -/
structure Admits (R : Regime) (documentPath : Bytes) (task : Task) : Prop where
  path : R.structured → documentPath ≠ rootDocumentPath
  list : R.ordered → ∀ env envelope, task = .request env envelope → envelope.method ≠ .documentList

theorem keeps_executeRequest (env : Env) (hpath : R.structured → documentPath ≠ rootDocumentPath)
    (hlist : R.ordered → request.method ≠ .documentList) :
    (discipline R).Keeps t ∅ (Tagged t .idle) (executeRequest env documentPath request) := by
  by_cases hroot : request.method = .documentList ∧ documentPath = rootDocumentPath
  · -- On the root document the list takes the only guard.
    obtain ⟨hmethod, rfl⟩ := hroot
    unfold executeRequest acquireRequestGuard handleOnDocument
    rw [if_pos rfl]
    refine keeps_unguarded ?_
    split
    · exact keeps_ret _
    · exact keeps_observe _
  · refine keeps_underGuard (wp_acquireRequestGuard documentPath request)
      fun guard topology target hsuits => conducts_handleOnDocument hsuits env hpath fun hmethod => ?_
    exact ⟨fun h => hroot ⟨hmethod, h⟩, fun hR => hlist hR hmethod⟩

/-- The lane of a request is found under the coordinator and the registry mutex. -/
theorem keeps_resolveExecutionDomainRoot :
    (discipline R).Keeps t ∅ (Tagged t .idle) (resolveExecutionDomainRoot request) := by
  have hsection : ∀ {H : Set Mutex} {m : Mutex} {p : EntryM (Option Nat)}, (∀ d, m ≠ .domain d) →
      (R.ordered → ∀ m' ∈ H, m' < m) → (discipline R).Keeps t (insert m H) (Tagged t .idle) p →
      (discipline R).Keeps t H (Tagged t .idle) (withMutex m p) := by
    intro H m p hdomain hlock hp
    exact Discipline.ensures_withMutex (fun _ _ _ _ hR => hlock hR)
      (fun _ _ _ hok => Published.take hok fun d hd => absurd hd (hdomain d)) (stable_tagged _ _) hp
      (fun _ _ _ hidle hok => ⟨hidle, Published.give_idle hok hidle (Set.subset_insert _ _)⟩)
      fun _ => stable_tagged _ _
  refine hsection (by simp) (fun _ m hm => absurd hm (Set.notMem_empty m)) ?_
  refine hsection (by simp) (fun _ m hm => ?_) ?_
  · rcases hm with rfl | hm
    · exact coordinator_lt_nodeRegistry
    · exact absurd hm (Set.notMem_empty m)
  · refine Discipline.Ensures.seq ?_ fun _ => keeps_ret _
    exact ensures_read (fun _ => stable_tagged _ _) fun _ _ hidle _ => hidle

/-- Every task takes and gives back its mutexes as the protocol asks. -/
theorem keeps_run {task : Task} (h : Admits R documentPath task) :
    (discipline R).Keeps t ∅ (Tagged t .idle) (task.run documentPath) := by
  cases task with
  | request env envelope =>
      exact (keeps_executeRequest env h.path fun hR => h.list hR env envelope rfl).bind
        fun _ => keeps_ret _
  | classify envelope => exact keeps_resolveExecutionDomainRoot.bind fun _ => keeps_ret _
  | observe look => exact keeps_observe _
  | refresh env visit => exact keeps_refreshDocument env visit

/-! ## The system -/

/-- Before the first step nothing is claimed and nothing is held. -/
theorem follows_system {e : DocumentEntry} {tasks : Nat → Task}
    (hadmits : ∀ t, Admits R e.path (tasks t)) (hshape : R.structured → Shape e.document)
    (hlinked : R.accounted → Linked e.document) : (discipline R).Follows (system e tasks) where
  inv :=
    { separated := fun _ _ _ _ _ _ h => by cases h
      shape := hshape
      linked := hlinked
      agree := fun _ _ _ _ _ h => by cases h }
  thread t := by
    refine ⟨∅, Tagged t .idle, fun m => ?_, rfl, stable_tagged _ _, published_idle ?_, ?_⟩
    · exact ⟨fun h => (by cases h), fun h => absurd h (Set.notMem_empty m)⟩
    · exact fun _ h => absurd h (Set.notMem_empty _)
    · exact Discipline.wp_mono (fun _ _ _ _ => trivial) (keeps_run (hadmits t))

end Muxly.Daemon
