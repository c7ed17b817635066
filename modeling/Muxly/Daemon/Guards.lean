/-
# Muxly.Daemon.Guards -- what the threads of a document promise each other

The discipline of the guard protocol. A thread publishes its phase: the domain locks it claims, and
the plan that it rests on. The other threads leave alone what a held mutex protects: the coordinator
protects the lock map, the registry mutex the links, and a domain mutex the nodes of its domain.

A `Regime` says which runs are considered. Exclusion of writers needs nothing. `separated` runs are
those in which every new claim meets the snapshot of every reader that holds its guard. `structured`
speaks of a document other than the root document, where every request holds a guard, `ordered` of
requests that take no second guard, and `accounted` of runs in which no removal finds more bytes than
the document counts.
-/
import Mathlib.Data.Prod.Lex
import Muxly.Daemon.Execution
import Muxly.Daemon.Planning
import Muxly.Sync.LockOrder

namespace Muxly.Daemon

open Muxly.Control Muxly.Core Muxly.Core.Document Muxly.Sync Muxly.Tree

/-! ## The lock order -/

/-- Coordinator, domains by id, parents by id, the fallback, the registry, the content bytes. -/
def Mutex.rank : Mutex → ℕ ×ₗ ℕ
  | .coordinator => toLex (0, 0)
  | .domain domainId => toLex (1, domainId)
  | .parent parentId => toLex (2, parentId)
  | .globalStructureFallback => toLex (3, 0)
  | .nodeRegistry => toLex (4, 0)
  | .contentBytes => toLex (5, 0)

instance : Preorder Mutex := Preorder.lift Mutex.rank

theorem Mutex.lt_iff {m m' : Mutex} : m < m' ↔ m.rank < m'.rank := Iff.rfl

/-- The mutexes of a list of domains. -/
def domainMutexes (domainIds : List Nat) : Set Mutex := {m | ∃ d ∈ domainIds, m = .domain d}

@[simp] theorem domain_mem_domainMutexes {domainIds : List Nat} {d : Nat} :
    Mutex.domain d ∈ domainMutexes domainIds ↔ d ∈ domainIds := by
  simp [domainMutexes]

@[simp] theorem domainMutexes_nil : domainMutexes [] = ∅ := by
  ext m
  simp [domainMutexes]

theorem domainMutexes_cons (d : Nat) (rest : List Nat) :
    domainMutexes (d :: rest) = insert (.domain d) (domainMutexes rest) := by
  ext m
  simp [domainMutexes]

/-! ## Guards and phases -/

namespace RequestGuard

/-- The domains whose mutexes a guard holds. -/
def domainIds : RequestGuard → List Nat
  | .none => []
  | .coordinatorExclusive domainIds => domainIds
  | .quiescentRead domainIds => domainIds
  | .participatingDomainWrite domainIds => domainIds
  | .domainWrite domainId => [domainId]
  | .structuralWrite domainId _ => [domainId]

/-- The mutexes that a guard holds. -/
def mutexes : RequestGuard → Set Mutex
  | .none => ∅
  | .coordinatorExclusive domainIds => insert .coordinator (domainMutexes domainIds)
  | .quiescentRead domainIds => domainMutexes domainIds
  | .participatingDomainWrite domainIds => domainMutexes domainIds
  | .domainWrite domainId => domainMutexes [domainId]
  | .structuralWrite domainId parentId => insert (.parent parentId) (domainMutexes [domainId])

/-- `coordinator_exclusive`. -/
def isExclusive : RequestGuard → Bool
  | .coordinatorExclusive _ => true
  | _ => false

/-- `domain_write`, `structural_write` and `participating_domain_write`. -/
def isDynamic : RequestGuard → Bool
  | .participatingDomainWrite _ => true
  | .domainWrite _ => true
  | .structuralWrite _ _ => true
  | _ => false

theorem domain_mem_mutexes {guard : RequestGuard} {d : Nat} :
    Mutex.domain d ∈ guard.mutexes ↔ d ∈ guard.domainIds := by
  cases guard <;> simp [mutexes, domainIds]

theorem coordinator_mem_mutexes {guard : RequestGuard} (h : guard.isExclusive = true) :
    Mutex.coordinator ∈ guard.mutexes := by
  cases guard <;> simp_all [isExclusive, mutexes]

theorem claims_of_isDynamic {guard : RequestGuard} (h : guard.isDynamic = true) :
    guard.claims = some guard.domainIds := by
  cases guard <;> simp_all [isDynamic, claims, domainIds]

theorem claims_cases {guard : RequestGuard} {D : List Nat} (h : guard.claims = some D) :
    D = guard.domainIds ∧ (guard.isExclusive = true ∨ guard.isDynamic = true) := by
  cases guard <;> simp_all [isDynamic, isExclusive, claims, domainIds]

end RequestGuard

/-- The plan that a thread rests on: its guard, the document it was made from, its target. -/
structure Basis where
  guard : RequestGuard
  topology : Document
  target : Option WriteTarget

namespace GuardPhase

/-- The domains that a thread claims for writing. -/
def claims : GuardPhase → Option (List Nat)
  | .idle => none
  | .claiming guard => guard.claims
  | .planned plan _ _ => plan.intoRequestGuard.claims
  | .held grant => grant.guard.claims

/-- The snapshot of a reader that holds its guard. -/
def reads : GuardPhase → Option (List Nat)
  | .held grant =>
    match grant.guard with
    | .quiescentRead domainIds => some domainIds
    | _ => none
  | _ => none

/-- The plan that a thread rests on, from planning until release. -/
def basis : GuardPhase → Option Basis
  | .planned plan topology target => some ⟨plan.intoRequestGuard, topology, target⟩
  | .held grant =>
    if grant.guard.isDynamic then some ⟨grant.guard, grant.topology, grant.target⟩ else none
  | _ => none

/-- A thread runs its handler under this guard, made from this plan; without a guard it is idle. -/
def Under (guard : RequestGuard) (topology : Document) (target : Option WriteTarget) :
    GuardPhase → Prop
  | .idle => guard = .none
  | .held grant => grant.guard = guard ∧ grant.topology = topology ∧ grant.target = target
  | _ => False

/-- The snapshot of a reader is what its guard holds. -/
theorem reads_held {grant : Grant} {S : List Nat} (h : (held grant).reads = some S) :
    S = grant.guard.domainIds := by
  unfold reads at h
  cases hguard : grant.guard <;> simp_all [RequestGuard.domainIds]

end GuardPhase

/-! ## What a thread publishes -/

/-- The mutexes and the lock map behind a phase. -/
structure Backed (H : Set Mutex) (keys : List Nat) (phase : GuardPhase) : Prop where
  locks : ∀ d, Mutex.domain d ∈ H → d ∈ keys
  claimed : ∀ D, phase.claims = some D → D ⊆ keys
  dynamic : ∀ b, phase.basis = some b → b.guard.isDynamic = true ∧ b.guard.domainIds ≠ []
  claiming : ∀ guard, phase = .claiming guard →
    Mutex.coordinator ∈ H ∧ ∀ d, d ∈ keys ↔ d ∈ guard.domainIds
  held : ∀ grant, phase = .held grant → grant.guard.mutexes ⊆ H
  exclusive : ∀ grant, phase = .held grant → grant.guard.isExclusive = true →
    keys ⊆ grant.guard.domainIds

/-- A plan rests on facts about the document it was made from, which has only evolved since. -/
structure Rests (b : Basis) (d : Document) : Prop where
  shape : Shape b.topology
  evolves : Evolves b.topology d
  facts : ∃ request target, b.target = some target ∧ PlanFacts b.topology request b.guard target

/-- The guard of a plan owns the domain of its target. -/
theorem PlanFacts.owned {d : Document} (hs : Shape d) {request : RequestEnvelope}
    {guard : RequestGuard} {x : WriteTarget} (h : PlanFacts d request guard x) :
    ∃ r ∈ guard.domainIds, Owns d x.nodeId r := by
  cases h with
  | content hmethod hresolve howns => exact ⟨_, List.mem_singleton_self _, howns⟩
  | append hmethod hvalue hpos hp hplain howns => exact ⟨_, List.mem_singleton_self _, howns⟩
  | remove hmethod hresolve hchild hplain howns => exact ⟨_, List.mem_singleton_self _, howns⟩
  | participate hmethod hresolve hroot hlive hsorted hlength hcover =>
      exact hcover hs _ (hs.forest.below_self _)

/-- The domain root that a plan found for a node is still its domain root. -/
theorem Rests.owns {b : Basis} {d : Document} (h : Rests b d) (hs : Shape d) (hl : Linked d)
    {x r : Nat} (hx : Owns b.topology x r) {n : Node} (hn : d.lookup x = some n) : Owns d x r :=
  hx.later h.shape hs hl h.evolves hn

/-- Since the plan was made, links were only added under ordinary nodes of other domains. -/
def Grown (D : List Nat) (planned d : Document) : Prop :=
  ∀ y, ∀ c ∈ d.childrenOf y, c ∉ planned.childrenOf y →
    y ≠ 1 ∧ d.hasContainerKind enabledConcurrentContainerKinds y = false ∧
      ∀ r ∈ D, ¬ Owns planned y r

/-- A target that its own request does not remove. -/
def WriteTarget.Stays (target : WriteTarget) : Prop := ∀ x, target ≠ .remove x

/-- Which runs are considered. -/
structure Regime where
  separated : Prop
  structured : Prop
  ordered : Prop
  accounted : Prop
  structured_of_ordered : ordered → structured
  structured_of_accounted : accounted → structured

/-- What a thread publishes. -/
structure Published (R : Regime) (H : Set Mutex) (e : DocumentEntry) (phase : GuardPhase) :
    Prop where
  backed : Backed H e.runtime.domainIds phase
  basis : R.structured → ∀ b, phase.basis = some b → Rests b e.document
  grown : R.structured → ∀ grant x, phase = .held grant → grant.guard.isDynamic = true →
    grant.target = some (.remove x) → Grown grant.guard.domainIds grant.topology e.document
  resolved : R.accounted → ∀ grant n, phase = .held grant → grant.guard.isDynamic = true →
    grant.resolved = some n → ∃ target, grant.target = some target ∧ n = target.nodeId
  live : R.accounted → ∀ grant target, phase = .held grant → grant.guard.isDynamic = true →
    grant.target = some target → target.Stays → ∃ n, e.document.lookup target.nodeId = some n

/-- The states of the threads of a document, as far as the discipline speaks of them. -/
abbrev State : Type := View DocumentEntry GuardPhase

/-- The invariant of the shared state. -/
structure Invariant (R : Regime) (v : State) : Prop where
  separated : R.separated → ∀ t u, t ≠ u → ∀ D S, (v.tag t).claims = some D →
    (v.tag u).reads = some S → ∃ d ∈ D, d ∈ S
  shape : R.structured → Shape v.shared.document
  linked : R.accounted → Linked v.shared.document
  agree : R.structured → ∀ t u b b', (v.tag t).basis = some b → (v.tag u).basis = some b' →
    Agree b.topology b'.topology

/-! ## What a thread relies on -/

/-- What the step of another thread does not do while thread `t` holds `H`. -/
structure Frame (R : Regime) (t : Nat) (H : Set Mutex) (v v' : State) : Prop where
  tag : v'.tag t = v.tag t
  keys : v.shared.runtime.domainIds ⊆ v'.shared.runtime.domainIds
  coordinator : Mutex.coordinator ∈ H →
    v'.shared.runtime.domainIds = v.shared.runtime.domainIds
  evolves : R.structured → Evolves v.shared.document v'.shared.document
  revision : R.structured →
    v.shared.runtime.topologyRevision ≤ v'.shared.runtime.topologyRevision
  unrevised : R.structured →
    v'.shared.runtime.topologyRevision = v.shared.runtime.topologyRevision →
    NoNewLinks v.shared.document v'.shared.document ∧
      (R.accounted → SameLinks v.shared.document v'.shared.document)
  registry : R.structured → Mutex.nodeRegistry ∈ H →
    SameLinks v.shared.document v'.shared.document
  exclusive : R.structured → ∀ grant, v.tag t = .held grant → grant.guard.isExclusive = true →
    SameLinks v.shared.document v'.shared.document
  grown : R.structured → ∀ b, (v.tag t).basis = some b → ∀ y,
    ∀ c ∈ v'.shared.document.childrenOf y, c ∉ v.shared.document.childrenOf y →
    ∀ d, Mutex.domain d ∈ H → y ≠ 1 ∧
      v'.shared.document.hasContainerKind enabledConcurrentContainerKinds y = false ∧
      ¬ Owns b.topology y d
  kept : R.accounted → ∀ x d, Mutex.domain d ∈ H → Owns v.shared.document x d →
    ∃ n', v'.shared.document.lookup x = some n'

/-! ## What a thread does -/

/-- A step writes only nodes of these domains; new nodes apart, and apart from the child that the
root or a container of domains loses. -/
def WritesWithin (D : List Nat) (d d' : Document) : Prop :=
  ∀ y n, d.lookup y = some n → d'.lookup y = some n ∨ (∃ r ∈ D, Owns d y r) ∨
    ((y = d.rootNodeId ∨ d.hasContainerKind enabledConcurrentContainerKinds y = true) ∧
      ∃ x, d'.lookup y = some (n.dropChild x))

/-- A new claim meets the snapshot of every reader that holds its guard. -/
def Separating (t : Nat) (v v' : State) : Prop :=
  ∀ D, (v.tag t).claims = none → (v'.tag t).claims = some D →
    ∀ u, u ≠ t → ∀ S, (v.tag u).reads = some S → ∃ d ∈ D, d ∈ S

/-- A removal that is about to commit does not find more bytes than the document counts. -/
def Accounting (t : Nat) (v : State) : Prop :=
  ∀ grant total, v.tag t = .held grant → grant.measured = some total →
    total ≤ v.shared.document.contentBytes

/-- What a step of a thread may write while it holds a dynamic guard. -/
def Guarantee (R : Regime) (t : Nat) (v v' : State) : Prop :=
  R.accounted → ∀ grant, v.tag t = .held grant → grant.guard.isDynamic = true →
    WritesWithin grant.guard.domainIds v.shared.document v'.shared.document

theorem Frame.mono {R : Regime} {t : Nat} {H H' : Set Mutex} {v v' : State} (hsub : H ⊆ H')
    (h : Frame R t H' v v') : Frame R t H v v' where
  tag := h.tag
  keys := h.keys
  coordinator hm := h.coordinator (hsub hm)
  evolves := h.evolves
  revision := h.revision
  unrevised := h.unrevised
  registry hR hm := h.registry hR (hsub hm)
  exclusive := h.exclusive
  grown hR b hb y c hc hnew d hd := h.grown hR b hb y c hc hnew d (hsub hd)
  kept hR x d hd := h.kept hR x d (hsub hd)

theorem Published.stable {R : Regime} {t : Nat} {H : Set Mutex} {v v' : State}
    (hv : Invariant R v) (hok : Published R H v.shared (v.tag t)) (hr : Frame R t H v v') :
    Published R H v'.shared (v'.tag t) := by
  rw [hr.tag]
  have hb := hok.backed
  refine ⟨⟨fun d hd => hr.keys (hb.locks d hd), fun D hD d hd => hr.keys (hb.claimed D hD hd),
    hb.dynamic, fun guard hguard => ?_, hb.held, fun grant hgrant hex => ?_⟩,
    fun hR b hbasis => ?_, fun hR grant x hgrant hdyn htarget y c hc hnew => ?_, hok.resolved,
    fun hacc grant target hgrant hdyn htarget hstays => ?_⟩
  · obtain ⟨hcoord, hkeys⟩ := hb.claiming guard hguard
    rw [hr.coordinator hcoord]
    exact ⟨hcoord, hkeys⟩
  · rw [hr.coordinator (hb.held grant hgrant (RequestGuard.coordinator_mem_mutexes hex))]
    exact hb.exclusive grant hgrant hex
  · have hrests := hok.basis hR b hbasis
    exact ⟨hrests.shape, evolves_progress.trans hrests.evolves (hr.evolves hR), hrests.facts⟩
  · have hbasis : (v.tag t).basis = some ⟨grant.guard, grant.topology, grant.target⟩ := by
      rw [hgrant, GuardPhase.basis, if_pos hdyn]
    by_cases hold : c ∈ v.shared.document.childrenOf y
    · obtain ⟨hy, hkind, hfar⟩ := hok.grown hR grant x hgrant hdyn htarget y c hold hnew
      obtain ⟨n, hn⟩ := live_of_mem_childrenOf hold
      obtain ⟨n', hn'⟩ := live_of_mem_childrenOf hc
      refine ⟨hy, ?_, hfar⟩
      rw [(hr.evolves hR).hasContainerKind_eq (hv.shape hR) hn hn']
      exact hkind
    · have hfar := hr.grown hR _ hbasis y c hc hold
      have hmem : ∀ d ∈ grant.guard.domainIds, Mutex.domain d ∈ H := fun d hd =>
        hb.held grant hgrant (RequestGuard.domain_mem_mutexes.mpr hd)
      obtain ⟨d, hd⟩ := List.exists_mem_of_ne_nil _ (hb.dynamic _ hbasis).2
      obtain ⟨hy, hkind, -⟩ := hfar d (hmem d hd)
      exact ⟨hy, hkind, fun r hrD => (hfar r (hmem r hrD)).2.2⟩
  · have hR := R.structured_of_accounted hacc
    have hrests := hok.basis hR ⟨grant.guard, grant.topology, grant.target⟩ (by
      rw [hgrant, GuardPhase.basis, if_pos hdyn])
    obtain ⟨request, target', htarget', hfacts⟩ := hrests.facts
    rw [htarget] at htarget'
    cases htarget'
    obtain ⟨n, hn⟩ := hok.live hacc grant target hgrant hdyn htarget hstays
    obtain ⟨r, hrD, howns⟩ := hfacts.owned hrests.shape
    exact hr.kept hacc target.nodeId r
      (hb.held grant hgrant (RequestGuard.domain_mem_mutexes.mpr hrD))
      (hrests.owns (hv.shape hR) (hv.linked hacc) howns hn)

/-- The guard protocol of one document. -/
def discipline (R : Regime) : Discipline Mutex DocumentEntry GuardPhase where
  lockOk H m := R.ordered → ∀ m' ∈ H, m' < m
  inv := Invariant R
  ok t H v := Published R H v.shared (v.tag t)
  rely := Frame R
  guar t _ := Guarantee R t
  cond t v v' := (R.separated → Separating t v v') ∧ (R.accounted → Accounting t v)
  rely_mono hsub h := h.mono hsub
  ok_stable hv _ hok hr := hok.stable hv hr

end Muxly.Daemon
