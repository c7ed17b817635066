/-
# Muxly.Daemon.Steps -- the data steps that the guard protocol permits

`Step` lists what a data step has to show about itself. `Step.permitted` derives from it what every
other thread relies on: the guards that two threads hold exclude each other, and the plans that they
rest on agree about the domain of every node.
-/
import Muxly.Daemon.Guards

namespace Muxly.Daemon

open Muxly.Control Muxly.Core Muxly.Core.Document Muxly.Sync Muxly.Tree

/-! ## Guards exclude each other -/

namespace Backed

variable {H H' : Set Mutex} {keys : List Nat} {phase phase' : GuardPhase} {grant grant' : Grant}

theorem basis_of_held (h : phase = .held grant) (hdyn : grant.guard.isDynamic = true) :
    phase.basis = some ⟨grant.guard, grant.topology, grant.target⟩ := by
  rw [h, GuardPhase.basis, if_pos hdyn]

/-- A thread that claims no domain holds the coordinator. -/
theorem claims_nonempty (hb : Backed H keys phase) {D : List Nat} (h : phase.claims = some D) :
    D ≠ [] ∨ Mutex.coordinator ∈ H := by
  cases phase with
  | idle => cases h
  | claiming guard => exact .inr (hb.claiming guard rfl).1
  | planned plan topology target =>
      obtain ⟨hdyn, hne⟩ := hb.dynamic _ rfl
      rw [GuardPhase.claims, RequestGuard.claims_of_isDynamic hdyn] at h
      cases h
      exact .inl hne
  | held grant =>
      obtain ⟨rfl, hex | hdyn⟩ := RequestGuard.claims_cases h
      · exact .inr (hb.held grant rfl (RequestGuard.coordinator_mem_mutexes hex))
      · exact .inl (hb.dynamic _ (basis_of_held rfl hdyn)).2

/-- Guards that two threads hold have no domain in common. -/
theorem domains_disjoint (hb : Backed H keys phase) (hb' : Backed H' keys phase')
    (hdisj : Disjoint H H') (h : phase = .held grant) (h' : phase' = .held grant') {d : Nat}
    (hd : d ∈ grant.guard.domainIds) : d ∉ grant'.guard.domainIds := fun hd' =>
  Set.disjoint_left.mp hdisj (hb.held grant h (RequestGuard.domain_mem_mutexes.mpr hd))
    (hb'.held grant' h' (RequestGuard.domain_mem_mutexes.mpr hd'))

/-- While one thread holds the coordinator exclusively, another one holds no domain mutex. -/
theorem exclusive_domains (hb : Backed H keys phase) (hb' : Backed H' keys phase')
    (hdisj : Disjoint H H') (h : phase = .held grant) (hex : grant.guard.isExclusive = true)
    (d : Nat) : Mutex.domain d ∉ H' := fun hd =>
  Set.disjoint_left.mp hdisj (hb.held grant h (RequestGuard.domain_mem_mutexes.mpr
    (hb.exclusive grant h hex (hb'.locks d hd)))) hd

/-- While one thread holds the coordinator exclusively, another one holds no writing guard. -/
theorem exclusive_writers (hb : Backed H keys phase) (hb' : Backed H' keys phase')
    (hdisj : Disjoint H H') (h : phase = .held grant) (h' : phase' = .held grant')
    (hex : grant.guard.isExclusive = true) :
    ¬ (grant'.guard.isExclusive = true ∨ grant'.guard.isDynamic = true) := by
  rintro (hex' | hdyn')
  · exact Set.disjoint_left.mp hdisj
      (hb.held grant h (RequestGuard.coordinator_mem_mutexes hex))
      (hb'.held grant' h' (RequestGuard.coordinator_mem_mutexes hex'))
  · obtain ⟨d, hd⟩ := List.exists_mem_of_ne_nil _ (hb'.dynamic _ (basis_of_held h' hdyn')).2
    exact hb.exclusive_domains hb' hdisj h hex d
      (hb'.held grant' h' (RequestGuard.domain_mem_mutexes.mpr hd))

end Backed

/-! ## Steps -/

/-- How a step that changes links stays inside the guard of its thread. -/
structure LinkEdit (R : Regime) (H : Set Mutex) (guard : RequestGuard) (topology d d' : Document) :
    Prop where
  registry : Mutex.nodeRegistry ∈ H
  writes : guard.isExclusive = true ∨ guard.isDynamic = true
  opened : ∀ y, ∀ c ∈ d'.childrenOf y, c ∉ d.childrenOf y → guard.isExclusive = true ∨
    (y ≠ 1 ∧ d'.hasContainerKind enabledConcurrentContainerKinds y = false ∧
      ∃ r ∈ guard.domainIds, Owns topology y r)
  closed : R.accounted → ∀ x n, d.lookup x = some n → d'.lookup x = none →
    guard.isExclusive = true ∨ ∃ r ∈ guard.domainIds, Owns d x r

/-- What a data step of thread `t` shows about itself. -/
structure Step (R : Regime) (t : Nat) (H : Set Mutex) (v v' : State) : Prop where
  tags : ∀ u, u ≠ t → v'.tag u = v.tag u
  published : Published R H v'.shared (v'.tag t)
  keys : v.shared.runtime.domainIds ⊆ v'.shared.runtime.domainIds
  coordinator : v'.shared.runtime.domainIds = v.shared.runtime.domainIds ∨ Mutex.coordinator ∈ H
  claims : ∀ D, (v'.tag t).claims = some D →
    (v.tag t).claims = some D ∨ (v.tag t).claims = none
  reads : ∀ S, (v'.tag t).reads = some S →
    (v.tag t).reads = some S ∨ (Mutex.coordinator ∈ H ∧ v'.shared.runtime.domainIds ⊆ S)
  basis : ∀ b, (v'.tag t).basis = some b →
    (v.tag t).basis = some b ∨ b.topology = v.shared.document
  shape : R.structured → Shape v'.shared.document
  linked : R.accounted → Linked v'.shared.document
  evolves : R.structured → Evolves v.shared.document v'.shared.document
  revision : R.structured →
    v.shared.runtime.topologyRevision ≤ v'.shared.runtime.topologyRevision
  unrevised : R.structured →
    v'.shared.runtime.topologyRevision = v.shared.runtime.topologyRevision →
    NoNewLinks v.shared.document v'.shared.document ∧
      (R.accounted → SameLinks v.shared.document v'.shared.document)
  links : R.structured → SameLinks v.shared.document v'.shared.document ∨
    ∃ grant, v.tag t = .held grant ∧
      LinkEdit R H grant.guard grant.topology v.shared.document v'.shared.document
  guarantee : Guarantee R t v v'

namespace Step

variable {R : Regime} {t : Nat} {H : Set Mutex} {v v' : State}

/-- A step of `t` keeps every claim apart from the readers it has not met. -/
theorem separated (h : Step R t H v v') (hv : Invariant R v)
    (hpeers : (discipline R).Peers t H v) (hR : R.separated) (hcond : Separating t v v')
    {a b : Nat} (hab : a ≠ b) {D S : List Nat} (hD : (v'.tag a).claims = some D)
    (hS : (v'.tag b).reads = some S) : ∃ d ∈ D, d ∈ S := by
  by_cases hat : a = t
  · subst hat
    have hS' : (v.tag b).reads = some S := h.tags b (Ne.symm hab) ▸ hS
    rcases h.claims D hD with hsame | hnone
    · exact hv.separated hR a b hab D S hsame hS'
    · exact hcond D hnone hD b (Ne.symm hab) S hS'
  · have hD' : (v.tag a).claims = some D := h.tags a hat ▸ hD
    by_cases hbt : b = t
    · subst hbt
      rcases h.reads S hS with hsame | ⟨hcoord, hkeys⟩
      · exact hv.separated hR a b hab D S hD' hsame
      · obtain ⟨H', hdisj, hok'⟩ := hpeers a hat
        rcases hok'.backed.claims_nonempty hD' with hne | hcoord'
        · obtain ⟨d, hd⟩ := List.exists_mem_of_ne_nil _ hne
          exact ⟨d, hd, hkeys (h.keys (hok'.backed.claimed D hD' hd))⟩
        · exact absurd hcoord' (Set.disjoint_left.mp hdisj hcoord)
    · exact hv.separated hR a b hab D S hD' (h.tags b hbt ▸ hS)

/-- The plans that the threads rest on agree about every node. -/
theorem agree (h : Step R t H v v') (hv : Invariant R v) (hpeers : (discipline R).Peers t H v)
    (hR : R.structured) {a b : Nat} {ba bb : Basis} (ha : (v'.tag a).basis = some ba)
    (hb : (v'.tag b).basis = some bb) : Agree ba.topology bb.topology := by
  have hrefl : ∀ d : Document, Agree d d := fun d => (SameLinks.refl d).agree
  -- A plan that was just made from the current document agrees with every older plan.
  have hnew : ∀ {u : Nat} {bu : Basis}, u ≠ t → (v.tag u).basis = some bu →
      Agree bu.topology v.shared.document := by
    intro u bu hu hbu
    obtain ⟨H', -, hok'⟩ := hpeers u hu
    have hrests := hok'.basis hR bu hbu
    exact hrests.evolves.agree hrests.shape
  by_cases hat : a = t
  · by_cases hbt : b = t
    · subst hat
      subst hbt
      rw [ha] at hb
      cases hb
      exact hrefl _
    · have hb' : (v.tag b).basis = some bb := h.tags b hbt ▸ hb
      subst hat
      rcases h.basis ba ha with hsame | hdoc
      · exact hv.agree hR a b ba bb hsame hb'
      · rw [hdoc]
        exact (hnew hbt hb').symm
  · have ha' : (v.tag a).basis = some ba := h.tags a hat ▸ ha
    by_cases hbt : b = t
    · subst hbt
      rcases h.basis bb hb with hsame | hdoc
      · exact hv.agree hR a b ba bb ha' hsame
      · rw [hdoc]
        exact hnew hat ha'
    · exact hv.agree hR a b ba bb ha' (h.tags b hbt ▸ hb)

/-- A step of `t` does nothing that another thread relies on not to happen. -/
theorem frame (h : Step R t H v v') (hv : Invariant R v)
    (hok : Published R H v.shared (v.tag t)) {u : Nat} (hut : u ≠ t) {H' : Set Mutex}
    (hdisj : Disjoint H H') (hok' : Published R H' v.shared (v.tag u)) : Frame R u H' v v' where
  tag := h.tags u hut
  keys := h.keys
  coordinator hm := h.coordinator.resolve_right fun hm' => Set.disjoint_left.mp hdisj hm' hm
  evolves := h.evolves
  revision := h.revision
  unrevised := h.unrevised
  registry hR hm := by
    refine (h.links hR).resolve_right ?_
    rintro ⟨grant, -, hedit⟩
    exact Set.disjoint_left.mp hdisj hedit.registry hm
  exclusive hR grant' hgrant' hex := by
    refine (h.links hR).resolve_right ?_
    rintro ⟨grant, hgrant, hedit⟩
    exact hok'.backed.exclusive_writers hok.backed hdisj.symm hgrant' hgrant hex hedit.writes
  grown hR b' hb' y c hc hnew d hd := by
    rcases h.links hR with hsame | ⟨grant, hgrant, hedit⟩
    · exact absurd (hsame.noNewLinks y c hc) hnew
    · rcases hedit.opened y c hc hnew with hex | ⟨hy, hkind, r, hr, howns⟩
      · exact absurd hd (hok.backed.exclusive_domains hok'.backed hdisj hgrant hex d)
      · refine ⟨hy, hkind, fun howns' => ?_⟩
        have hdyn : grant.guard.isDynamic = true := hedit.writes.resolve_left fun hex =>
          hok.backed.exclusive_domains hok'.backed hdisj hgrant hex d hd
        have hbasis := Backed.basis_of_held hgrant hdyn
        have hagree := hv.agree hR t u _ b' hbasis hb'
        have hrests := hok.basis hR _ hbasis
        have hrests' := hok'.basis hR b' hb'
        have hrd := hagree.domainRoot_unique
          (hrests'.shape.rootNodeId.trans hrests.shape.rootNodeId.symm) howns howns'
        subst hrd
        exact Set.disjoint_left.mp hdisj
          (hok.backed.held grant hgrant (RequestGuard.domain_mem_mutexes.mpr hr)) hd
  kept hR x d hd howns := by
    obtain ⟨n, hn⟩ := howns.live
    cases hx' : v'.shared.document.lookup x with
    | some n' => exact ⟨n', rfl⟩
    | none =>
        exfalso
        rcases h.links (R.structured_of_accounted hR) with hsame | ⟨grant, hgrant, hedit⟩
        · obtain ⟨n', hn', -⟩ := hsame.lookup hn
          rw [hn'] at hx'
          cases hx'
        · rcases hedit.closed hR x n hn hx' with hex | ⟨r, hr, howns'⟩
          · exact hok.backed.exclusive_domains hok'.backed hdisj hgrant hex d hd
          · have hrd := howns.unique howns'
            subst hrd
            exact Set.disjoint_left.mp hdisj
              (hok.backed.held grant hgrant (RequestGuard.domain_mem_mutexes.mpr hr)) hd

/-- A step that shows what `Step` asks for is permitted. -/
theorem permitted (h : Step R t H v v') (hv : Invariant R v)
    (hok : Published R H v.shared (v.tag t)) (hpeers : (discipline R).Peers t H v)
    (hcond : (discipline R).cond t v v') : (discipline R).Permitted t H v v' where
  inv := ⟨fun hR _ _ hab _ _ hD hS => h.separated hv hpeers hR (hcond.1 hR) hab hD hS, h.shape,
    h.linked, fun hR _ _ _ _ ha hb => h.agree hv hpeers hR ha hb⟩
  ok := h.published
  guar := h.guarantee
  others _ hut _ hdisj hok' := h.frame hv hok hut hdisj hok'

end Step

section Kinds

variable {R : Regime} {t : Nat} {H : Set Mutex} {v : State} (hv : Invariant R v)
  (hok : Published R H v.shared (v.tag t)) (hpeers : (discipline R).Peers t H v)
include hv hok hpeers

omit hpeers in
/-- A step that changes nothing is permitted. -/
theorem permitted_refl : (discipline R).Permitted t H v v where
  inv := hv
  ok := hok
  guar _ _ _ _ _ _ hn := .inl hn
  others _ _ _ _ _ :=
    { tag := rfl
      keys := List.Subset.refl _
      coordinator := fun _ => rfl
      evolves := fun _ => evolves_progress.refl _
      revision := fun _ => le_refl _
      unrevised := fun _ _ => ⟨fun _ _ hc => hc, fun _ => .refl _⟩
      registry := fun _ _ => .refl _
      exclusive := fun _ _ _ _ => .refl _
      grown := fun _ _ _ _ _ hc hnew => absurd hc hnew
      kept := fun _ _ _ _ howns => howns.live }

/-- A step that moves the phase of its thread, and at most adds domain locks. -/
theorem permitted_phase {update : DocumentEntry → DocumentEntry}
    {tag : DocumentEntry → GuardPhase → GuardPhase}
    (hcond : (discipline R).cond t v (Config.stepView v t update tag))
    (hdoc : (update v.shared).document = v.shared.document)
    (hrev : (update v.shared).runtime.topologyRevision = v.shared.runtime.topologyRevision)
    (hkeys : v.shared.runtime.domainIds ⊆ (update v.shared).runtime.domainIds)
    (hcoord : (update v.shared).runtime.domainIds = v.shared.runtime.domainIds ∨
      Mutex.coordinator ∈ H)
    (hpub : Published R H (update v.shared) (tag v.shared (v.tag t)))
    (hclaims : ∀ D, (tag v.shared (v.tag t)).claims = some D →
      (v.tag t).claims = some D ∨ (v.tag t).claims = none)
    (hreads : ∀ S, (tag v.shared (v.tag t)).reads = some S → (v.tag t).reads = some S ∨
      (Mutex.coordinator ∈ H ∧ (update v.shared).runtime.domainIds ⊆ S))
    (hbasis : ∀ b, (tag v.shared (v.tag t)).basis = some b →
      (v.tag t).basis = some b ∨ b.topology = v.shared.document) :
    (discipline R).Permitted t H v (Config.stepView v t update tag) := by
  refine Step.permitted ?_ hv hok hpeers hcond
  have hself := Config.stepView_tag_self v t update tag
  exact
    { tags := fun u hu => Config.stepView_tag_of_ne v hu update tag
      published := by rw [hself]; exact hpub
      keys := hkeys
      coordinator := hcoord
      claims := by rw [hself]; exact hclaims
      reads := by rw [hself]; exact hreads
      basis := by rw [hself]; exact hbasis
      shape := fun hR => by rw [Config.stepView_shared, hdoc]; exact hv.shape hR
      linked := fun hR => by rw [Config.stepView_shared, hdoc]; exact hv.linked hR
      evolves := fun _ => by rw [Config.stepView_shared, hdoc]; exact evolves_progress.refl _
      revision := fun _ => hrev.ge
      unrevised := fun _ _ => by
        rw [Config.stepView_shared, hdoc]
        exact ⟨fun _ _ hc => hc, fun _ => .refl _⟩
      links := fun _ => .inl (by rw [Config.stepView_shared, hdoc]; exact .refl _)
      guarantee := fun _ _ _ _ y n hn => .inl (by rw [Config.stepView_shared, hdoc]; exact hn) }

end Kinds

end Muxly.Daemon
