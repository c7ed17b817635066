/-
# Muxly.Daemon.Structural -- the operations that change links

An append takes a child into a parent that the guard covers, and a removal takes a subtree that the
guard covers. Between the sections of a removal other threads go on. What the first section chose
(`Chosen`) and what the last one measured (`Measured`) is carried over: under a guard that excludes
them, the others leave it true.
-/
import Muxly.Daemon.Handling
import Muxly.Daemon.Removal

namespace Muxly.Daemon

open Muxly.Control Muxly.Core Muxly.Core.Document Muxly.Sync Muxly.Sync.Program Muxly.Tree

variable {R : Regime} {t : Nat} {H : Set Mutex} {guard : RequestGuard} {topology : Document}
  {target : Option WriteTarget} {A : State → Prop} {v : State}

/-! ## The plan behind a guard -/

section Under

variable (hunder : (v.tag t).Under guard topology target)
include hunder

theorem held_of_under (hwrites : guard.isExclusive = true ∨ guard.isDynamic = true) :
    ∃ grant, v.tag t = .held grant ∧ grant.guard = guard ∧ grant.topology = topology ∧
      grant.target = target := by
  rcases under_cases hunder with ⟨-, rfl⟩ | h
  · rcases hwrites with h | h <;> cases h
  · exact h

variable (hR : R.structured) (hdyn : guard.isDynamic = true)
  (hok : Published R H v.shared (v.tag t))
include hR hdyn hok

theorem rests_of_under : Rests ⟨guard, topology, target⟩ v.shared.document := by
  obtain ⟨grant, htag, rfl, rfl, rfl⟩ := held_of_under hunder (.inr hdyn)
  exact hok.basis hR _ (Backed.basis_of_held htag hdyn)

theorem grown_of_under {x : Nat} (htarget : target = some (.remove x)) :
    Grown guard.domainIds topology v.shared.document := by
  obtain ⟨grant, htag, rfl, rfl, rfl⟩ := held_of_under hunder (.inr hdyn)
  exact hok.grown hR grant x htag hdyn htarget

end Under

/-! ## Appends -/

theorem lt_parent_of_isExclusive (hex : guard.isExclusive = true) {m : Mutex}
    (hm : m ∈ guard.mutexes) (p : Nat) : m < Mutex.parent p := by
  cases guard with
  | coordinatorExclusive domainIds =>
      rcases hm with rfl | ⟨d, -, rfl⟩
      · rw [Mutex.lt_iff, Mutex.rank, Mutex.rank, Prod.Lex.toLex_lt_toLex]
        exact .inl (by simp)
      · exact domain_lt_parent d p
  | _ => cases hex

theorem parent_lt_nodeRegistry (p : Nat) : Mutex.parent p < .nodeRegistry := by
  rw [Mutex.lt_iff, Mutex.rank, Mutex.rank, Prod.Lex.toLex_lt_toLex]
  exact .inl (by simp)

/-- The guard is exclusive, or it was planned for an append under `p`. -/
def MayAppend (R : Regime) (guard : RequestGuard) (topology : Document)
    (target : Option WriteTarget) (p : Nat) : Prop :=
  R.structured → guard.isExclusive = true ∨ (guard.isDynamic = true ∧
    target = some (.append p) ∧ ∃ request, PlanFacts topology request guard (.append p))

/-- What a plan for an append says about the parent in every later document. -/
theorem PlanFacts.append_later {d : Document} {request : RequestEnvelope} {p : Nat}
    (hfacts : PlanFacts topology request guard (.append p))
    (hrests : Rests ⟨guard, topology, target⟩ d) : p ≠ 1 ∧
      (∀ m, d.lookup p = some m →
        containerChildDomainsEnabled m.kind enabledConcurrentContainerKinds = false) ∧
      ∃ r ∈ guard.domainIds, Owns topology p r := by
  cases hfacts with
  | @append _ domainId value hmethod hvalue hpos hp hplain howns =>
      refine ⟨?_, fun m hm => ?_, domainId, List.mem_singleton_self _, howns⟩
      · rw [← hrests.shape.rootNodeId]
        exact howns.not_root hrests.shape
      · obtain ⟨m₀, hm₀, hkind⟩ := hplain
        rw [((hrests.evolves.agree hrests.shape).both hm₀ hm).1]
        exact hkind

/-- An append that was planned takes no lock for its parent. -/
theorem appendNeeds_of_plain {d : Document} (hs : Shape d) {p : Nat} (hp : p ≠ 1)
    (hplain : ∀ m, d.lookup p = some m →
      containerChildDomainsEnabled m.kind enabledConcurrentContainerKinds = false) :
    appendNeedsCoordinatorParentLock d p ≠ .ok true := by
  intro h
  unfold appendNeedsCoordinatorParentLock at h
  rw [hs.rootNodeId, if_neg hp] at h
  obtain ⟨-, -, h⟩ := bind_eq_ok.mp h
  obtain ⟨parent, hparent, h⟩ := bind_eq_ok.mp h
  cases parent with
  | none => cases h
  | some m =>
      have hkind : isConcurrentContainer m.kind = true := Except.ok.inj h
      rw [isConcurrentContainer_eq, hplain m (findNode_ok hparent)] at hkind
      cases hkind

section Append

variable (hA : Handles R t guard topology target A) {documentPath : Bytes}
  (hpath : R.structured → documentPath ≠ rootDocumentPath)
  {p : Nat} (hmay : MayAppend R guard topology target p)
include hA hmay

/-- The commit of an append, under the registry mutex. -/
theorem keeps_commitAppend (hsub : guard.mutexes ⊆ H) (hregistry : Mutex.nodeRegistry ∈ H)
    (kind : NodeKind) (title : Bytes) (source : Source) :
    (discipline R).Keeps t H A (act (commitAppend p kind title source)) := by
  refine keeps_edit hA hsub fun v hv hAv hok => ⟨?_, fun hacc x n hx =>
    live_commitAppend (hv.shape (R.structured_of_accounted hacc)) kind title source hx⟩
  refine docEdit_commitAppend kind title source hv.shape hv.linked hregistry (fun hR => ?_)
    (fun hR hdyn x => ?_) fun hacc hdyn n hn => ?_
  · refine (hmay hR).imp_right fun ⟨hdyn, _, _, hfacts⟩ => ⟨hdyn, ?_⟩
    exact hfacts.append_later (rests_of_under (hA.under v hAv) hR hdyn hok)
  · rcases hmay hR with hex | ⟨-, htarget, -⟩
    · cases guard <;> simp_all [RequestGuard.isExclusive, RequestGuard.isDynamic]
    · rw [htarget]
      simp
  · have hR := R.structured_of_accounted hacc
    have hrests := rests_of_under (hA.under v hAv) hR hdyn hok
    rcases hmay hR with hex | ⟨-, -, _, hfacts⟩
    · cases guard <;> simp_all [RequestGuard.isExclusive, RequestGuard.isDynamic]
    · obtain ⟨-, -, r, hr, howns⟩ := hfacts.append_later hrests
      exact ⟨r, hr, hrests.owns (hv.shape hR) (hv.linked hacc) howns hn⟩

include hpath

theorem keeps_appendNodeWithRuntime (kind : NodeKind) (title : Bytes) (source : Source) :
    (discipline R).Keeps t guard.mutexes A
      (appendNodeWithRuntime documentPath p kind title source) := by
  have hcommit : ∀ {H : Set Mutex}, guard.mutexes ⊆ H →
      (R.ordered → ∀ m ∈ H, m < Mutex.nodeRegistry) → (discipline R).Keeps t H A
        (withMutex .nodeRegistry (act (commitAppend p kind title source))) := fun hsub hlock =>
    keeps_section hA.toCarries hsub (by simp) hlock <|
      keeps_commitAppend hA hmay (hsub.trans (Set.subset_insert _ _)) (Set.mem_insert _ _) kind title
        source
  unfold appendNodeWithRuntime documentUsesGlobalStructuralFallback
  by_cases hroot : documentPath = rootDocumentPath
  · -- The root document: one lock for all changes of its structure.
    have hun : ¬ R.ordered := fun h => hpath (R.structured_of_ordered h) hroot
    simp only [hroot, decide_true, whenLocked, if_true, pure_eq, bind_eq, bindResult, onOk]
    exact keeps_section hA.toCarries (Set.Subset.refl _) (by simp) (fun h => absurd h hun) <|
      hcommit (Set.subset_insert _ _) fun h => absurd h hun
  · simp only [hroot, decide_false, whenLocked, Bool.false_eq_true, if_false]
    -- A planned append takes no lock for its parent.
    have hstable : ∀ (H : Set Mutex), guard.mutexes ⊆ H → ∀ r : Except Failure Bool,
        (discipline R).Stable t H fun v =>
          A v ∧ (R.structured → r = .ok true → guard.isExclusive = true) :=
      fun H hsub r => (hA.stable_at hsub).and fun _ _ _ _ _ h _ => h
    have hneeds : (discipline R).Ensures t guard.mutexes A
        (withMutex .nodeRegistry
          (read fun e => appendNeedsCoordinatorParentLock e.document p))
        fun r v => A v ∧ (R.structured → r = .ok true → guard.isExclusive = true) := by
      refine ensures_section hA.toCarries (Set.Subset.refl _) (by simp)
        (fun _ _ _ _ _ _ hm => lt_nodeRegistry_of_mem_mutexes hm)
        (ensures_read (hstable _ (Set.subset_insert _ _)) fun v hv hAv hok => ⟨hAv, fun hR h => ?_⟩)
        (fun r v h => ⟨h, hA.under v h.1⟩) (hstable _ (Set.Subset.refl _))
      refine (hmay hR).resolve_right ?_
      rintro ⟨hdyn, -, _, hfacts⟩
      obtain ⟨hp, hplain, -⟩ := hfacts.append_later (rests_of_under (hA.under v hAv) hR hdyn hok)
      exact appendNeeds_of_plain (hv.shape hR) hp hplain h
    refine hneeds.bind fun r => ?_
    cases r with
    | error failure => exact .ret fun _ _ h => h.1
    | ok needsParentLock =>
        cases needsParentLock with
        | false =>
            refine Discipline.Ensures.pre ?_ fun _ _ h => h.1
            exact hcommit (Set.Subset.refl _) fun _ _ hm => lt_nodeRegistry_of_mem_mutexes hm
        | true =>
            refine ensures_section (p := withMutex .nodeRegistry _) (P := fun _ => A)
              ⟨fun v h => hA.under v h.1, hstable _ (Set.Subset.refl _) _⟩ (Set.Subset.refl _)
              (by simp) (fun v _ hAv _ hR m hm => ?_) (.pre (hcommit (Set.subset_insert _ _) ?_)
              fun _ _ h => h.1) (fun _ v hAv => ⟨hAv, hA.under v hAv⟩)
              fun _ => hA.stable_at (Set.Subset.refl _)
            · exact lt_parent_of_isExclusive (hAv.2 (R.structured_of_ordered hR) rfl) hm p
            · intro _ m hm
              rcases hm with rfl | hm
              · exact parent_lt_nodeRegistry p
              · exact lt_nodeRegistry_of_mem_mutexes hm

end Append

/-! ## Removals -/

/-- What a handler knows about the node that it resolved. -/
structure Known (R : Regime) (guard : RequestGuard) (topology : Document)
    (target : Option WriteTarget) (x : Int) (v : State) : Prop where
  same : R.accounted → guard.isDynamic = true → ∃ w, target = some w ∧ x = w.nodeId
  heir : R.structured → ∀ y p domainId, guard = .structuralWrite domainId p →
    target = some (.remove y) → OrdinaryChild topology y p → Owns topology y domainId →
    Heir y p x.toNat v.shared.document

theorem Known.later {x : Int} {v' : State} (h : Known R guard topology target x v)
    (hs : R.structured → Shape v.shared.document)
    (he : R.structured → Evolves v.shared.document v'.shared.document) :
    Known R guard topology target x v' :=
  ⟨h.same, fun hR y p domainId hguard htarget hchild howns =>
    (h.heir hR y p domainId hguard htarget hchild howns).later (hs hR) (he hR)⟩

theorem handles_known (hA : Handles R t guard topology target A) (x : Int) :
    Handles R t guard topology target fun v => A v ∧ Known R guard topology target x v where
  under v h := hA.under v h.1
  stable v v' hv hv' hok h hr :=
    ⟨hA.stable v v' hv hv' hok h.1 hr, h.2.later hv.shape (Frame.evolves hr)⟩
  own v v' hv h hunder he hlive := ⟨hA.own v v' hv h.1 hunder he hlive, h.2.later hv.shape he⟩

/-- The guard is exclusive, or it was planned for a removal. -/
def MayRemove (R : Regime) (guard : RequestGuard) (topology : Document)
    (target : Option WriteTarget) : Prop :=
  R.structured → guard.isExclusive = true ∨ (guard.isDynamic = true ∧
    ∃ request y, target = some (.remove y) ∧ PlanFacts topology request guard (.remove y))

theorem planned_removal (hmay : MayRemove R guard topology target) {x : Nat}
    (htarget : target = some (.remove x)) (hR : R.structured) (hdyn : guard.isDynamic = true) :
    ∃ request, PlanFacts topology request guard (.remove x) := by
  rcases hmay hR with hex | ⟨-, request, y, htarget', hfacts⟩
  · cases guard <;> simp_all [RequestGuard.isExclusive, RequestGuard.isDynamic]
  · rw [htarget] at htarget'
    cases htarget'
    exact ⟨request, hfacts⟩

/-- What the first section of a removal leaves: how the node is removed, and from which parent. -/
structure Chosen (R : Regime) (guard : RequestGuard) (x : Nat) (mode : RemoveExecutionMode)
    (p : Nat) (v : State) : Prop where
  resolved : R.structured → ∃ d n, Shape d ∧ Evolves d v.shared.document ∧ Resolved d x mode p n
  leaf : R.accounted → ¬ mode.isRecursive → v.shared.document.childrenOf x = []
  order : R.ordered → mode = .leafCoordinator ∨ mode = .recursiveCoordinatorSafe →
    ∀ m ∈ guard.mutexes, m < Mutex.parent p

section Chosen

variable {x p : Nat} {mode : RemoveExecutionMode} (hmay : MayRemove R guard topology target)
include hmay

theorem chosen_of_resolve (hv : Invariant R v) (hok : Published R H v.shared (v.tag t))
    (hunder : (v.tag t).Under guard topology target)
    (hknown : Known R guard topology target x v)
    (hresolve : resolveRemoval v.shared.document x = .ok (mode, p)) : Chosen R guard x mode p v := by
  obtain ⟨hmode, n, hres⟩ := resolveRemoval_ok hresolve
  refine ⟨fun hR => ⟨_, n, hv.shape hR, evolves_progress.refl _, hres⟩, fun _ hrec => ?_,
    fun hO hcoord m hm => ?_⟩
  · rw [childrenOf_eq hres.node]
    exact hres.leaf.resolve_left hrec
  · have hR := R.structured_of_ordered hO
    rcases hmay hR with hex | ⟨hdyn, request, y, htarget, hfacts⟩
    · exact lt_parent_of_isExclusive hex hm p
    · cases hfacts with
      | participate =>
          obtain ⟨d, -, rfl⟩ := hm
          exact domain_lt_parent d p
      | @remove _ q domainId hmethod hres' hchild hplain howns =>
          rcases hm with rfl | ⟨d, -, rfl⟩
          · -- The parent is another one than the one that the guard has locked.
            have hrests := rests_of_under hunder hR hdyn hok
            have hgrown := grown_of_under hunder hR hdyn hok htarget
            have hheir := hknown.heir hR y q domainId rfl htarget hchild howns
            have hlt : q < p := hheir.coordinator_parent hrests (hv.shape hR) hchild hplain howns
              hgrown hmode hcoord hres.node hres.parentId
            rw [Mutex.lt_iff, Mutex.rank, Mutex.rank, Prod.Lex.toLex_lt_toLex]
            exact .inr ⟨rfl, hlt⟩
          · exact domain_lt_parent d p

/-- Nothing is added below the node meanwhile. -/
theorem stable_chosen (hA : Handles R t guard topology target A)
    (hknown : ∀ v, A v → Known R guard topology target x v) :
    (discipline R).Stable t guard.mutexes fun v => A v ∧ Chosen R guard x mode p v := by
  intro v v' hv hv' hok h hr
  have hframe : Frame R t guard.mutexes v v' := hr
  obtain ⟨hAv, hchosen⟩ := h
  refine ⟨hA.stable v v' hv hv' hok hAv hr, fun hR => ?_, fun hacc hrec => ?_, hchosen.order⟩
  · obtain ⟨d, n, hs, he, hres⟩ := hchosen.resolved hR
    exact ⟨d, n, hs, evolves_progress.trans he (hframe.evolves hR), hres⟩
  · have hR := R.structured_of_accounted hacc
    have hempty := hchosen.leaf hacc hrec
    rcases hmay hR with hex | ⟨hdyn, request, y, htarget, hfacts⟩
    · obtain ⟨grant, htag, rfl, -, -⟩ := held_of_under (hA.under v hAv) (.inl hex)
      rw [(hframe.exclusive hR grant htag hex).childrenOf, hempty]
    · obtain ⟨w, hw, hxw⟩ := (hknown v hAv).same hacc hdyn
      rw [htarget] at hw
      cases hw
      obtain rfl : x = y := Int.ofNat.inj hxw
      have hrests := rests_of_under (hA.under v hAv) hR hdyn hok
      obtain ⟨r, hr, howns⟩ := hfacts.owned hrests.shape
      refine List.eq_nil_iff_forall_not_mem.mpr fun c hc => ?_
      obtain ⟨grant, htag, hguard, htopology, htarget'⟩ :=
        held_of_under (hA.under v hAv) (.inr hdyn)
      subst hguard htopology
      have hnew : c ∉ v.shared.document.childrenOf x := by
        rw [hempty]
        exact List.not_mem_nil
      exact (hframe.grown hR _ (Backed.basis_of_held htag hdyn) x c hc hnew r
        (RequestGuard.domain_mem_mutexes.mpr hr)).2.2 howns

end Chosen

/-- The nodes that a removal takes hang together, whatever the contents. -/
theorem removable_of_sameLinks {d d' : Document} (h : SameLinks d d') {p x : Nat}
    {postorder : List Nat} (hr : Removable d p x postorder) : Removable d' p x postorder where
  nodup := hr.nodup
  target := hr.target
  parent := by
    obtain ⟨n, hn, hp⟩ := hr.parent
    obtain ⟨n', hn', hlinks⟩ := h.lookup hn
    exact ⟨n', hn', (hlinks.2.1).trans hp⟩
  live y hy := by
    obtain ⟨n, hn⟩ := hr.live y hy
    obtain ⟨n', hn', -⟩ := h.lookup hn
    exact ⟨n', hn'⟩
  upward y hy hyx := by
    obtain ⟨n, q, hn, hq, hmem⟩ := hr.upward y hy hyx
    obtain ⟨n', hn', hlinks⟩ := h.lookup hn
    exact ⟨n', q, hn', (hlinks.2.1).trans hq, hmem⟩

theorem below_of_sameLinks {d d' : Document} (h : SameLinks d d') (hs : Shape d) (hs' : Shape d')
    {x y : Nat} (hy : hs.forest.Below x y) : hs'.forest.Below x y := by
  induction hy with
  | refl => exact hs'.forest.below_self x
  | @tail p c _ hc ih =>
      have hmem : c ∈ d.childrenOf p := hc
      rw [← h.childrenOf p] at hmem
      exact ih.tail hmem

/-- What the second section of a removal has measured, while it holds the registry mutex. -/
structure Measured (R : Regime) (t : Nat) (guard : RequestGuard) (topology : Document)
    (target : Option WriteTarget) (p x : Nat) (postorder : List Nat) (total : Nat) (v : State) :
    Prop where
  under : (v.tag t).Under guard topology target
  tagged : ∀ grant, v.tag t = .held grant → grant.measured = some total
  same : R.accounted → guard.isDynamic = true → target = some (.remove x)
  links : R.structured → ∃ hs : Shape v.shared.document,
    Removable v.shared.document p x postorder ∧ (R.accounted → ∀ y ∈ postorder,
      hs.forest.Below x y ∧ ∀ c ∈ v.shared.document.childrenOf y, c ∈ postorder)

section Measured

variable {x p total : Nat} {mode : RemoveExecutionMode} {postorder : List Nat}

theorem stable_measured (hregistry : Mutex.nodeRegistry ∈ H) : (discipline R).Stable t H
    (Measured R t guard topology target p x postorder total) := by
  intro v v' hv hv' hok h hr
  have hframe : Frame R t H v v' := hr
  refine ⟨by rw [hframe.tag]; exact h.under, by rw [hframe.tag]; exact h.tagged, h.same,
    fun hR => ?_⟩
  obtain ⟨hs, hremovable, hclosed⟩ := h.links hR
  have hsame := hframe.registry hR hregistry
  refine ⟨hv'.shape hR, removable_of_sameLinks hsame hremovable, fun hacc y hy => ?_⟩
  obtain ⟨hbelow, hdown⟩ := hclosed hacc y hy
  refine ⟨below_of_sameLinks hsame hs _ hbelow, fun c hc => hdown c ?_⟩
  rwa [hsame.childrenOf] at hc

/-- What `measureRemoval` has listed and counted. -/
theorem measureRemoval_ok {d : Document}
    (h : measureRemoval d mode x = .ok (postorder, total)) :
    (mode.isRecursive ∧ d.collectSubtreePostorder x = .ok postorder ∨
      ¬ mode.isRecursive ∧ postorder = [x]) ∧
    d.totalContentBytesForNodes postorder = .ok total := by
  unfold measureRemoval at h
  simp only at h
  split at h
  · rename_i hrec
    obtain ⟨order, horder, h⟩ := bind_eq_ok.mp h
    obtain ⟨sum, hsum, h⟩ := bind_eq_ok.mp h
    cases h
    exact ⟨.inl ⟨hrec, horder⟩, hsum⟩
  · rename_i hrec
    rw [pure_eq_ok, ok_bind] at h
    obtain ⟨sum, hsum, h⟩ := bind_eq_ok.mp h
    cases h
    exact ⟨.inr ⟨hrec, rfl⟩, hsum⟩

theorem live_of_measure {d : Document} (h : measureRemoval d mode x = .ok (postorder, total)) :
    ∃ n, d.lookup x = some n := by
  obtain ⟨⟨-, horder⟩ | ⟨-, rfl⟩, hsum⟩ := measureRemoval_ok h
  · obtain ⟨n, hn, -⟩ := bind_eq_ok.mp horder
    exact ⟨n, nodeOr_eq_ok.mp hn⟩
  · obtain ⟨_, hfirst, -⟩ := bind_eq_ok.mp hsum
    obtain ⟨n, hn, -⟩ := bind_eq_ok.mp hfirst
    exact ⟨n, nodeOr_eq_ok.mp hn⟩

theorem order_of_measure {d : Document} (hs : Shape d) {n : Node} (hx : d.lookup x = some n)
    (h : measureRemoval d mode x = .ok (postorder, total)) :
    (mode.isRecursive ∧ postorder = hs.forest.postorder x) ∨
      (¬ mode.isRecursive ∧ postorder = [x]) := by
  refine (measureRemoval_ok h).1.imp_left fun ⟨hrec, horder⟩ => ⟨hrec, ?_⟩
  rw [hs.collectSubtreePostorder_eq hx] at horder
  exact (Except.ok.inj horder).symm

theorem links_of_measure (hv : Invariant R v) (hchosen : Chosen R guard x mode p v)
    (h : measureRemoval v.shared.document mode x = .ok (postorder, total)) (hR : R.structured) :
    ∃ hs : Shape v.shared.document, Removable v.shared.document p x postorder ∧
      (R.accounted → ∀ y ∈ postorder, hs.forest.Below x y ∧
        ∀ c ∈ v.shared.document.childrenOf y, c ∈ postorder) := by
  have hs := hv.shape hR
  obtain ⟨n, hn⟩ := live_of_measure h
  -- The node still has the parent that was chosen.
  have hp : n.parentId = some p := by
    obtain ⟨d, n₀, hs₀, he, hres⟩ := hchosen.resolved hR
    rw [((he.agree hs₀).both hres.node hn).2]
    exact hres.parentId
  refine ⟨hs, ?_⟩
  rcases order_of_measure hs hn h with ⟨-, rfl⟩ | ⟨hrec, rfl⟩
  · refine ⟨hs.removable_postorder hn hp, fun _ y hy => ?_⟩
    have hbelow := hs.forest.mem_postorder.mp hy
    exact ⟨hbelow, fun c hc => hs.forest.mem_postorder.mpr (hbelow.tail hc)⟩
  · refine ⟨⟨List.nodup_singleton x, List.mem_singleton_self x, ⟨n, hn, hp⟩, fun y hy => ?_,
      fun y hy hyx => absurd (List.mem_singleton.mp hy) hyx⟩, fun hacc y hy => ?_⟩
    · rw [List.mem_singleton.mp hy]
      exact ⟨n, hn⟩
    · obtain rfl := List.mem_singleton.mp hy
      refine ⟨hs.forest.below_self y, fun c hc => ?_⟩
      rw [hchosen.leaf hacc hrec] at hc
      cases hc

variable (hmay : MayRemove R guard topology target)
include hmay

/-- The measured nodes are removed, and nothing else has to be known. -/
theorem leads_commitRemoval (hregistry : Mutex.nodeRegistry ∈ H) :
    (discipline R).Leads t H (Measured R t guard topology target p x postorder total)
      (actTag (commitRemoval p x postorder total) fun _ =>
        GuardPhase.record fun grant => { grant with measured := none })
      fun v => (v.tag t).Under guard topology target := by
  refine Discipline.ensures_actTag (fun _ => stable_under _ _ _ _)
    fun v hv hM hok hpeers hcond => ?_
  have hf : Recording R guard target fun grant => { grant with measured := none } :=
    ⟨fun _ => rfl, fun _ => rfl, fun _ => rfl, fun _ _ _ _ h => .inl h⟩
  have hwrites : R.structured → guard.isExclusive = true ∨ guard.isDynamic = true :=
    fun hR => (hmay hR).imp_right And.left
  refine ⟨permitted_edit hf hM.under hv hok hpeers hcond rfl
    (docEdit_commitRemoval hv.shape hv.linked hregistry hwrites
      (fun hacc hdyn => ⟨x, hM.same hacc hdyn⟩) fun hR => ?_), ?_⟩
  · obtain ⟨hs, hremovable, hclosed⟩ := hM.links hR
    refine ⟨hremovable, fun hacc y hy => (hclosed hacc y hy).2, fun hacc => ?_,
      fun hacc hdyn y hy => ?_, fun hacc hdyn => ?_⟩
    · obtain ⟨grant, htag, -⟩ := held_of_under hM.under (hwrites hR)
      exact hcond.2 hacc grant total htag (hM.tagged grant htag)
    · obtain ⟨request, hfacts⟩ := planned_removal hmay (hM.same hacc hdyn) hR hdyn
      obtain ⟨n, hn, -⟩ := hremovable.parent
      exact removal_nodes (rests_of_under hM.under hR hdyn hok) hfacts
        (grown_of_under hM.under hR hdyn hok (hM.same hacc hdyn)) hs (hv.linked hacc) hn
        (hclosed hacc y hy).1
    · obtain ⟨request, hfacts⟩ := planned_removal hmay (hM.same hacc hdyn) hR hdyn
      obtain ⟨n, hn, hp⟩ := hremovable.parent
      exact removal_parent (rests_of_under hM.under hR hdyn hok) hfacts hs (hv.linked hacc) hn hp
  · rw [Config.stepView_tag_self]
    exact hf.under hM.under

end Measured

section Removal

variable (hA : Handles R t guard topology target A) {x : Nat}
  (hknown : ∀ v, A v → Known R guard topology target x v)
  (hmay : MayRemove R guard topology target)
include hA hknown hmay

/-- The nodes are measured, and what was measured is recorded. -/
theorem ensures_measure (hsub : guard.mutexes ⊆ H) (hregistry : Mutex.nodeRegistry ∈ H)
    (mode : RemoveExecutionMode) (p : Nat) :
    (discipline R).Ensures t H (fun v => A v ∧ Chosen R guard x mode p v)
      (actTag (fun e => (measureRemoval e.document mode x, e)) (measuredPhase mode x))
      fun r v => match r with
        | .ok (postorder, total) => Measured R t guard topology target p x postorder total v
        | .error _ => (v.tag t).Under guard topology target := by
  refine Discipline.ensures_actTag (fun r => ?_) fun v hv h hok hpeers hcond => ?_
  · cases r with
    | ok measured => exact stable_measured hregistry
    | error failure => exact stable_under _ _ _ _
  obtain ⟨hAv, hchosen⟩ := h
  have hunder := hA.under v hAv
  have hf : Recording R guard target fun grant =>
      match measureRemoval v.shared.document mode x with
      | .ok (_, totalContentBytes) => { grant with measured := some totalContentBytes }
      | .error _ => grant := by
    cases measureRemoval v.shared.document mode x with
    | ok measured => exact ⟨fun _ => rfl, fun _ => rfl, fun _ => rfl, fun _ _ _ _ h => .inl h⟩
    | error failure => exact recording_id
  have hunder' := hf.under hunder
  refine ⟨permitted_edit hf hunder hv hok hpeers hcond rfl (.refl v.shared hv.shape hv.linked), ?_⟩
  have htag := Config.stepView_tag_self v t
    (fun e => ((measureRemoval e.document mode x, e) : _ × DocumentEntry).2) (measuredPhase mode x)
  cases hmeasure : measureRemoval v.shared.document mode x with
  | error failure =>
      show GuardPhase.Under _ _ _ _
      rw [htag]
      exact hunder'
  | ok measured =>
      obtain ⟨postorder, total⟩ := measured
      have hlinks := links_of_measure hv hchosen hmeasure
      refine ⟨by rw [htag]; exact hunder', fun grant' hgrant' => ?_, fun hacc hdyn => ?_, hlinks⟩
      · rw [htag, measuredPhase] at hgrant'
        rcases under_cases hunder with ⟨hidle, -⟩ | ⟨grant, hgrant, -⟩
        · rw [hidle] at hgrant'
          cases hgrant'
        · rw [hgrant, hmeasure] at hgrant'
          cases hgrant'
          rfl
      · obtain ⟨w, hw, hxw⟩ := (hknown v hAv).same hacc hdyn
        rcases hmay (R.structured_of_accounted hacc) with hex | ⟨-, -, y, htarget, -⟩
        · cases guard <;> simp_all [RequestGuard.isExclusive, RequestGuard.isDynamic]
        · rw [htarget] at hw ⊢
          cases hw
          rw [show x = y from Int.ofNat.inj hxw]

/-- The last section of a removal. -/
theorem leads_removeMeasured (hsub : guard.mutexes ⊆ H)
    (hlock : R.ordered → ∀ m ∈ H, m < Mutex.nodeRegistry) (mode : RemoveExecutionMode) (p : Nat) :
    (discipline R).Leads t H (fun v => A v ∧ Chosen R guard x mode p v)
      (withMutex .nodeRegistry do
        let (postorder, totalContentBytes) ←
          actTag (fun e => (measureRemoval e.document mode x, e)) (measuredPhase mode x)
        withMutex .contentBytes <|
          actTag (commitRemoval p x postorder totalContentBytes) fun _ =>
            GuardPhase.record fun grant => { grant with measured := none })
      fun v => (v.tag t).Under guard topology target := by
  have hsub' : guard.mutexes ⊆ insert .nodeRegistry H := hsub.trans (Set.subset_insert _ _)
  have hstable : (discipline R).Stable t guard.mutexes fun v => A v ∧ Chosen R guard x mode p v :=
    stable_chosen hmay hA hknown
  refine ensures_section ⟨fun v h => hA.under v h.1, hstable⟩ hsub (by simp) (fun _ _ _ _ => hlock)
    (P := fun _ v => (v.tag t).Under guard topology target) ?_ (fun _ _ h => ⟨h, h⟩)
    fun _ => stable_under _ _ _ _
  refine (ensures_measure hA hknown hmay hsub' (Set.mem_insert _ _) mode p).leads ?_
    fun _ _ _ h => h
  rintro ⟨postorder, total⟩
  refine Discipline.ensures_withMutex (P := fun _ v => (v.tag t).Under guard topology target)
    (fun v _ _ _ hO m hm => ?_)
    (fun v _ _ hok => Published.take hok fun d hd => by cases hd)
    (stable_measured (.inr (Set.mem_insert _ _)))
    (leads_commitRemoval hmay (.inr (Set.mem_insert _ _)))
    (fun _ v _ h hok => ⟨h, Published.give_under hok h (Set.subset_insert _ _) hsub'⟩)
    fun _ => stable_under _ _ _ _
  rcases hm with rfl | hm
  · exact nodeRegistry_lt_contentBytes
  · exact (hlock hO m hm).trans nodeRegistry_lt_contentBytes

/-- A node is removed under a guard for its subtree; the guard is still held then. -/
theorem leads_removeNodeWithRuntime {documentPath : Bytes}
    (hpath : R.structured → documentPath ≠ rootDocumentPath) :
    (discipline R).Leads t guard.mutexes A (removeNodeWithRuntime documentPath x)
      fun v => (v.tag t).Under guard topology target := by
  have hlow : ∀ m ∈ guard.mutexes, m < Mutex.nodeRegistry :=
    fun m hm => lt_nodeRegistry_of_mem_mutexes hm
  -- The first section: what is chosen there is carried over.
  have hchoose : ∀ {H : Set Mutex}, guard.mutexes ⊆ H →
      (R.ordered → ∀ m ∈ H, m < Mutex.nodeRegistry) → (discipline R).Ensures t H A
        (withMutex .nodeRegistry (read fun e => resolveRemoval e.document x))
        fun r v => match r with
          | .ok (mode, p) => A v ∧ Chosen R guard x mode p v
          | .error _ => A v := by
    intro H hsub hlock
    have hstable : ∀ {H : Set Mutex}, guard.mutexes ⊆ H →
        ∀ r : Except Failure (RemoveExecutionMode × Nat), (discipline R).Stable t H fun v =>
          match r with
          | .ok (mode, p) => A v ∧ Chosen R guard x mode p v
          | .error _ => A v := by
      intro H hsub r
      cases r with
      | ok chosen =>
          have hcarries : Carries R t guard topology target
              fun v => A v ∧ Chosen R guard x chosen.1 chosen.2 v :=
            ⟨fun v h => hA.under v h.1, stable_chosen hmay hA hknown⟩
          exact hcarries.stable_at hsub
      | error failure => exact hA.stable_at hsub
    refine ensures_section hA.toCarries hsub (by simp) (fun _ _ _ _ => hlock)
      (ensures_read (hstable (hsub.trans (Set.subset_insert _ _))) fun v hv hAv hok => ?_)
      (fun r v h => ⟨h, ?_⟩) (hstable hsub)
    · cases hresolve : resolveRemoval v.shared.document x with
      | ok chosen => exact ⟨hAv, chosen_of_resolve hmay hv hok (hA.under v hAv) (hknown v hAv) hresolve⟩
      | error failure => exact hAv
    · cases r with
      | ok chosen => exact hA.under v h.1
      | error failure => exact hA.under v h
  unfold removeNodeWithRuntime documentUsesGlobalStructuralFallback
  by_cases hroot : documentPath = rootDocumentPath
  · have hun : ¬ R.ordered := fun h => hpath (R.structured_of_ordered h) hroot
    have hsub : guard.mutexes ⊆ insert .globalStructureFallback guard.mutexes :=
      Set.subset_insert _ _
    simp only [hroot, decide_true, whenLocked, if_true, Bool.not_true, Bool.false_and,
      Bool.false_eq_true, if_false]
    refine ensures_section hA.toCarries (Set.Subset.refl _) (by simp)
      (fun _ _ _ _ h => absurd h hun) (P := fun _ v => (v.tag t).Under guard topology target)
      ?_ (fun _ _ h => ⟨h, h⟩) fun _ => stable_under _ _ _ _
    refine (hchoose hsub fun h => absurd h hun).leads ?_ fun _ v _ h => hA.under v h
    rintro ⟨mode, p⟩
    exact leads_removeMeasured hA hknown hmay hsub (fun h => absurd h hun) mode p
  · simp only [hroot, decide_false, whenLocked, Bool.false_eq_true, if_false, Bool.not_false,
      Bool.true_and]
    refine (hchoose (Set.Subset.refl _) fun _ => hlow).leads ?_ fun _ v _ h => hA.under v h
    rintro ⟨mode, p⟩
    simp only
    split
    · rename_i hcoord
      have hmode : mode = .leafCoordinator ∨ mode = .recursiveCoordinatorSafe := by
        simpa using hcoord
      refine ensures_section ⟨fun v h => hA.under v h.1, stable_chosen hmay hA hknown⟩
        (Set.Subset.refl _) (by simp) (fun v _ h _ hO => h.2.order hO hmode)
        (P := fun _ v => (v.tag t).Under guard topology target) ?_ (fun _ _ h => ⟨h, h⟩)
        fun _ => stable_under _ _ _ _
      refine leads_removeMeasured hA hknown hmay (Set.subset_insert _ _) (fun _ m hm => ?_) mode p
      rcases hm with rfl | hm
      · exact parent_lt_nodeRegistry p
      · exact hlow m hm
    · exact leads_removeMeasured hA hknown hmay (Set.Subset.refl _) (fun _ => hlow) mode p

end Removal

end Muxly.Daemon
