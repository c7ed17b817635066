/-
# Muxly.Daemon.Requests -- every request follows the guard protocol

A handler starts with a guard that suits its request and ends with the guard still held; then the
guard is released. One lemma for each handler, and one for the dispatch.
-/
import Muxly.Daemon.Structural

namespace Muxly.Daemon

open Muxly.Control Muxly.Core Muxly.Core.Document Muxly.Sync Muxly.Sync.Program Muxly.Tree

variable {R : Regime} {t : Nat} {H : Set Mutex} {guard : RequestGuard} {topology : Document}
  {target : Option WriteTarget} {documentPath : Bytes} {request : RequestEnvelope} {v : State}

/-! ## What a suitable guard permits -/

namespace Suits

variable (h : Suits R documentPath request guard topology target)
include h

/-- A method that is not planned holds no planned guard. -/
theorem static (hlane : requestSupportsDynamicDomainLane request = false) :
    guard.isDynamic = false := by
  cases hdyn : guard.isDynamic with
  | false => rfl
  | true =>
      rw [h.lane hdyn] at hlane
      cases hlane

theorem handles : Handles R t guard topology target (Fresh R t guard topology target) :=
  handles_fresh fun hR hdyn => h.plan hR hdyn

variable (hpath : R.structured → documentPath ≠ rootDocumentPath)
  (hquiescent : requestUsesQuiescentReadGuard request.method = false)
include hpath hquiescent

theorem writes (hR : R.structured) : guard.isExclusive = true ∨ guard.isDynamic = true := by
  rcases h.kind with ⟨-, hroot⟩ | hex | hdyn | hread
  · exact absurd hroot (hpath hR)
  · exact .inl hex
  · exact .inr hdyn
  · rw [hquiescent] at hread
    cases hread

theorem mayAppend_of_static (hlane : requestSupportsDynamicDomainLane request = false) (p : Nat) :
    MayAppend R guard topology target p := fun hR =>
  (h.writes hpath hquiescent hR).imp_right fun hdyn => by
    rw [h.static hlane] at hdyn
    cases hdyn

theorem mayAppend (hmethod : requestIsAppendLike request.method = true) {value : Int} {p : Nat}
    (hvalue : getInteger request.params (ascii "parentId") = some value) (hp : value = p) :
    MayAppend R guard topology target p := by
  intro hR
  refine (h.writes hpath hquiescent hR).imp_right fun hdyn => ⟨hdyn, ?_⟩
  have hremove : requestIsRemoveLike request.method = false := by
    revert hmethod
    cases request.method <;> simp [requestIsAppendLike, requestIsRemoveLike]
  obtain ⟨w, hw, hfacts⟩ := h.plan hR hdyn
  cases hfacts with
  | content hplain =>
      rw [requestIsStructuralDomainWrite, hmethod] at hplain
      cases hplain
  | @append q domainId value' hmethod' hvalue' hpos hq hplain howns =>
      rw [hvalue] at hvalue'
      cases hvalue'
      have hqp : q = p := by rw [hq, hp, Int.toNat_natCast]
      subst hqp
      exact ⟨hw, request, .append hmethod' hvalue hpos hq hplain howns⟩
  | remove hmethod' => rw [hremove] at hmethod'; cases hmethod'
  | participate hmethod' => rw [hremove] at hmethod'; cases hmethod'

theorem mayRemove (hmethod : requestIsRemoveLike request.method = true) :
    MayRemove R guard topology target := by
  intro hR
  refine (h.writes hpath hquiescent hR).imp_right fun hdyn => ⟨hdyn, request, ?_⟩
  have happend : requestIsAppendLike request.method = false := by
    revert hmethod
    cases request.method <;> simp [requestIsAppendLike, requestIsRemoveLike]
  obtain ⟨w, hw, hfacts⟩ := h.plan hR hdyn
  cases hfacts with
  | content hplain =>
      rw [requestIsStructuralDomainWrite, hmethod, Bool.or_true] at hplain
      cases hplain
  | append hmethod' => rw [happend] at hmethod'; cases hmethod'
  | remove hmethod' hresolve hchild hplain howns =>
      exact ⟨_, hw, .remove hmethod' hresolve hchild hplain howns⟩
  | participate hmethod' hresolve hroot hlive hsorted hlength hcover =>
      exact ⟨_, hw, .participate hmethod' hresolve hroot hlive hsorted hlength hcover⟩

end Suits

/-! ## The node that a handler resolves -/

/-- A plan that is not for an append has resolved a node. -/
theorem PlanFacts.resolves {d : Document} {w : WriteTarget}
    (h : PlanFacts d request guard w) (hmethod : requestIsAppendLike request.method = false) :
    resolveRequestNodeId d request = .ok w.nodeId := by
  cases h with
  | content _ hresolve => exact hresolve
  | append hmethod' => rw [hmethod] at hmethod'; cases hmethod'
  | remove _ hresolve => exact hresolve
  | participate _ hresolve => exact hresolve

section Resolve

variable (hsuits : Suits R documentPath request guard topology target)
  (hmethod : requestIsAppendLike request.method = false)
include hsuits hmethod

theorem known_of_resolve (hv : Invariant R v) (hfresh : Fresh R t guard topology target v)
    (hok : Published R H v.shared (v.tag t)) {n : Int}
    (hresolve : requestNodeIdOrError v.shared.document request = .ok n) :
    Known R guard topology target n v := by
  refine ⟨fun hacc hdyn => ?_, fun hR y p domainId hguard htarget hchild howns => ?_⟩
  · have hR := R.structured_of_accounted hacc
    obtain ⟨w, hw, hfacts⟩ := hsuits.plan hR hdyn
    have hrests := rests_of_under hfresh.under hR hdyn hok
    obtain ⟨x', rfl, hpar⟩ := requestNodeId_parallel hrests.shape (hv.shape hR) hrests.evolves
      (hfacts.resolves hmethod) hresolve
    obtain ⟨m, hm⟩ := hfresh.live hdyn hacc w hw
    rw [hpar.eq_of_live hrests.shape (hv.shape hR) hrests.evolves (hv.linked hacc) hm]
    exact ⟨w, hw, rfl⟩
  · have hdyn : guard.isDynamic = true := by rw [hguard]; rfl
    obtain ⟨w, hw, hfacts⟩ := hsuits.plan hR hdyn
    have hrests := rests_of_under hfresh.under hR hdyn hok
    rw [htarget] at hw
    cases hw
    obtain ⟨x', rfl, hpar⟩ := requestNodeId_parallel hrests.shape (hv.shape hR) hrests.evolves
      (hfacts.resolves hmethod) hresolve
    rw [Int.toNat_natCast]
    refine heir_of_parallel hrests.shape (hv.shape hR) hrests.evolves
      (grown_of_under hfresh.under hR hdyn hok htarget) hchild ?_ howns hpar
    rw [hguard]
    exact List.mem_singleton_self _

/-- The node of the request is looked up, and recorded with the guard. -/
theorem leads_withNodeTarget (hsub : guard.mutexes ⊆ H) {k : Int → EntryM Body} {B : State → Prop}
    (hk : ∀ n, (discipline R).Leads t H
      (fun v => Fresh R t guard topology target v ∧ Known R guard topology target n v) (k n) B)
    (hB : ∀ v, Invariant R v → Fresh R t guard topology target v → B v) :
    (discipline R).Leads t H (Fresh R t guard topology target) (withNodeTarget request k) B := by
  have hF : Handles R t guard topology target (Fresh R t guard topology target) := hsuits.handles
  have hstep : (discipline R).Ensures t H (Fresh R t guard topology target)
      (actTag (fun e => (requestNodeIdOrError e.document request, e)) (resolvedPhase request))
      fun r v => Fresh R t guard topology target v ∧
        ∀ n, r = .ok n → Known R guard topology target n v := by
    refine Discipline.ensures_actTag (fun r => ?_) fun v hv hfresh hok hpeers hcond => ?_
    · cases r with
      | ok n =>
          intro v v' hv hv' hok h hr
          obtain ⟨hfresh', hknown'⟩ := (handles_known hF n).stable_at hsub v v' hv hv' hok
            ⟨h.1, h.2 n rfl⟩ hr
          exact ⟨hfresh', fun m hm => by cases hm; exact hknown'⟩
      | error failure =>
          exact (hF.stable_at hsub).and fun _ _ _ _ _ _ _ n hn => by cases hn
    have hknown : ∀ {n : Int}, requestNodeIdOrError v.shared.document request = .ok n →
        Known R guard topology target n v := known_of_resolve hsuits hmethod hv hfresh hok
    obtain ⟨f, hf, hphase⟩ : ∃ f, Recording R guard target f ∧
        resolvedPhase request v.shared = GuardPhase.record f := by
      unfold resolvedPhase
      cases hresolve : requestNodeIdOrError v.shared.document request with
      | error failure => exact ⟨fun grant => grant, recording_id, rfl⟩
      | ok n =>
          refine ⟨fun grant => { grant with resolved := some n.toNat },
            ⟨fun _ => rfl, fun _ => rfl, fun _ => rfl, fun hacc hdyn grant m hm => ?_⟩, rfl⟩
          cases hm
          obtain ⟨w, hw, hn⟩ := (hknown hresolve).same hacc hdyn
          exact .inr ⟨w, hw, by rw [hn, Int.toNat_natCast]⟩
    have hunder := hf.under hfresh.under
    have hfresh' : Fresh R t guard topology target (Config.stepView v t
        (fun e => ((requestNodeIdOrError e.document request, e) : _ × DocumentEntry).2)
        (resolvedPhase request)) := by
      refine ⟨?_, hfresh.live⟩
      rw [Config.stepView_tag_self, hphase]
      exact hunder
    refine ⟨permitted_edit hf hfresh.under hv hok hpeers hcond (congrFun hphase _)
      (.refl v.shared hv.shape hv.linked), hfresh', fun n hresolve => ?_⟩
    have hn := hknown hresolve
    exact ⟨hn.same, hn.heir⟩
  refine hstep.bind fun r => ?_
  cases r with
  | ok n => exact (hk n).pre fun v _ h => ⟨h.1, h.2 n rfl⟩
  | error failure =>
      refine Discipline.Ensures.pre ?_ fun v _ h => h.1
      split
      · rename_i heq
        cases heq
      · split
        · exact leads_ret hB _
        · exact leads_ret hB _
      · exact leads_ret hB _

theorem leads_withNodeId (hsub : guard.mutexes ⊆ H) {k : Nat → EntryM Body} {B : State → Prop}
    (hk : ∀ x : Nat, (discipline R).Leads t H
      (fun v => Fresh R t guard topology target v ∧ Known R guard topology target x v) (k x) B)
    (hB : ∀ v, Invariant R v → Fresh R t guard topology target v → B v) :
    (discipline R).Leads t H (Fresh R t guard topology target) (withNodeId request k) B := by
  refine leads_withNodeTarget hsuits hmethod hsub (fun n => ?_) hB
  refine leads_intCast (fun v hv h => hB v hv h.1) fun x hx => ?_
  subst hx
  exact hk x

omit hmethod in
/-- The guard of a planned method covers the node that its handler resolves. -/
theorem coversNode_of_known (x : Nat) : CoversNode R t guard
    (fun v => Fresh R t guard topology target v ∧ Known R guard topology target x v) x := by
  intro hacc hdyn v H hv h hok n hn
  have hR := R.structured_of_accounted hacc
  obtain ⟨w, hw, hx⟩ := h.2.same hacc hdyn
  obtain ⟨w', hw', hfacts⟩ := hsuits.plan hR hdyn
  rw [hw] at hw'
  cases hw'
  obtain rfl : x = w.nodeId := Int.ofNat.inj hx
  have hrests := rests_of_under h.1.under hR hdyn hok
  obtain ⟨r, hr, howns⟩ := hfacts.owned hrests.shape
  exact ⟨r, hr, hrests.owns (hv.shape hR) (hv.linked hacc) howns hn⟩

end Resolve

end Muxly.Daemon
