/-
# Muxly.Daemon.Planning -- what a published plan says about the document it was made from

The planner only ever publishes a plan for a target that it resolved, and the domains of the plan
are the domain roots of the nodes that the request will write. `PlanFacts` collects this for each
kind of guard.
-/
import Muxly.Core.Topology
import Muxly.Daemon.Handler

namespace Muxly.Daemon

open Muxly.Control Muxly.Core Muxly.Core.Document Muxly.Tree

/-- `r` is the domain root of `x` for the container kinds that the daemon enables. -/
abbrev Owns (d : Document) (x r : Nat) : Prop := DomainRoot enabledConcurrentContainerKinds d x r

theorem isConcurrentContainer_eq (kind : NodeKind) :
    isConcurrentContainer kind
      = containerChildDomainsEnabled kind enabledConcurrentContainerKinds := by
  cases kind <;> rfl

theorem catchNull_eq_some {α : Type} {listed : Err → Bool} {r : Except Failure α} {a : α} :
    catchNull listed r = .ok (some a) ↔ r = .ok a := by
  constructor
  · intro h
    unfold catchNull at h
    split at h
    · cases h
      rfl
    · split at h <;> cases h
    · cases h
  · intro h
    subst h
    rfl

/-! ## Removal modes -/

/-- A live node under a live parent that gives it no domain of its own. -/
structure OrdinaryChild (d : Document) (x p : Nat) : Prop where
  node : ∃ n, d.lookup x = some n ∧ n.parentId = some p
  parent : ∃ m, d.lookup p = some m ∧
    containerChildDomainsEnabled m.kind enabledConcurrentContainerKinds = false
  inner : p ≠ d.rootNodeId

/-- What a removal mode says about the node and its parent. -/
theorem classify_ok {d : Document} {x : Nat} {mode : RemoveExecutionMode}
    (h : classifyRemoveExecutionMode d x = .ok mode) (hmode : mode ≠ .rootPolicyReject) :
    x ≠ d.rootNodeId ∧ ∃ n p m, d.lookup x = some n ∧ n.parentId = some p ∧
      d.lookup p = some m := by
  unfold classifyRemoveExecutionMode at h
  split at h
  · cases h
    exact absurd rfl hmode
  · rename_i hroot
    obtain ⟨-, -, h⟩ := bind_eq_ok.mp h
    obtain ⟨n, hn, h⟩ := bind_eq_ok.mp h
    cases hp : n.parentId with
    | none =>
        rw [hp] at h
        cases h
    | some p =>
        rw [hp] at h
        obtain ⟨m, hm, -⟩ := bind_eq_ok.mp h
        exact ⟨hroot, n, p, m, nodeOr_eq_ok.mp hn, hp, nodeOr_eq_ok.mp hm⟩

/-- The mode of a node, from the node and its parent. -/
theorem classify_eq {d : Document} {x p : Nat} {n m : Node} (hroot : x ≠ d.rootNodeId)
    (hx : d.lookup x = some n) (hp : n.parentId = some p) (hm : d.lookup p = some m) :
    classifyRemoveExecutionMode d x =
      if n.children = [] then
        if p = d.rootNodeId ∨ isConcurrentContainer m.kind then .ok .leafCoordinator
        else .ok .leafDomainSafe
      else if p = d.rootNodeId ∨ isConcurrentContainer m.kind then .ok .recursiveCoordinatorSafe
      else do
        let some domainId ← d.concurrentContainerDomainRoot x enabledConcurrentContainerKinds
          | return .unsupported
        if domainId = x then return .unsupported
        if ← d.subtreeContainsEnabledContainerKinds x enabledConcurrentContainerKinds then
          return .recursiveCoordinatorSafe
        return .recursiveDomainSafe := by
  unfold classifyRemoveExecutionMode
  rw [if_neg hroot]
  simp only [pure_eq_ok, ok_bind, nodeOr_of_lookup hx, hp, nodeOr_of_lookup hm]
  by_cases hleaf : n.children = []
  · by_cases hproot : p = d.rootNodeId
    · simp [hleaf, hproot]
    · by_cases hkind : isConcurrentContainer m.kind = true
      · simp [hleaf, hproot, hkind]
      · simp [hleaf, hproot, hkind]
  · by_cases hproot : p = d.rootNodeId
    · simp [hleaf, hproot]
    · by_cases hkind : isConcurrentContainer m.kind = true
      · simp [hleaf, hproot, hkind]
      · simp only [hleaf, hproot, hkind, if_false, or_self, Bool.false_eq_true]
        all_goals rfl

/-- A mode that needs one domain only. -/
theorem classify_domainSafe {d : Document} (hs : Shape d) {x : Nat} {mode : RemoveExecutionMode}
    (h : classifyRemoveExecutionMode d x = .ok mode)
    (hmode : mode = .leafDomainSafe ∨ mode = .recursiveDomainSafe) :
    ∃ p, OrdinaryChild d x p ∧ (d.childrenOf x = [] ∨
      ∀ y, hs.forest.Below x y → d.hasContainerKind enabledConcurrentContainerKinds y = false) := by
  have hne : mode ≠ .rootPolicyReject := by rintro rfl; simp at hmode
  obtain ⟨hroot, n, p, m, hn, hp, hm⟩ := classify_ok h hne
  rw [classify_eq hroot hn hp hm] at h
  have hchildren := childrenOf_eq hn
  by_cases hproot : p = d.rootNodeId ∨ isConcurrentContainer m.kind = true
  · simp only [if_pos hproot] at h
    split at h <;> cases h <;> simp at hmode
  · simp only [if_neg hproot] at h
    obtain ⟨hinner, hkind⟩ := not_or.mp hproot
    rw [isConcurrentContainer_eq, Bool.not_eq_true] at hkind
    refine ⟨p, ⟨⟨n, hn, hp⟩, ⟨m, hm, hkind⟩, hinner⟩, ?_⟩
    split at h
    · rename_i hleaf
      exact .inl (hchildren.trans hleaf)
    · refine .inr fun y hy => ?_
      obtain ⟨o, ho, h⟩ := bind_eq_ok.mp h
      cases o with
      | none =>
          cases h
          simp at hmode
      | some r =>
          simp only at h
          split at h
          · cases h
            simp at hmode
          · obtain ⟨-, -, h⟩ := bind_eq_ok.mp h
            obtain ⟨b, hb, hiff⟩ := hs.subtreeContains_iff hn enabledConcurrentContainerKinds
            rw [hb, ok_bind] at h
            cases b with
            | true =>
                cases h
                simp at hmode
            | false =>
                cases hk : d.hasContainerKind enabledConcurrentContainerKinds y with
                | false => rfl
                | true => exact absurd (hiff.mpr ⟨y, hy, hk⟩) Bool.false_ne_true

/-- A node under an ordinary parent, with no container of domains below it, is never removed under
the coordinator. -/
theorem classify_ordinary {d : Document} (hs : Shape d) {x p : Nat} (hx : OrdinaryChild d x p)
    (hroot : x ≠ d.rootNodeId) (hplain : d.childrenOf x = [] ∨
      ∀ y, hs.forest.Below x y → d.hasContainerKind enabledConcurrentContainerKinds y = false)
    {mode : RemoveExecutionMode} (h : classifyRemoveExecutionMode d x = .ok mode) :
    mode ≠ .leafCoordinator ∧ mode ≠ .recursiveCoordinatorSafe := by
  obtain ⟨n, hn, hp⟩ := hx.node
  obtain ⟨m, hm, hkind⟩ := hx.parent
  have hside : ¬ (p = d.rootNodeId ∨ isConcurrentContainer m.kind = true) := by
    rw [isConcurrentContainer_eq, hkind]
    simp [hx.inner]
  rw [classify_eq hroot hn hp hm] at h
  simp only [if_neg hside] at h
  split at h
  · cases h
    exact ⟨by simp, by simp⟩
  · rename_i hleaf
    have hnone := hplain.resolve_left fun h => hleaf ((childrenOf_eq hn).symm.trans h)
    obtain ⟨o, -, h⟩ := bind_eq_ok.mp h
    cases o with
    | none =>
        cases h
        exact ⟨by simp, by simp⟩
    | some r =>
        simp only at h
        split at h
        · cases h
          exact ⟨by simp, by simp⟩
        · obtain ⟨-, -, h⟩ := bind_eq_ok.mp h
          obtain ⟨b, hb, hiff⟩ := hs.subtreeContains_iff hn enabledConcurrentContainerKinds
          rw [hb, ok_bind] at h
          cases b with
          | false =>
              cases h
              exact ⟨by simp, by simp⟩
          | true =>
              obtain ⟨y, hy, hk⟩ := hiff.mp rfl
              rw [hnone y hy] at hk
              cases hk

/-! ## The domains of a subtree -/

theorem noteDomain_ok {d : Document} {seen noted : List Nat} {x : Nat}
    (h : noteDomain d seen x = .ok noted) (hnodup : seen.Nodup) :
    noted.Nodup ∧ seen ⊆ noted ∧ (x ≠ d.rootNodeId → ∃ r ∈ noted, Owns d x r) := by
  obtain ⟨o, ho, h⟩ := bind_eq_ok.mp h
  cases o with
  | none =>
      cases h
      refine ⟨hnodup, List.Subset.refl _, fun hroot => ?_⟩
      rw [concurrentContainerDomainRoot, if_neg hroot] at ho
      obtain ⟨r, hr⟩ := domainRootLoop_some ho
      cases hr
  | some r =>
      have hr := concurrentContainerDomainRoot_sound ho
      cases h
      split
      · rename_i hmem
        exact ⟨hnodup, List.Subset.refl _, fun _ => ⟨r, hmem, hr⟩⟩
      · rename_i hmem
        exact ⟨hnodup.append (List.nodup_singleton r) (List.disjoint_singleton.mpr hmem),
          List.subset_append_left _ _,
          fun _ => ⟨r, List.mem_append_right _ (List.mem_singleton_self r), hr⟩⟩

theorem foldlM_noteDomain_ok {d : Document} (xs : List Nat) {seen noted : List Nat}
    (h : xs.foldlM (noteDomain d) seen = .ok noted) (hnodup : seen.Nodup) :
    noted.Nodup ∧ seen ⊆ noted ∧ ∀ x ∈ xs, x ≠ d.rootNodeId → ∃ r ∈ noted, Owns d x r := by
  induction xs generalizing seen with
  | nil =>
      cases h
      exact ⟨hnodup, List.Subset.refl _, fun _ hx => by cases hx⟩
  | cons x rest ih =>
      rw [List.foldlM_cons] at h
      obtain ⟨next, hnext, h⟩ := bind_eq_ok.mp h
      obtain ⟨hnext_nodup, hsub, hx⟩ := noteDomain_ok hnext hnodup
      obtain ⟨hnoted, hsub', hrest⟩ := ih h hnext_nodup
      refine ⟨hnoted, fun y hy => hsub' (hsub hy), fun y hy hroot => ?_⟩
      rcases List.mem_cons.mp hy with rfl | hy
      · obtain ⟨r, hr, howns⟩ := hx hroot
        exact ⟨r, hsub' hr, howns⟩
      · exact hrest y hy hroot

/-- The ids of a sorted, duplicate-free list rise. -/
theorem pairwise_lt_insertionSort {xs : List Nat} (h : xs.Nodup) :
    (xs.insertionSort (· ≤ ·)).Pairwise (· < ·) := by
  have hle : (xs.insertionSort (· ≤ ·)).Pairwise (· ≤ ·) := List.pairwise_insertionSort _ xs
  have hne : (xs.insertionSort (· ≤ ·)).Nodup :=
    (List.perm_insertionSort (· ≤ ·) xs).nodup_iff.mpr h
  exact (hle.and hne).imp fun h => lt_of_le_of_ne h.1 h.2

/-- The domains of a participating removal cover the subtree. -/
theorem collectParticipating_ok {d : Document} (hs : Shape d) {x : Nat} {n : Node}
    (hx : d.lookup x = some n) (hroot : x ≠ d.rootNodeId) {domainIds : List Nat}
    (h : collectParticipatingDeleteDomainIds d x = .ok domainIds) :
    domainIds.Pairwise (· < ·) ∧
      ∀ y, hs.forest.Below x y → ∃ r ∈ domainIds, Owns d y r := by
  obtain ⟨noted, hloop, h⟩ := bind_eq_ok.mp h
  cases h
  have hlist : [x].flatMap hs.forest.rev.preorder = hs.forest.rev.preorder x := by simp
  rw [stackLoop_preorder hs.forest.rev Failure.outOfFuel (f := noteDomain d) [x] (fun y hy s => by
      rw [hlist, Forest.mem_preorder, Forest.below_rev] at hy
      obtain ⟨m, hm⟩ := hs.live_of_below hx hy
      have hch : hs.forest.rev.children y = m.children.reverse :=
        congrArg List.reverse (childrenOf_eq hm)
      rw [nodeOr_of_lookup hm, ok_bind, hch]
      cases noteDomain d s y <;> rfl) (by
      rw [hlist]
      have hlen := hs.forest.rev.length_preorder_le (Nat.lt_succ_of_le (lookup_le hx))
      have hbound : hs.forest.rev.bound = d.nodeSlots.length + 1 := rfl
      omega), hlist] at hloop
  obtain ⟨hnodup, -, hall⟩ := foldlM_noteDomain_ok _ hloop List.nodup_nil
  refine ⟨pairwise_lt_insertionSort hnodup, fun y hy => ?_⟩
  have hmem : y ∈ hs.forest.rev.preorder x := by
    rw [Forest.mem_preorder, Forest.below_rev]
    exact hy
  have hyroot : y ≠ d.rootNodeId := by
    have hle := Forest.Below.le hy
    have hpos := Nat.pos_of_ne_zero (lookup_pos hx)
    rw [hs.rootNodeId] at hroot ⊢
    omega
  obtain ⟨r, hr, howns⟩ := hall y hmem hyroot
  exact ⟨r, (List.perm_insertionSort (· ≤ ·) noted).mem_iff.mpr hr, howns⟩

/-! ## Plans -/

/-- The facts about the planned document that a guard rests on. -/
inductive PlanFacts (d : Document) (request : RequestEnvelope) : RequestGuard → WriteTarget → Prop
  | content {x domainId : Nat} (hmethod : requestIsStructuralDomainWrite request = false)
      (hresolve : resolveRequestNodeId d request = .ok x) (howns : Owns d x domainId) :
      PlanFacts d request (.domainWrite domainId) (.content x)
  | append {p domainId : Nat} {value : Int} (hmethod : requestIsAppendLike request.method = true)
      (hvalue : getInteger request.params (ascii "parentId") = some value) (hpos : 0 ≤ value)
      (hp : p = value.toNat) (hplain : ∃ m, d.lookup p = some m ∧
        containerChildDomainsEnabled m.kind enabledConcurrentContainerKinds = false)
      (howns : Owns d p domainId) :
      PlanFacts d request (.structuralWrite domainId p) (.append p)
  | remove {x p domainId : Nat} (hmethod : requestIsRemoveLike request.method = true)
      (hresolve : resolveRequestNodeId d request = .ok x) (hchild : OrdinaryChild d x p)
      (hplain : d.childrenOf x = [] ∨ ∀ hs : Shape d, ∀ y, hs.forest.Below x y →
        d.hasContainerKind enabledConcurrentContainerKinds y = false)
      (howns : Owns d x domainId) :
      PlanFacts d request (.structuralWrite domainId p) (.remove x)
  | participate {x : Nat} {domainIds : List Nat}
      (hmethod : requestIsRemoveLike request.method = true)
      (hresolve : resolveRequestNodeId d request = .ok x) (hroot : x ≠ d.rootNodeId)
      (hlive : ∃ n, d.lookup x = some n) (hsorted : domainIds.Pairwise (· < ·))
      (hlength : 2 ≤ domainIds.length)
      (hcover : ∀ hs : Shape d, ∀ y, hs.forest.Below x y → ∃ r ∈ domainIds, Owns d y r) :
      PlanFacts d request (.participatingDomainWrite domainIds) (.remove x)

theorem resolveAppendPlan_ok {d : Document} {request : RequestEnvelope} {plan : DomainWritePlan}
    (h : resolveAppendPlan d request = .ok (some plan)) :
    ∃ (domainId p : Nat) (value : Int), plan = .structural domainId p ∧
      getInteger request.params (ascii "parentId") = some value ∧ 0 ≤ value ∧ p = value.toNat ∧
      (∃ m, d.lookup p = some m ∧
        containerChildDomainsEnabled m.kind enabledConcurrentContainerKinds = false) ∧
      Owns d p domainId := by
  unfold resolveAppendPlan at h
  cases hvalue : getInteger request.params (ascii "parentId") with
  | none =>
      rw [hvalue] at h
      cases h
  | some value =>
      rw [hvalue] at h
      simp only at h
      split at h
      · cases h
      · rename_i hpos
        obtain ⟨-, -, h⟩ := bind_eq_ok.mp h
        obtain ⟨p, hp, h⟩ := bind_eq_ok.mp h
        rw [intCast_of_nonneg hvalue (not_lt.mp hpos)] at hp
        cases hp
        split at h
        · cases h
        · obtain ⟨-, -, h⟩ := bind_eq_ok.mp h
          obtain ⟨o, ho, h⟩ := bind_eq_ok.mp h
          cases o with
          | none => cases h
          | some m =>
              simp only at h
              split at h
              · cases h
              · rename_i hkind
                obtain ⟨-, -, h⟩ := bind_eq_ok.mp h
                obtain ⟨r, hr, h⟩ := bind_eq_ok.mp h
                match r, hr, h with
                | some (some domainId), hr, h =>
                    cases h
                    refine ⟨domainId, value.toNat, value, rfl, rfl, not_lt.mp hpos, rfl, ⟨m, ?_, ?_⟩,
                      concurrentContainerDomainRoot_sound (catchNull_eq_some.mp hr)⟩
                    · unfold findNode at ho
                      split at ho
                      · cases ho
                      · exact Except.ok.inj ho
                    · rw [← isConcurrentContainer_eq]
                      exact Bool.not_eq_true _ ▸ hkind
                | some none, _, h => cases h
                | none, _, h => cases h

theorem findNode_ok {d : Document} {x : Nat} {n : Node} (h : d.findNode x = .ok (some n)) :
    d.lookup x = some n := by
  unfold findNode at h
  split at h
  · cases h
  · exact Except.ok.inj h

theorem resolveRemovePlan_ok {d : Document} (hs : Shape d) {request : RequestEnvelope}
    {plan : DomainWritePlan} (h : resolveRemovePlan d request = .ok (some plan)) :
    ∃ domainId p x, plan = .structural domainId p ∧ resolveRequestNodeId d request = .ok x ∧
      OrdinaryChild d x p ∧ (d.childrenOf x = [] ∨ ∀ y, hs.forest.Below x y →
        d.hasContainerKind enabledConcurrentContainerKinds y = false) ∧ Owns d x domainId := by
  obtain ⟨o, ho, h⟩ := bind_eq_ok.mp h
  cases o with
  | none => cases h
  | some x =>
      simp only at h
      split at h
      · cases h
      · obtain ⟨-, -, h⟩ := bind_eq_ok.mp h
        obtain ⟨o', ho', h⟩ := bind_eq_ok.mp h
        cases o' with
        | none => cases h
        | some n =>
            simp only at h
            obtain ⟨o'', ho'', h⟩ := bind_eq_ok.mp h
            cases o'' with
            | none => cases h
            | some mode =>
                simp only at h
                split at h
                · cases h
                · rename_i hmode
                  have hsafe : mode = .leafDomainSafe ∨ mode = .recursiveDomainSafe := by
                    by_contra hno
                    exact hmode (not_or.mp hno)
                  obtain ⟨p, hchild, hplain⟩ :=
                    classify_domainSafe hs (catchNull_eq_some.mp ho'') hsafe
                  obtain ⟨n', hn', hp⟩ := hchild.node
                  have hn := findNode_ok ho'
                  rw [hn] at hn'
                  cases hn'
                  rw [hp] at h
                  simp only at h
                  obtain ⟨r, hr, h⟩ := bind_eq_ok.mp h
                  match r, hr, h with
                  | some (some domainId), hr, h =>
                      cases h
                      exact ⟨domainId, p, x, rfl, catchNull_eq_some.mp ho, hchild, hplain,
                        concurrentContainerDomainRoot_sound (catchNull_eq_some.mp hr)⟩
                  | some none, _, h => cases h
                  | none, _, h => cases h

/-- A published plan rests on its facts. -/
theorem resolveDomainWritePlan_ok {d : Document} (hs : Shape d) {request : RequestEnvelope}
    {plan : DomainWritePlan} (h : resolveDomainWritePlan d request = .ok (some plan)) :
    ∃ target, plannedTarget d request = some target ∧
      match plan with
      | .content domainId => PlanFacts d request (.domainWrite domainId) target
      | .structural domainId p => PlanFacts d request (.structuralWrite domainId p) target := by
  unfold resolveDomainWritePlan at h
  split at h
  · rename_i hmethod
    obtain ⟨domainId, p, value, rfl, hvalue, hpos, hp, hplain, howns⟩ := resolveAppendPlan_ok h
    refine ⟨.append p, ?_, .append hmethod hvalue hpos hp hplain howns⟩
    rw [plannedTarget, if_pos hmethod, hvalue, hp]
    rfl
  · rename_i happend
    split at h
    · rename_i hmethod
      obtain ⟨domainId, p, x, rfl, hx, hchild, hplain, howns⟩ := resolveRemovePlan_ok hs h
      refine ⟨.remove x, ?_, .remove hmethod hx hchild (hplain.imp_right fun h _ => h) howns⟩
      rw [plannedTarget, if_neg happend, hx]
      simp only [hmethod, if_true]
    · rename_i hremove
      obtain ⟨o, ho, h⟩ := bind_eq_ok.mp h
      cases o with
      | none => cases h
      | some x =>
          simp only at h
          obtain ⟨o', -, h⟩ := bind_eq_ok.mp h
          cases o' with
          | none => cases h
          | some n =>
              simp only at h
              split at h
              · cases h
              · obtain ⟨-, -, h⟩ := bind_eq_ok.mp h
                obtain ⟨r, hr, h⟩ := bind_eq_ok.mp h
                have hx := catchNull_eq_some.mp ho
                match r, hr, h with
                | some (some domainId), hr, h =>
                    cases h
                    refine ⟨.content x, ?_, .content ?_ hx
                      (concurrentContainerDomainRoot_sound (catchNull_eq_some.mp hr))⟩
                    · rw [plannedTarget, if_neg happend, hx]
                      simp only [hremove, Bool.false_eq_true, if_false]
                    · rw [requestIsStructuralDomainWrite, Bool.or_eq_false_iff]
                      exact ⟨Bool.not_eq_true _ ▸ happend, Bool.not_eq_true _ ▸ hremove⟩
                | some none, _, h => cases h
                | none, _, h => cases h

theorem resolveParticipating_ok {d : Document} (hs : Shape d) {request : RequestEnvelope}
    {domainIds : List Nat}
    (h : resolveParticipatingDeleteDomainIds d request = .ok (some domainIds)) :
    ∃ target, plannedTarget d request = some target ∧
      PlanFacts d request (.participatingDomainWrite domainIds) target := by
  unfold resolveParticipatingDeleteDomainIds at h
  split at h
  · cases h
  · rename_i hnot
    have hmethod : requestIsRemoveLike request.method = true := by simpa using hnot
    have happend : requestIsAppendLike request.method ≠ true := by
      unfold requestIsAppendLike
      unfold requestIsRemoveLike at hmethod
      revert hmethod
      cases request.method <;> simp
    obtain ⟨-, -, h⟩ := bind_eq_ok.mp h
    obtain ⟨o, ho, h⟩ := bind_eq_ok.mp h
    cases o with
    | none => cases h
    | some x =>
        simp only at h
        obtain ⟨o', ho', h⟩ := bind_eq_ok.mp h
        cases o' with
        | none => cases h
        | some mode =>
            simp only at h
            split at h
            · cases h
            · rename_i hmode
              obtain ⟨-, -, h⟩ := bind_eq_ok.mp h
              obtain ⟨found, hfound, h⟩ := bind_eq_ok.mp h
              split at h
              · cases h
              · rename_i hlength
                cases h
                have hx := catchNull_eq_some.mp ho
                obtain ⟨hroot, n, -, -, hn, -⟩ := classify_ok (catchNull_eq_some.mp ho')
                  (by rw [not_not.mp hmode]; simp)
                obtain ⟨hsorted, hcover⟩ := collectParticipating_ok hs hn hroot hfound
                refine ⟨.remove x, ?_, .participate hmethod hx hroot ⟨n, hn⟩ hsorted
                  (not_lt.mp hlength) fun _ => hcover⟩
                rw [plannedTarget, if_neg happend, hx]
                simp only [hmethod, if_true]

/-- The domains that a guard claims for writing. -/
def RequestGuard.claims : RequestGuard → Option (List Nat)
  | .none | .quiescentRead _ => Option.none
  | .coordinatorExclusive domainIds => some domainIds
  | .participatingDomainWrite domainIds => some domainIds
  | .domainWrite domainId => some [domainId]
  | .structuralWrite domainId _ => some [domainId]

/-- An entry with more domain locks. -/
def DocumentEntry.ensureDomainLocks (e : DocumentEntry) (domainIds : List Nat) : DocumentEntry :=
  domainIds.foldl DocumentEntry.ensureDomainLock e

theorem forM_ensureDomainLock (domainIds : List Nat) (e : DocumentEntry) :
    (domainIds.forM fun domainId =>
      (modify (·.ensureDomainLock domainId) : Action DocumentEntry Failure PUnit)) e
      = (.ok ⟨⟩, e.ensureDomainLocks domainIds) := by
  induction domainIds generalizing e with
  | nil => rfl
  | cons domainId rest ih =>
      rw [Action.forM_cons_apply, Action.modify_apply, Action.next_ok]
      exact ih (e.ensureDomainLock domainId)

theorem mem_ensureDomainLock {e : DocumentEntry} {domainId r : Nat} :
    r ∈ (e.ensureDomainLock domainId).runtime.domainIds ↔
      r ∈ e.runtime.domainIds ∨ r = domainId := by
  unfold DocumentEntry.ensureDomainLock
  split
  · rename_i hmem
    exact ⟨.inl, fun h => h.elim id fun h => h ▸ hmem⟩
  · simp

@[simp] theorem document_ensureDomainLock (e : DocumentEntry) (domainId : Nat) :
    (e.ensureDomainLock domainId).document = e.document := by
  unfold DocumentEntry.ensureDomainLock
  split <;> rfl

@[simp] theorem revision_ensureDomainLock (e : DocumentEntry) (domainId : Nat) :
    (e.ensureDomainLock domainId).runtime.topologyRevision = e.runtime.topologyRevision := by
  unfold DocumentEntry.ensureDomainLock
  split <;> rfl

theorem ensureDomainLocks_spec (domainIds : List Nat) (e : DocumentEntry) :
    (e.ensureDomainLocks domainIds).document = e.document ∧
      (e.ensureDomainLocks domainIds).runtime.topologyRevision = e.runtime.topologyRevision ∧
      ∀ r, r ∈ (e.ensureDomainLocks domainIds).runtime.domainIds ↔
        r ∈ e.runtime.domainIds ∨ r ∈ domainIds := by
  induction domainIds generalizing e with
  | nil => simp [DocumentEntry.ensureDomainLocks]
  | cons domainId rest ih =>
      obtain ⟨hdoc, hrev, hmem⟩ := ih (e.ensureDomainLock domainId)
      refine ⟨hdoc.trans (document_ensureDomainLock e domainId),
        hrev.trans (revision_ensureDomainLock e domainId), fun r => (hmem r).trans ?_⟩
      rw [mem_ensureDomainLock, List.mem_cons, or_assoc]

theorem resolveParticipating_length {d : Document} {request : RequestEnvelope}
    {domainIds : List Nat}
    (h : resolveParticipatingDeleteDomainIds d request = .ok (some domainIds)) :
    2 ≤ domainIds.length := by
  unfold resolveParticipatingDeleteDomainIds at h
  split at h
  · cases h
  · obtain ⟨-, -, h⟩ := bind_eq_ok.mp h
    obtain ⟨o, -, h⟩ := bind_eq_ok.mp h
    cases o with
    | none => cases h
    | some x =>
        obtain ⟨o', -, h⟩ := bind_eq_ok.mp h
        cases o' with
        | none => cases h
        | some mode =>
            simp only at h
            split at h
            · cases h
            · obtain ⟨-, -, h⟩ := bind_eq_ok.mp h
              obtain ⟨found, -, h⟩ := bind_eq_ok.mp h
              split at h
              · cases h
              · rename_i hlength
                cases h
                exact not_lt.mp hlength

/-- What planning leaves when it publishes a plan. -/
structure PublishedPlan (request : RequestEnvelope) (e : DocumentEntry) (plan : DynamicGuardPlan)
    (domainIds : List Nat) : Prop where
  run : planGuard request e = (.ok plan, e.ensureDomainLocks domainIds)
  claims : plan.intoRequestGuard.claims = some domainIds
  nonempty : domainIds ≠ []
  revision : ∀ e' : DocumentEntry, plan.revisionMatches e'
    = decide (e'.runtime.topologyRevision = e.runtime.topologyRevision)
  facts : Shape e.document → ∃ target, plannedTarget e.document request = some target ∧
    PlanFacts e.document request plan.intoRequestGuard target

/-- Planning fails or finds no plan and leaves the entry alone, or it publishes a plan and makes
sure that the domain locks of the plan exist. -/
theorem planGuard_cases (request : RequestEnvelope) (e : DocumentEntry) :
    (∃ r, planGuard request e = (r, e) ∧ (r = .ok .none ∨ ∃ failure, r = .error failure)) ∨
      ∃ plan domainIds, PublishedPlan request e plan domainIds := by
  unfold planGuard
  rw [Action.bind_apply, Action.view_apply]
  cases hplan : resolveDomainWritePlan e.document request with
  | error failure => exact .inl ⟨_, rfl, .inr ⟨failure, rfl⟩⟩
  | ok o =>
      cases o with
      | some plan =>
          cases plan with
          | content domainId =>
              refine .inr ⟨.domainWrite e.runtime.topologyRevision domainId, [domainId], ?_, rfl,
                by simp, fun _ => rfl, fun hs => resolveDomainWritePlan_ok hs hplan⟩
              unfold planGuard
              rw [Action.bind_apply, Action.view_apply, hplan]
              rfl
          | structural domainId p =>
              refine .inr ⟨.structuralWrite e.runtime.topologyRevision domainId p, [domainId], ?_, rfl,
                by simp, fun _ => rfl, fun hs => resolveDomainWritePlan_ok hs hplan⟩
              unfold planGuard
              rw [Action.bind_apply, Action.view_apply, hplan]
              rfl
      | none =>
          rw [Action.next_ok]
          simp only
          rw [Action.bind_apply, Action.view_apply]
          cases hpart : resolveParticipatingDeleteDomainIds e.document request with
          | error failure => exact .inl ⟨_, rfl, .inr ⟨failure, rfl⟩⟩
          | ok o' =>
              cases o' with
              | none => exact .inl ⟨_, rfl, .inl rfl⟩
              | some domainIds =>
                  refine .inr ⟨.participatingDomainWrite e.runtime.topologyRevision domainIds,
                    domainIds, ?_, rfl, ?_, fun _ => rfl, fun hs => resolveParticipating_ok hs hpart⟩
                  · unfold planGuard
                    rw [Action.bind_apply, Action.view_apply, hplan, Action.next_ok]
                    simp only
                    rw [Action.bind_apply, Action.view_apply, hpart, Action.next_ok]
                    simp only
                    rw [Action.bind_apply, forM_ensureDomainLock, Action.next_ok,
                      Action.bind_apply, Action.get_apply, Action.next_ok,
                      Action.pure_apply, (ensureDomainLocks_spec domainIds e).2.1]
                  · intro hnil
                    have hlength := resolveParticipating_length hpart
                    rw [hnil] at hlength
                    simp at hlength

end Muxly.Daemon
