/-
# Muxly.Daemon.Coverage -- what a planned guard covers in every later document

A plan is made from one document, and the handler works on a later one. Under a guard that was
planned for a removal nothing is added below the node, so the nodes that the removal takes are nodes
that the planner saw, in the domains that it found. A node that the handler resolves is the node of
the plan, or it was created since, below a parent that was created since.
-/
import Muxly.Daemon.Grants

namespace Muxly.Daemon

open Muxly.Control Muxly.Core Muxly.Core.Document Muxly.Sync Muxly.Tree

/-! ## The subtree of a removal -/

/-- Nothing was added below a node whose subtree lies in the domains of the guard. -/
theorem Grown.below {D : List Nat} {planned d : Document} (hg : Grown D planned d)
    (hs : Shape planned) (hs' : Shape d) {x y : Nat}
    (hcover : ∀ y, hs.forest.Below x y → ∃ r ∈ D, Owns planned y r)
    (hy : hs'.forest.Below x y) : hs.forest.Below x y := by
  induction hy with
  | refl => exact hs.forest.below_self x
  | @tail p c _ hc ih =>
      by_cases hold : c ∈ planned.childrenOf p
      · exact ih.trans (hs.forest.below_child hold)
      · obtain ⟨r, hr, howns⟩ := hcover p ih
        exact absurd howns ((hg p c hc hold).2.2 r hr)

/-- Below a leaf, and below a node with no container of domains, every node has its domain root. -/
theorem owns_below {d : Document} (hs : Shape d) {x r : Nat} (howns : Owns d x r)
    (hplain : d.childrenOf x = [] ∨ ∀ hs : Shape d, ∀ y, hs.forest.Below x y →
      d.hasContainerKind enabledConcurrentContainerKinds y = false) {y : Nat}
    (hy : hs.forest.Below x y) : Owns d y r := by
  rcases hplain with hleaf | hplain
  · rcases hy.head with rfl | ⟨c, hc, -⟩
    · exact howns
    · have hmem : c ∈ d.childrenOf x := hc
      rw [hleaf] at hmem
      cases hmem
  · exact howns.of_below hs (hplain hs) hy

/-- The planner found the domains of all nodes below the node that is removed. -/
theorem PlanFacts.subtree_owned {d : Document} (hs : Shape d) {request : RequestEnvelope}
    {guard : RequestGuard} {x : Nat} (h : PlanFacts d request guard (.remove x)) :
    ∀ y, hs.forest.Below x y → ∃ r ∈ guard.domainIds, Owns d y r := by
  intro y hy
  cases h with
  | @remove _ p domainId hmethod hresolve hchild hplain howns =>
      exact ⟨domainId, List.mem_singleton_self _, owns_below hs howns hplain hy⟩
  | participate hmethod hresolve hroot hlive hsorted hlength hcover => exact hcover hs y hy

section Removal

variable {b : Basis} {d : Document} {request : RequestEnvelope} {x : Nat} (hrests : Rests b d)
  (hfacts : PlanFacts b.topology request b.guard (.remove x))
  (hgrown : Grown b.guard.domainIds b.topology d) (hs : Shape d)

include hrests hfacts hgrown in
/-- What lies below the node now lay below it when the plan was made. -/
theorem below_planned {y : Nat} (hy : hs.forest.Below x y) : hrests.shape.forest.Below x y :=
  hgrown.below hrests.shape hs (hfacts.subtree_owned hrests.shape) hy

include hrests hfacts hgrown in
/-- Every node that the removal takes lies in a domain of the guard. -/
theorem removal_nodes (hl : Linked d) {n : Node} (hx : d.lookup x = some n) {y : Nat}
    (hy : hs.forest.Below x y) : ∃ r ∈ b.guard.domainIds, Owns d y r := by
  obtain ⟨r, hr, howns⟩ := hfacts.subtree_owned hrests.shape y
    (below_planned hrests hfacts hgrown hs hy)
  obtain ⟨m, hm⟩ := hs.live_of_below hx hy
  exact ⟨r, hr, hrests.owns hs hl howns hm⟩

include hrests hfacts in
/-- The parent that the node is taken from is the root, a container of domains, or lies in a domain
of the guard. -/
theorem removal_parent (hs : Shape d) (hl : Linked d) {n : Node} (hx : d.lookup x = some n) {p : Nat}
    (hp : n.parentId = some p) : (p = d.rootNodeId ∨
      d.hasContainerKind enabledConcurrentContainerKinds p = true) ∨
      ∃ r ∈ b.guard.domainIds, Owns d p r := by
  obtain ⟨r, hr, howns⟩ := hfacts.owned hrests.shape
  have hown : Owns d x r := hrests.owns hs hl howns hx
  obtain ⟨m, hm, -⟩ := hl hx hp
  by_cases hroot : p = d.rootNodeId
  · exact .inl (.inl hroot)
  · cases hkind : containerChildDomainsEnabled m.kind enabledConcurrentContainerKinds with
    | true => exact .inl (.inr (by rw [hasContainerKind, hm]; exact hkind))
    | false => exact .inr ⟨r, hr, hown.of_parent hx hp hroot hm hkind⟩

end Removal

/-! ## The node that the handler resolves -/

/-- The planner and the handler resolve a request along parallel paths. -/
theorem requestNodeId_parallel {d d' : Document} (hs : Shape d) (hs' : Shape d')
    (he : Evolves d d') {request : RequestEnvelope} {x : Nat} {nodeId : Int}
    (hx : resolveRequestNodeId d request = .ok x)
    (hx' : requestNodeIdOrError d' request = .ok nodeId) :
    ∃ x' : Nat, nodeId = x' ∧ Parallel d d' x x' := by
  unfold resolveRequestNodeId at hx
  unfold requestNodeIdOrError at hx'
  cases hnode : request.target.bind (·.nodeId) with
  | some value =>
      rw [hnode] at hx hx'
      simp only at hx hx'
      split at hx'
      · cases hx'
      · cases hx
        cases hx'
        exact ⟨_, rfl, .same _⟩
  | none =>
      rw [hnode] at hx hx'
      simp only at hx hx'
      cases hselector : request.target.bind (·.selector) with
      | some selector =>
          rw [hselector] at hx hx'
          simp only at hx hx'
          obtain ⟨x', hresolved, hx'⟩ := bind_eq_ok.mp hx'
          split at hx'
          · cases hx'
          · cases hx'
            exact ⟨x', rfl, resolveSelector_parallel hs hs' he hx hresolved⟩
      | none =>
          rw [hselector] at hx hx'
          simp only at hx hx'
          cases hparam : getInteger request.params (ascii "nodeId") with
          | none =>
              rw [hparam] at hx
              cases hx
          | some value =>
              rw [hparam] at hx hx'
              simp only at hx hx'
              cases hx'
              split at hx
              · cases hx
              · rename_i hpos
                rw [intCast_of_nonneg hparam (not_lt.mp hpos)] at hx
                cases hx
                exact ⟨nodeId.toNat, (Int.toNat_of_nonneg (not_lt.mp hpos)).symm, .same _⟩

/-- A node with this id is the one of the plan, or its parent came after the parent of the plan. -/
def Heir (x p x' : Nat) (d : Document) : Prop :=
  x' = x ∨ (x' < d.nextNodeId ∧
    ∀ n q, d.lookup x' = some n → n.parentId = some q → p < q)

theorem Heir.later {x p x' : Nat} {d d' : Document} (hs : Shape d) (he : Evolves d d')
    (h : Heir x p x' d) : Heir x p x' d' := by
  rcases h with h | ⟨hlt, hparent⟩
  · exact .inl h
  · refine .inr ⟨Nat.lt_of_lt_of_le hlt he.next, fun n' q hn' hq => ?_⟩
    rcases he.kept hn' with hle | ⟨n, hn, -⟩
    · omega
    · exact hparent n q hn ((he.keptNode hs hn hn').parentId ▸ hq)

/-- Under a guard for the removal of `x` from `p` the handler resolves `x`, or a newer node below a
parent that is newer than `p`. -/
theorem heir_of_parallel {planned d : Document} (hs : Shape planned) (hs' : Shape d)
    (he : Evolves planned d) {D : List Nat} (hg : Grown D planned d) {x x' p r : Nat}
    (hchild : OrdinaryChild planned x p) (hr : r ∈ D) (howns : Owns planned x r)
    (hpar : Parallel planned d x x') : Heir x p x' d := by
  rcases hpar.strayed hs hs' he with h | ⟨hnew, q, hq, hold⟩
  · exact .inl h
  · obtain ⟨n, hn, hparent⟩ := hs'.parent_of_mem hq
    refine .inr ⟨hs'.lookup_lt hn, fun n' q' hn' hq' => ?_⟩
    rw [hn] at hn'
    cases hn'
    rw [hparent] at hq'
    cases hq'
    obtain ⟨k, hk, hkp⟩ := hchild.node
    obtain ⟨m, hm, hkind⟩ := hchild.parent
    have hfresh : x' ∉ planned.childrenOf q := by
      intro hmem
      obtain ⟨m', hm', -⟩ := hs.parent_of_mem hmem
      rw [hnew] at hm'
      cases hm'
    rcases hold with hmem | hdead
    · -- The old parent of `x` got no new child.
      obtain ⟨k', hk', hkq⟩ := hs.parent_of_mem hmem
      rw [hk] at hk'
      cases hk'
      rw [hkp] at hkq
      cases hkq
      exact absurd (howns.of_parent hk hkp hchild.inner hm hkind) ((hg p x' hq hfresh).2.2 r hr)
    · obtain ⟨m', hm'⟩ := live_of_mem_childrenOf hq
      have := he.fresh hdead hm'
      have := hs.lookup_lt hm
      omega

/-- A removal of an heir never needs the lock of a parent that is not above `p`. -/
theorem Heir.coordinator_parent {b : Basis} {d : Document} (hrests : Rests b d) (hs : Shape d)
    {x p x' domainId : Nat} (hchild : OrdinaryChild b.topology x p)
    (hplain : b.topology.childrenOf x = [] ∨ ∀ hs : Shape b.topology, ∀ y, hs.forest.Below x y →
      b.topology.hasContainerKind enabledConcurrentContainerKinds y = false)
    (howns : Owns b.topology x domainId) (hgrown : Grown [domainId] b.topology d)
    (hheir : Heir x p x' d) {mode : RemoveExecutionMode}
    (hmode : classifyRemoveExecutionMode d x' = .ok mode)
    (hcoord : mode = .leafCoordinator ∨ mode = .recursiveCoordinatorSafe) {n : Node}
    (hn : d.lookup x' = some n) {q : Nat} (hq : n.parentId = some q) : p < q := by
  rcases hheir with rfl | ⟨-, hparent⟩
  · exfalso
    have hne : mode ≠ .rootPolicyReject := by rintro rfl; simp at hcoord
    obtain ⟨hroot, n', p', m, hn', hp', hm⟩ := classify_ok hmode hne
    rw [hn] at hn'
    cases hn'
    have hagree := hrests.evolves.agree hrests.shape
    obtain ⟨k, hk, hkp⟩ := hchild.node
    have hpp : p' = p := by
      have := (hagree.both hk hn).2
      rw [hkp, hp'] at this
      exact Option.some.inj this
    subst hpp
    obtain ⟨m₀, hm₀, hkind⟩ := hchild.parent
    have hchild' : OrdinaryChild d x' p' :=
      ⟨⟨n, hn, hp'⟩, ⟨m, hm, by rw [(hagree.both hm₀ hm).1]; exact hkind⟩, by
        rw [hs.rootNodeId, ← hrests.shape.rootNodeId]
        exact hchild.inner⟩
    have hcover : ∀ y, hrests.shape.forest.Below x' y →
        ∃ r ∈ [domainId], Owns b.topology y r := fun y hy =>
      ⟨domainId, List.mem_singleton_self _, owns_below hrests.shape howns hplain hy⟩
    have hplain' : d.childrenOf x' = [] ∨ ∀ y, hs.forest.Below x' y →
        d.hasContainerKind enabledConcurrentContainerKinds y = false := by
      rcases hplain with hleaf | hplain
      · refine .inl (List.eq_nil_iff_forall_not_mem.mpr fun c hc => ?_)
        have hnew : c ∉ b.topology.childrenOf x' := by rw [hleaf]; exact List.not_mem_nil
        exact (hgrown x' c hc hnew).2.2 domainId (List.mem_singleton_self _) howns
      · refine .inr fun y hy => ?_
        have hold := hgrown.below hrests.shape hs hcover hy
        obtain ⟨r, -, hlive⟩ := hcover y hold
        obtain ⟨k', hk'⟩ := hlive.live
        obtain ⟨n', hn'⟩ := hs.live_of_below hn hy
        rw [hrests.evolves.hasContainerKind_eq hrests.shape hk' hn']
        exact hplain hrests.shape y hold
    obtain ⟨h₁, h₂⟩ := classify_ordinary hs hchild' hroot hplain' hmode
    rcases hcoord with h | h
    · exact h₁ h
    · exact h₂ h
  · exact hparent n q hn hq

end Muxly.Daemon
