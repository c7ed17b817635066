/-
# Muxly.Core.Topology -- links, domain roots and selectors across two states of a document

What two states of one document say about the same node. Parents and kinds never change, so the
domain root of a node, once it has one, is the same in every later state in which its ancestors are
still there. A selector that resolves in two states resolves along two `Parallel` paths: they meet
again wherever the first node is still live and linked, and a path that went astray ends in a node
that was created in between.
-/
import Muxly.Core.Mutations

namespace Muxly.Core

open Muxly.Control Muxly.Tree

namespace Document

/-! ## Links -/

/-- The part of a node that structural code reads. -/
def linksOf (n : Node) : NodeKind × Option Nat × Option Bytes × List Nat :=
  (n.kind, n.parentId, n.name, n.children)

/-- Two states with the same live nodes and the same links. -/
def SameLinks (d d' : Document) : Prop := ∀ x, (d'.lookup x).map linksOf = (d.lookup x).map linksOf

/-- Every link of the later state was there before. -/
def NoNewLinks (d d' : Document) : Prop := ∀ y, ∀ c ∈ d'.childrenOf y, c ∈ d.childrenOf y

/-- A node that is live in both states has the same kind and parent. -/
structure Agree (d d' : Document) : Prop where
  both : ∀ {x n n'}, d.lookup x = some n → d'.lookup x = some n' →
    n'.kind = n.kind ∧ n'.parentId = n.parentId

namespace SameLinks

variable {d d' d'' : Document}

theorem refl (d : Document) : SameLinks d d := fun _ => rfl

theorem symm (h : SameLinks d d') : SameLinks d' d := fun x => (h x).symm

theorem trans (h : SameLinks d d') (h' : SameLinks d' d'') : SameLinks d d'' :=
  fun x => (h' x).trans (h x)

theorem lookup (h : SameLinks d d') {x : Nat} {n : Node} (hx : d.lookup x = some n) :
    ∃ n', d'.lookup x = some n' ∧ n'.kind = n.kind ∧ n'.parentId = n.parentId ∧
      n'.name = n.name ∧ n'.children = n.children := by
  have hlinks := h x
  rw [hx] at hlinks
  obtain ⟨n', hn', heq⟩ := Option.map_eq_some_iff.mp hlinks
  simp only [linksOf, Prod.mk.injEq] at heq
  exact ⟨n', hn', heq⟩

theorem childrenOf (h : SameLinks d d') (x : Nat) : d'.childrenOf x = d.childrenOf x := by
  cases hx : d.lookup x with
  | none =>
      have hx' : d'.lookup x = none := by simpa [hx] using h x
      rw [Document.childrenOf, Document.childrenOf, hx, hx']
  | some n =>
      obtain ⟨n', hn', -, -, -, hc⟩ := h.lookup hx
      rw [childrenOf_eq hx, childrenOf_eq hn', hc]

theorem noNewLinks (h : SameLinks d d') : NoNewLinks d d' :=
  fun y _ hc => h.childrenOf y ▸ hc

theorem agree (h : SameLinks d d') : Agree d d' := by
  refine ⟨fun {x n n'} hx hx' => ?_⟩
  obtain ⟨m, hm, hk, hp, -⟩ := h.lookup hx
  rw [hx'] at hm
  cases hm
  exact ⟨hk, hp⟩

theorem evolves (h : SameLinks d d') (hnext : d.nextNodeId ≤ d'.nextNodeId) : Evolves d d' := by
  refine ⟨hnext, fun {x n'} hx' => ?_⟩
  obtain ⟨n, hn, hk, hp, hm, hc⟩ := h.symm.lookup hx'
  exact .inr ⟨n, hn, hk.symm, hp.symm, hm.symm, fun c hmem => .inl (hc ▸ hmem)⟩

theorem linked (h : SameLinks d d') (hl : Linked d) : Linked d' := by
  intro x n' p hx' hp
  obtain ⟨n, hn, -, hparent, -⟩ := h.symm.lookup hx'
  obtain ⟨m, hm, hmem⟩ := hl hn (hparent.trans hp)
  obtain ⟨m', hm', -, -, -, hc⟩ := h.lookup hm
  exact ⟨m', hm', hc ▸ hmem⟩

end SameLinks

theorem NoNewLinks.trans {d d' d'' : Document} (h : NoNewLinks d d') (h' : NoNewLinks d' d'') :
    NoNewLinks d d'' := fun y c hc => h y c (h' y c hc)

/-- A live node of a later state that was not live before is new. -/
theorem Evolves.fresh {d d' : Document} (h : Evolves d d') {x : Nat} {n' : Node}
    (hx : d.lookup x = none) (hx' : d'.lookup x = some n') : d.nextNodeId ≤ x := by
  rcases h.kept hx' with hle | ⟨n, hn, -⟩
  · exact hle
  · rw [hx] at hn
    cases hn

/-- A node that is live in both states was kept. -/
theorem Evolves.keptNode {d d' : Document} (h : Evolves d d') (hs : Shape d) {x : Nat}
    {n n' : Node} (hx : d.lookup x = some n) (hx' : d'.lookup x = some n') :
    KeptNode d.nextNodeId n n' := by
  rcases h.kept hx' with hle | ⟨m, hm, hkept⟩
  · have := hs.lookup_lt hx
    omega
  · rw [hx] at hm
    cases hm
    exact hkept

theorem Evolves.agree {d d' : Document} (h : Evolves d d') (hs : Shape d) : Agree d d' := by
  refine ⟨fun {x n n'} hx hx' => ?_⟩
  have hkept := h.keptNode hs hx hx'
  exact ⟨hkept.kind, hkept.parentId⟩

/-- A container kind stays what it is while the node is live. -/
theorem Evolves.hasContainerKind_eq {d d' : Document} (he : Evolves d d') (hs : Shape d)
    {enabled : ConcurrentContainerKinds} {y : Nat} {n n' : Node} (hy : d.lookup y = some n)
    (hy' : d'.lookup y = some n') :
    d'.hasContainerKind enabled y = d.hasContainerKind enabled y := by
  simp only [hasContainerKind, hy, hy', Option.any_some, (he.keptNode hs hy hy').kind]

/-- A link that was there may be looked up. -/
theorem live_of_mem_childrenOf {d : Document} {p c : Nat} (h : c ∈ d.childrenOf p) :
    ∃ n, d.lookup p = some n := by
  obtain ⟨n, hn, -⟩ := mem_childrenOf.mp h
  exact ⟨n, hn⟩

theorem Agree.symm {d d' : Document} (h : Agree d d') : Agree d' d := by
  refine ⟨fun {x n n'} hx hx' => ?_⟩
  obtain ⟨hk, hp⟩ := h.both hx' hx
  exact ⟨hk.symm, hp.symm⟩

/-- A new link leads to a new node. -/
theorem Evolves.newLink {d d' : Document} (h : Evolves d d') (hs : Shape d) (hs' : Shape d')
    {p c : Nat} (hc' : c ∈ d'.childrenOf p) (hc : c ∉ d.childrenOf p) : d.lookup c = none := by
  obtain ⟨n', hn', hmem'⟩ := mem_childrenOf.mp hc'
  have hnew : d.nextNodeId ≤ c := by
    rcases h.kept hn' with hle | ⟨n, hn, hkept⟩
    · obtain ⟨m', hm', hp'⟩ := hs'.child hn' hmem'
      have := (hs'.parent_lt hm' hp').2
      omega
    · rcases hkept.children c hmem' with hmem | hle
      · exact absurd (mem_childrenOf.mpr ⟨n, hn, hmem⟩) hc
      · exact hle
  cases hl : d.lookup c with
  | none => rfl
  | some m =>
      have := hs.lookup_lt hl
      omega

theorem Shape.parent_of_mem {d : Document} (h : Shape d) {p c : Nat} (hc : c ∈ d.childrenOf p) :
    ∃ m, d.lookup c = some m ∧ m.parentId = some p := by
  obtain ⟨n, hn, hmem⟩ := mem_childrenOf.mp hc
  exact h.child hn hmem

theorem Shape.parent_unique {d : Document} (h : Shape d) {p q c : Nat} (hp : c ∈ d.childrenOf p)
    (hq : c ∈ d.childrenOf q) : p = q := by
  obtain ⟨m, hm, hmp⟩ := h.parent_of_mem hp
  obtain ⟨m', hm', hmq⟩ := h.parent_of_mem hq
  rw [hm] at hm'
  cases hm'
  exact Option.some.inj (hmp.symm.trans hmq)

/-! ## Domain roots -/

variable {enabled : ConcurrentContainerKinds}

/-- `r` is the nearest node above `x`, or `x` itself, whose parent is the root or gives its children
domains of their own. -/
inductive DomainRoot (enabled : ConcurrentContainerKinds) (d : Document) : Nat → Nat → Prop
  | top {x p : Nat} {n : Node} : d.lookup x = some n → n.parentId = some p →
      (p = d.rootNodeId ∨
        ∃ m, d.lookup p = some m ∧ containerChildDomainsEnabled m.kind enabled = true) →
      DomainRoot enabled d x x
  | up {x p r : Nat} {n m : Node} : d.lookup x = some n → n.parentId = some p →
      p ≠ d.rootNodeId → d.lookup p = some m →
      containerChildDomainsEnabled m.kind enabled = false →
      DomainRoot enabled d p r → DomainRoot enabled d x r

theorem DomainRoot.live {d : Document} {x r : Nat} (h : DomainRoot enabled d x r) :
    ∃ n, d.lookup x = some n := by
  cases h with
  | top hx => exact ⟨_, hx⟩
  | up hx => exact ⟨_, hx⟩

theorem DomainRoot.not_root {d : Document} (hs : Shape d) {x r : Nat}
    (h : DomainRoot enabled d x r) : x ≠ d.rootNodeId := by
  have key : ∀ {n p}, d.lookup x = some n → n.parentId = some p → x ≠ d.rootNodeId := by
    intro n p hx hp hroot
    obtain ⟨m, hm, hnone, -⟩ := hs.root
    rw [hroot, hs.rootNodeId, hm] at hx
    cases hx
    rw [hnone] at hp
    cases hp
  cases h with
  | top hx hp => exact key hx hp
  | up hx hp => exact key hx hp

theorem domainRootLoop_sound {d : Document} {fuel x r : Nat}
    (h : d.domainRootLoop enabled fuel x = .ok (some r)) : DomainRoot enabled d x r := by
  induction fuel generalizing x with
  | zero => cases h
  | succ fuel ih =>
      unfold domainRootLoop at h
      obtain ⟨n, hn, h⟩ := bind_eq_ok.mp h
      cases hp : n.parentId with
      | none =>
          rw [hp] at h
          cases h
      | some p =>
          rw [hp] at h
          simp only at h
          split at h
          · rename_i hroot
            cases h
            exact .top (nodeOr_eq_ok.mp hn) hp (.inl hroot)
          · rename_i hroot
            obtain ⟨-, -, h⟩ := bind_eq_ok.mp h
            obtain ⟨m, hm, h⟩ := bind_eq_ok.mp h
            split at h
            · rename_i hkind
              cases h
              exact .top (nodeOr_eq_ok.mp hn) hp (.inr ⟨m, nodeOr_eq_ok.mp hm, hkind⟩)
            · rename_i hkind
              exact .up (nodeOr_eq_ok.mp hn) hp hroot (nodeOr_eq_ok.mp hm)
                (Bool.not_eq_true _ ▸ hkind) (ih h)

theorem domainRootLoop_some {d : Document} {fuel x : Nat} {o : Option Nat}
    (h : d.domainRootLoop enabled fuel x = .ok o) : ∃ r, o = some r := by
  induction fuel generalizing x with
  | zero => cases h
  | succ fuel ih =>
      unfold domainRootLoop at h
      obtain ⟨n, -, h⟩ := bind_eq_ok.mp h
      cases hp : n.parentId with
      | none =>
          rw [hp] at h
          cases h
      | some p =>
          rw [hp] at h
          simp only at h
          split at h
          · cases h
            exact ⟨x, rfl⟩
          · obtain ⟨-, -, h⟩ := bind_eq_ok.mp h
            obtain ⟨m, -, h⟩ := bind_eq_ok.mp h
            split at h
            · cases h
              exact ⟨x, rfl⟩
            · exact ih h

theorem concurrentContainerDomainRoot_sound {d : Document} {x r : Nat}
    (h : d.concurrentContainerDomainRoot x enabled = .ok (some r)) : DomainRoot enabled d x r := by
  unfold concurrentContainerDomainRoot at h
  split at h
  · cases h
  · exact domainRootLoop_sound h

theorem DomainRoot.loop_eq {d : Document} (hs : Shape d) {x r : Nat}
    (h : DomainRoot enabled d x r) {fuel : Nat} (hfuel : x ≤ fuel) :
    d.domainRootLoop enabled fuel x = .ok (some r) := by
  induction h generalizing fuel with
  | @top x p n hx hp htop =>
      have hpos := Nat.pos_of_ne_zero (lookup_pos hx)
      obtain ⟨fuel, rfl⟩ : ∃ k, fuel = k + 1 := ⟨fuel - 1, by omega⟩
      simp only [domainRootLoop, nodeOr_of_lookup hx, ok_bind, hp]
      by_cases hroot : p = d.rootNodeId
      · rw [if_pos hroot]
        rfl
      · rcases htop with h | ⟨m, hm, hkind⟩
        · exact absurd h hroot
        · simp only [if_neg hroot, pure_eq_ok, ok_bind, nodeOr_of_lookup hm, hkind, if_true]
  | @up x p r n m hx hp hroot hm hkind _ ih =>
      have hlt := (hs.parent_lt hx hp).2
      obtain ⟨fuel, rfl⟩ : ∃ k, fuel = k + 1 := ⟨fuel - 1, by omega⟩
      simp only [domainRootLoop, nodeOr_of_lookup hx, ok_bind, hp, if_neg hroot, pure_eq_ok,
        nodeOr_of_lookup hm, hkind]
      exact ih (by omega)

/-- The climb finds the domain root. -/
theorem DomainRoot.eq {d : Document} (hs : Shape d) {x r : Nat} (h : DomainRoot enabled d x r) :
    d.concurrentContainerDomainRoot x enabled = .ok (some r) := by
  obtain ⟨n, hn⟩ := h.live
  rw [concurrentContainerDomainRoot, if_neg (h.not_root hs)]
  exact h.loop_eq hs ((lookup_le hn).trans (Nat.le_succ _))

theorem domainRoot_iff {d : Document} (hs : Shape d) {x r : Nat} :
    d.concurrentContainerDomainRoot x enabled = .ok (some r) ↔ DomainRoot enabled d x r :=
  ⟨concurrentContainerDomainRoot_sound, fun h => h.eq hs⟩

/-- Every live node but the root has a domain root. -/
theorem exists_domainRoot (enabled : ConcurrentContainerKinds) {d : Document} (hs : Shape d)
    (hl : Linked d) {x : Nat} {n : Node} (hx : d.lookup x = some n) (hroot : x ≠ 1) :
    ∃ r, DomainRoot enabled d x r := by
  induction x using Nat.strong_induction_on generalizing n with
  | _ x ih =>
      obtain ⟨p, hp, -, hlt⟩ := hs.parent hx hroot
      obtain ⟨m, hm, -⟩ := hl hx hp
      by_cases hproot : p = d.rootNodeId
      · exact ⟨x, .top hx hp (.inl hproot)⟩
      · cases hkind : containerChildDomainsEnabled m.kind enabled with
        | true => exact ⟨x, .top hx hp (.inr ⟨m, hm, hkind⟩)⟩
        | false =>
            obtain ⟨r, hr⟩ := ih p hlt hm (hs.rootNodeId ▸ hproot)
            exact ⟨r, .up hx hp hproot hm hkind hr⟩

/-- A node has one domain root, whichever state is asked. -/
theorem Agree.domainRoot_unique {d d' : Document} (h : Agree d d')
    (hroot : d'.rootNodeId = d.rootNodeId) {x r r' : Nat} (hr : DomainRoot enabled d x r)
    (hr' : DomainRoot enabled d' x r') : r = r' := by
  induction hr generalizing r' with
  | @top x p n hx hp htop =>
      cases hr' with
      | top _ _ _ => rfl
      | @up _ p' _ n' m' hx' hp' hne hm' hkind' _ =>
          have hpp : p' = p := by
            have := (h.both hx hx').2
            rw [hp, hp'] at this
            exact Option.some.inj this
          subst hpp
          rcases htop with htop | ⟨m, hm, hkind⟩
          · exact absurd (hroot ▸ htop) hne
          · rw [(h.both hm hm').1, hkind] at hkind'
            cases hkind'
  | @up x p r n m hx hp hne hm hkind _ ih =>
      cases hr' with
      | @top _ p' n' hx' hp' htop' =>
          have hpp : p' = p := by
            have := (h.both hx hx').2
            rw [hp, hp'] at this
            exact Option.some.inj this
          subst hpp
          rcases htop' with htop' | ⟨m', hm', hkind'⟩
          · exact absurd (hroot ▸ htop') hne
          · rw [(h.both hm hm').1, hkind] at hkind'
            cases hkind'
      | @up _ p' _ n' m' hx' hp' _ _ _ hr'' =>
          have hpp : p' = p := by
            have := (h.both hx hx').2
            rw [hp, hp'] at this
            exact Option.some.inj this
          subst hpp
          exact ih hr''

theorem DomainRoot.unique {d : Document} {x r r' : Nat} (hr : DomainRoot enabled d x r)
    (hr' : DomainRoot enabled d x r') : r = r' := by
  refine Agree.domainRoot_unique ⟨fun {x n n'} hx hx' => ?_⟩ rfl hr hr'
  rw [hx] at hx'
  cases hx'
  exact ⟨rfl, rfl⟩

/-- A node that is still live in a later, linked state keeps its domain root. -/
theorem DomainRoot.later {d d' : Document} (hs : Shape d) (hs' : Shape d') (hl' : Linked d')
    (he : Evolves d d') {x r : Nat} (hr : DomainRoot enabled d x r) {n' : Node}
    (hx' : d'.lookup x = some n') : DomainRoot enabled d' x r := by
  have hx1 : x ≠ 1 := hs.rootNodeId ▸ hr.not_root hs
  obtain ⟨r', hr'⟩ := exists_domainRoot enabled hs' hl' hx' hx1
  rw [(he.agree hs).domainRoot_unique (hs'.rootNodeId.trans hs.rootNodeId.symm) hr hr']
  exact hr'

/-- A child of an ordinary node belongs to the domain of its parent. -/
theorem DomainRoot.of_child {d : Document} (hs : Shape d) {p c r : Nat} {m : Node}
    (hc : c ∈ d.childrenOf p) (hm : d.lookup p = some m)
    (hkind : containerChildDomainsEnabled m.kind enabled = false)
    (hr : DomainRoot enabled d p r) : DomainRoot enabled d c r := by
  obtain ⟨n, hn, hp⟩ := hs.parent_of_mem hc
  exact .up hn hp (hr.not_root hs) hm hkind hr

/-- The parent of a node, when it is neither the root nor a container of domains, has the same
domain root. -/
theorem DomainRoot.of_parent {d : Document} {x p r : Nat} {n m : Node}
    (hr : DomainRoot enabled d x r) (hx : d.lookup x = some n) (hp : n.parentId = some p)
    (hroot : p ≠ d.rootNodeId) (hm : d.lookup p = some m)
    (hkind : containerChildDomainsEnabled m.kind enabled = false) : DomainRoot enabled d p r := by
  cases hr with
  | @top _ p' n' hx' hp' htop =>
      rw [hx] at hx'
      cases hx'
      rw [hp] at hp'
      cases hp'
      rcases htop with htop | ⟨m', hm', hkind'⟩
      · exact absurd htop hroot
      · rw [hm] at hm'
        cases hm'
        rw [hkind] at hkind'
        cases hkind'
  | @up _ p' _ n' m' hx' hp' _ _ _ hr' =>
      rw [hx] at hx'
      cases hx'
      rw [hp] at hp'
      cases hp'
      exact hr'

/-- Below a node with no container of domains every node belongs to its domain. -/
theorem DomainRoot.of_below {d : Document} (hs : Shape d) {x r : Nat} (hr : DomainRoot enabled d x r)
    (hplain : ∀ y, hs.forest.Below x y → d.hasContainerKind enabled y = false) {y : Nat}
    (hy : hs.forest.Below x y) : DomainRoot enabled d y r := by
  induction hy with
  | refl => exact hr
  | @tail p c hp hc ih =>
      obtain ⟨m, hm⟩ := ih.live
      have hkind : containerChildDomainsEnabled m.kind enabled = false := by
        simpa [hasContainerKind, hm] using hplain p hp
      exact ih.of_child hs hc hm hkind

/-! ## Selectors in two states -/

/-- A live node that a selector segment names. -/
def matchesAt (d : Document) (x : Nat) (segment : Bytes) : Bool :=
  (d.lookup x).any fun node => nodeMatchesSegment node segment

/-- `c` is the one child of `p` that the segment names. -/
structure Matched (d : Document) (p : Nat) (segment : Bytes) (c : Nat) : Prop where
  child : c ∈ d.childrenOf p
  named : d.matchesAt c segment = true
  only : ∀ z ∈ d.childrenOf p, d.matchesAt z segment = true → z = c

theorem resolveChildBySegment_matched {d : Document} (hs : Shape d) {p c : Nat} {segment : Bytes}
    (h : d.resolveChildBySegment p segment = .ok c) : Matched d p segment c := by
  unfold resolveChildBySegment at h
  cases hp : d.nodeOr p .invalidResourceSelector with
  | error e =>
      rw [hp] at h
      cases h
  | ok parent =>
      have hlook := nodeOr_eq_ok.mp hp
      rw [hp, ok_bind, filterM_ok (g := fun z => d.matchesAt z segment) (fun z hz => by
        obtain ⟨m, hm, -⟩ := hs.child hlook hz
        rw [findNode_of_ne_zero (lookup_pos hm), hm, matchesAt, hm]
        rfl), ok_bind] at h
      have hmem : ∀ z, z ∈ parent.children.filter (d.matchesAt · segment) ↔
          z ∈ d.childrenOf p ∧ d.matchesAt z segment = true := by
        intro z
        rw [List.mem_filter, childrenOf_eq hlook]
      split at h
      · cases h
      · rename_i found heq
        cases h
        rw [heq] at hmem
        have hc := (hmem c).mp (List.mem_singleton_self c)
        exact ⟨hc.1, hc.2, fun z hz hseg => List.mem_singleton.mp ((hmem z).mpr ⟨hz, hseg⟩)⟩
      · cases h

/-- Two nodes reached by one selector in two states. -/
inductive Parallel (d d' : Document) : Nat → Nat → Prop
  | same (x : Nat) : Parallel d d' x x
  | fork {p p' c c' : Nat} {segment : Bytes} : Parallel d d' p p' → Matched d p segment c →
      Matched d' p' segment c' → Parallel d d' c c'

section Paths

variable {d d' : Document} (hs : Shape d) (hs' : Shape d') (he : Evolves d d')
include hs hs' he

theorem Parallel.parent {c c' p p' : Nat} {n n' : Node} (h : Parallel d d' c c')
    (hc : d.lookup c = some n) (hp : n.parentId = some p) (hc' : d'.lookup c' = some n')
    (hp' : n'.parentId = some p') : Parallel d d' p p' := by
  cases h with
  | same =>
      have hpp : p' = p := by
        have := ((he.agree hs).both hc hc').2
        rw [hp, hp'] at this
        exact Option.some.inj this
      subst hpp
      exact .same p'
  | fork hpar hm hm' =>
      obtain ⟨k, hk, hkp⟩ := hs.parent_of_mem hm.child
      obtain ⟨k', hk', hkp'⟩ := hs'.parent_of_mem hm'.child
      rw [hc] at hk
      rw [hc'] at hk'
      cases hk
      cases hk'
      rw [hp] at hkp
      rw [hp'] at hkp'
      cases hkp
      cases hkp'
      exact hpar

theorem Parallel.segment {c c' x x' : Nat} {segment : Bytes} (h : Parallel d d' c c')
    (hx : d.resolveSegment c segment = .ok x) (hx' : d'.resolveSegment c' segment = .ok x') :
    Parallel d d' x x' := by
  unfold resolveSegment at hx hx'
  by_cases hstay : segment = [] ∨ segment = ascii "."
  · rw [if_pos hstay] at hx hx'
    cases hx
    cases hx'
    exact h
  · simp only [if_neg hstay, pure_eq_ok] at hx hx'
    by_cases hup : segment = ascii ".."
    · simp only [if_pos hup] at hx hx'
      cases hc : d.nodeOr c .invalidResourceSelector with
      | error e =>
          rw [hc] at hx
          cases hx
      | ok n =>
          cases hc' : d'.nodeOr c' .invalidResourceSelector with
          | error e =>
              rw [hc'] at hx'
              cases hx'
          | ok n' =>
              rw [hc, ok_bind] at hx
              rw [hc', ok_bind] at hx'
              cases hp : n.parentId with
              | none =>
                  rw [hp] at hx
                  cases hx
              | some p =>
                  cases hp' : n'.parentId with
                  | none =>
                      rw [hp'] at hx'
                      cases hx'
                  | some p' =>
                      rw [hp] at hx
                      rw [hp'] at hx'
                      cases hx
                      cases hx'
                      exact h.parent hs hs' he (nodeOr_eq_ok.mp hc) hp (nodeOr_eq_ok.mp hc') hp'
    · simp only [if_neg hup] at hx hx'
      cases hdirect : parseDirectNodeReference segment with
      | some directId =>
          rw [hdirect] at hx hx'
          simp only at hx hx'
          cases hc : d.nodeOr directId .unknownResourceSelectorSegment with
          | error e =>
              rw [hc] at hx
              cases hx
          | ok n =>
              cases hc' : d'.nodeOr directId .unknownResourceSelectorSegment with
              | error e =>
                  rw [hc'] at hx'
                  cases hx'
              | ok n' =>
                  rw [hc] at hx
                  rw [hc'] at hx'
                  cases hx
                  cases hx'
                  exact .same _
      | none =>
          rw [hdirect] at hx hx'
          exact .fork h (resolveChildBySegment_matched hs hx) (resolveChildBySegment_matched hs' hx')

/-- A selector that resolves in both states resolves along parallel paths. -/
theorem resolveSelector_parallel {selector : Option Bytes} {x x' : Nat}
    (hx : d.resolveSelector selector = .ok x) (hx' : d'.resolveSelector selector = .ok x') :
    Parallel d d' x x' := by
  have hroot : d'.rootNodeId = d.rootNodeId := hs'.rootNodeId.trans hs.rootNodeId.symm
  cases selector with
  | none =>
      cases hx
      cases hx'
      exact hroot ▸ .same _
  | some text =>
      simp only [resolveSelector] at hx hx'
      split at hx
      · rename_i hstay
        rw [if_pos hstay] at hx'
        cases hx
        cases hx'
        exact hroot ▸ .same _
      · rename_i hstay
        rw [if_neg hstay, hroot] at hx'
        suffices hfold : ∀ (segments : List Bytes) (c c' : Nat), Parallel d d' c c' →
            segments.foldlM d.resolveSegment c = .ok x →
            segments.foldlM d'.resolveSegment c' = .ok x' → Parallel d d' x x' from
          hfold _ _ _ (.same _) hx hx'
        intro segments
        induction segments with
        | nil =>
            intro c c' h hc hc'
            cases hc
            cases hc'
            exact h
        | cons segment rest ih =>
            intro c c' h hc hc'
            rw [List.foldlM_cons] at hc hc'
            cases hseg : d.resolveSegment c segment with
            | error e =>
                rw [hseg] at hc
                cases hc
            | ok y =>
                cases hseg' : d'.resolveSegment c' segment with
                | error e =>
                    rw [hseg'] at hc'
                    cases hc'
                | ok y' =>
                    rw [hseg, ok_bind] at hc
                    rw [hseg', ok_bind] at hc'
                    exact ih y y' (h.segment hs hs' he hseg hseg') hc hc'

theorem matchesAt_kept {x : Nat} {segment : Bytes} {n n' : Node} (hx : d.lookup x = some n)
    (hx' : d'.lookup x = some n') : d'.matchesAt x segment = d.matchesAt x segment := by
  have hkept := he.keptNode hs hx hx'
  simp only [matchesAt, hx, hx', Option.any_some, nodeMatchesSegment, hkept.name, hs.id_eq hx,
    hs'.id_eq hx']

/-- Where the first node is still live and linked, the paths meet. -/
theorem Parallel.eq_of_live (hl' : Linked d') {x x' : Nat} (h : Parallel d d' x x') {n' : Node}
    (hx : d'.lookup x = some n') : x' = x := by
  induction h generalizing n' with
  | same => rfl
  | @fork p p' c c' segment _ hm hm' ih =>
      obtain ⟨n, hn, hp⟩ := hs.parent_of_mem hm.child
      have hkept := he.keptNode hs hn hx
      obtain ⟨m', hlive, hmem⟩ := hl' hx (hkept.parentId.trans hp)
      have hpp := ih hlive
      subst hpp
      refine (hm'.only c (mem_childrenOf.mpr ⟨m', hlive, hmem⟩) ?_).symm
      rw [matchesAt_kept hs hs' he hn hx]
      exact hm.named

/-- The second path has gone astray: it ends in a node created in between, whose parent is the
parent of the first node or was created in between too. -/
def Strayed (d d' : Document) (x x' : Nat) : Prop :=
  d.lookup x' = none ∧
    ∃ q, x' ∈ d'.childrenOf q ∧ (x ∈ d.childrenOf q ∨ d.lookup q = none)

/-- Two parallel paths meet, or the second one has gone astray. -/
theorem Parallel.strayed {x x' : Nat} (h : Parallel d d' x x') : x' = x ∨ Strayed d d' x x' := by
  induction h with
  | same => exact .inl rfl
  | @fork p p' c c' segment _ hm hm' ih =>
      by_cases hcc : c' = c
      · exact .inl hcc
      refine .inr ?_
      rcases ih with hpp | ⟨hp', -⟩
      · subst hpp
        have hnew : c' ∉ d.childrenOf p' := by
          intro hold
          obtain ⟨k, hk, -⟩ := hs.parent_of_mem hold
          obtain ⟨k', hk', -⟩ := hs'.parent_of_mem hm'.child
          refine hcc (hm.only c' hold ?_)
          rw [← matchesAt_kept hs hs' he hk hk']
          exact hm'.named
        exact ⟨he.newLink hs hs' hm'.child hnew, p', hm'.child, .inl hm.child⟩
      · have hnew : c' ∉ d.childrenOf p' := by
          intro hold
          obtain ⟨n, hn, -⟩ := mem_childrenOf.mp hold
          rw [hp'] at hn
          cases hn
        exact ⟨he.newLink hs hs' hm'.child hnew, p', hm'.child, .inr hp'⟩

end Paths

end Document

end Muxly.Core
