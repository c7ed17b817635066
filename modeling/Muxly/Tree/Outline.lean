/-
# Muxly.Tree.Outline -- labelled trees by parent pointers

An `Outline` gives every node that is there its parent and a label. This is the view of a tree that
is left when the order of children does not matter: adding a node is one new entry, taking a
subtree away makes some entries disappear. `Ensured` is the step "find a child with this label, or
add one".
-/
import Mathlib.Data.Set.Basic
import Mathlib.Logic.Relation

namespace Muxly.Tree

/-- A node of an outline. -/
structure Entry (α : Type) where
  parent : Option Nat
  label : α

/-- The nodes that are there, with their parents and labels. -/
def Outline (α : Type) : Type := Nat → Option (Entry α)

namespace Outline

variable {α : Type}

/-- `c` is there and `p` is its parent. -/
def Child (O : Outline α) (p c : Nat) : Prop := ∃ e, O c = some e ∧ e.parent = some p

/-- `x` lies in the tree below `r`, or is `r`. -/
def Under (O : Outline α) (r x : Nat) : Prop := Relation.ReflTransGen O.Child r x

/-- `x` is there with a label that satisfies `hit`. -/
def Has (O : Outline α) (hit : α → Prop) (x : Nat) : Prop := ∃ e, O x = some e ∧ hit e.label

/-- Parents are there, and come before their children. -/
structure WellFormed (O : Outline α) : Prop where
  parent : ∀ {p c}, O.Child p c → ∃ e, O p = some e
  above : ∀ {p c}, O.Child p c → p < c

/-! ## Trees -/

theorem Child.unique {O : Outline α} {p q c : Nat} (hp : O.Child p c) (hq : O.Child q c) :
    p = q := by
  obtain ⟨e, he, hep⟩ := hp
  obtain ⟨f, hf, hfq⟩ := hq
  rw [he] at hf
  cases hf
  rw [hep] at hfq
  exact Option.some.inj hfq

theorem under_self (O : Outline α) (r : Nat) : O.Under r r := Relation.ReflTransGen.refl

theorem Child.under {O : Outline α} {p c : Nat} (h : O.Child p c) : O.Under p c :=
  Relation.ReflTransGen.single h

theorem Under.trans {O : Outline α} {r x y : Nat} (h : O.Under r x) (h' : O.Under x y) :
    O.Under r y := Relation.ReflTransGen.trans h h'

theorem Under.child {O : Outline α} {r p c : Nat} (h : O.Under r p) (hc : O.Child p c) :
    O.Under r c := Relation.ReflTransGen.tail h hc

/-- The tree below a node is the node and the trees below its children. -/
theorem under_iff {O : Outline α} {r x : Nat} :
    O.Under r x ↔ x = r ∨ ∃ c, O.Child r c ∧ O.Under c x := by
  constructor
  · intro h
    rcases Relation.ReflTransGen.cases_head h with h | ⟨c, hc, hx⟩
    · exact .inl h.symm
    · exact .inr ⟨c, hc, hx⟩
  · rintro (rfl | ⟨c, hc, hx⟩)
    · exact O.under_self _
    · exact hc.under.trans hx

/-- What lies strictly below `r` has its parent below `r`. -/
theorem Under.parent {O : Outline α} {r p x : Nat} (h : O.Under r x) (hx : x ≠ r)
    (hp : O.Child p x) : O.Under r p := by
  cases h with
  | refl => exact absurd rfl hx
  | tail hq hc => exact hc.unique hp ▸ hq

theorem WellFormed.le {O : Outline α} (hO : O.WellFormed) {r x : Nat} (h : O.Under r x) :
    r ≤ x := by
  induction h with
  | refl => exact le_refl _
  | tail _ hc ih => exact ih.trans (hO.above hc).le

/-- No child has its parent below it. -/
theorem WellFormed.not_under_parent {O : Outline α} (hO : O.WellFormed) {p c : Nat}
    (hc : O.Child p c) : ¬ O.Under c p := fun h =>
  absurd (hO.above hc) (hO.le h).not_gt

/-- What lies above a node that is there is there. -/
theorem WellFormed.live_of_under {O : Outline α} (hO : O.WellFormed) {r x : Nat} {e : Entry α}
    (h : O.Under r x) (hx : O x = some e) : ∃ f, O r = some f := by
  induction h using Relation.ReflTransGen.head_induction_on with
  | refl => exact ⟨e, hx⟩
  | head hc _ _ => exact hO.parent hc

/-! ## Branches -/

/-- `O'` has `x` and the nodes above it as `O` has them. -/
def SameBranch (O O' : Outline α) (x : Nat) : Prop := ∀ a, O.Under a x → O' a = O a

section Branch

variable {O O' : Outline α} {x : Nat} (h : O.SameBranch O' x)
include h

theorem SameBranch.child_iff {p c : Nat} (hc : O.Under c x) : O'.Child p c ↔ O.Child p c := by
  unfold Child
  rw [h c hc]

theorem SameBranch.has_iff {hit : α → Prop} {c : Nat} (hc : O.Under c x) :
    O'.Has hit c ↔ O.Has hit c := by
  unfold Has
  rw [h c hc]

theorem SameBranch.under_iff {a : Nat} : O'.Under a x ↔ O.Under a x := by
  constructor
  · intro ha
    induction ha using Relation.ReflTransGen.head_induction_on with
    | refl => exact O.under_self x
    | head hc _ ih => exact ((h.child_iff ih).mp hc).under.trans ih
  · intro ha
    induction ha using Relation.ReflTransGen.head_induction_on with
    | refl => exact O'.under_self x
    | head hc hcx ih => exact ((h.child_iff hcx).mpr hc).under.trans ih

end Branch

theorem SameBranch.refl (O : Outline α) (x : Nat) : O.SameBranch O x := fun _ _ => rfl

/-- One more change that keeps the branch. -/
theorem SameBranch.trans {O O' O'' : Outline α} {x : Nat} (h : O.SameBranch O' x)
    (h' : ∀ a, O.Under a x → O'' a = O' a) : O.SameBranch O'' x :=
  fun a ha => (h' a ha).trans (h a ha)

/-! ## Taking nodes away -/

open Classical in
/-- The outline without the nodes of `S`. -/
noncomputable def drop (O : Outline α) (S : Set Nat) : Outline α :=
  fun y => if y ∈ S then none else O y

/-- With a node the whole tree below it is in `S`. -/
def Closed (O : Outline α) (S : Set Nat) : Prop := ∀ {p c}, O.Child p c → p ∈ S → c ∈ S

theorem drop_of_mem {O : Outline α} {S : Set Nat} {y : Nat} (h : y ∈ S) : O.drop S y = none :=
  if_pos h

theorem drop_of_notMem {O : Outline α} {S : Set Nat} {y : Nat} (h : y ∉ S) : O.drop S y = O y :=
  if_neg h

theorem drop_eq_some {O : Outline α} {S : Set Nat} {y : Nat} {e : Entry α} :
    O.drop S y = some e ↔ y ∉ S ∧ O y = some e := by
  by_cases h : y ∈ S
  · simp [drop_of_mem h, h]
  · simp [drop_of_notMem h, h]

theorem drop_empty (O : Outline α) : O.drop ∅ = O := by
  funext y
  exact drop_of_notMem (Set.notMem_empty y)

theorem drop_drop (O : Outline α) (S T : Set Nat) : (O.drop S).drop T = O.drop (S ∪ T) := by
  funext y
  by_cases hS : y ∈ S
  · by_cases hT : y ∈ T
    · rw [drop_of_mem hT, drop_of_mem (Set.mem_union_left T hS)]
    · rw [drop_of_notMem hT, drop_of_mem hS, drop_of_mem (Set.mem_union_left T hS)]
  · by_cases hT : y ∈ T
    · rw [drop_of_mem hT, drop_of_mem (Set.mem_union_right S hT)]
    · rw [drop_of_notMem hT, drop_of_notMem hS, drop_of_notMem fun h => h.elim hS hT]

theorem child_drop {O : Outline α} {S : Set Nat} {p c : Nat} :
    (O.drop S).Child p c ↔ c ∉ S ∧ O.Child p c := by
  unfold Child
  simp only [drop_eq_some]
  constructor
  · rintro ⟨e, ⟨hc, he⟩, hp⟩
    exact ⟨hc, e, he, hp⟩
  · rintro ⟨hc, e, he, hp⟩
    exact ⟨e, ⟨hc, he⟩, hp⟩

theorem has_drop {O : Outline α} {S : Set Nat} {hit : α → Prop} {x : Nat} :
    (O.drop S).Has hit x ↔ x ∉ S ∧ O.Has hit x := by
  unfold Has
  simp only [drop_eq_some]
  constructor
  · rintro ⟨e, ⟨hx, he⟩, hhit⟩
    exact ⟨hx, e, he, hhit⟩
  · rintro ⟨hx, e, he, hhit⟩
    exact ⟨e, ⟨hx, he⟩, hhit⟩

theorem closed_empty (O : Outline α) : O.Closed ∅ := fun _ hp => absurd hp (Set.notMem_empty _)

theorem closed_under (O : Outline α) (r : Nat) : O.Closed {y | O.Under r y} :=
  fun hc hp => Under.child hp hc

theorem Closed.union {O : Outline α} {S T : Set Nat} (hS : O.Closed S) (hT : O.Closed T) :
    O.Closed (S ∪ T) := fun hc hp => hp.imp (hS hc) (hT hc)

theorem Closed.under {O : Outline α} {S : Set Nat} (hS : O.Closed S) {r x : Nat} (hr : r ∈ S)
    (h : O.Under r x) : x ∈ S := by
  induction h with
  | refl => exact hr
  | tail _ hc ih => exact hS hc ih

/-- What is left below a node is what was below it and is left. -/
theorem Closed.under_drop {O : Outline α} {S : Set Nat} (hS : O.Closed S) {r x : Nat}
    (hx : x ∉ S) : (O.drop S).Under r x ↔ O.Under r x := by
  constructor
  · have hle : (O.drop S).Child ≤ O.Child := fun p c hc => (child_drop.mp hc).2
    exact Relation.ReflTransGen.mono hle r x
  · intro h
    induction h with
    | refl => exact under_self _ _
    | tail _ hc ih => exact (ih fun hp => hx (hS hc hp)).child (child_drop.mpr ⟨hx, hc⟩)

/-- Taking a tree away after a closed set takes away what was below its root to begin with. -/
theorem Closed.drop_under {O : Outline α} {S : Set Nat} (hS : O.Closed S) (r : Nat) :
    (O.drop S).drop {y | (O.drop S).Under r y} = O.drop (S ∪ {y | O.Under r y}) := by
  rw [drop_drop]
  funext y
  by_cases hy : y ∈ S
  · rw [drop_of_mem (Set.mem_union_left _ hy), drop_of_mem (Set.mem_union_left _ hy)]
  · have hiff : (O.drop S).Under r y ↔ O.Under r y := hS.under_drop hy
    by_cases hr : O.Under r y
    · rw [drop_of_mem (.inr (hiff.mpr hr)), drop_of_mem (.inr hr)]
    · rw [drop_of_notMem fun h => h.elim hy fun h => hr (hiff.mp h),
        drop_of_notMem fun h => h.elim hy hr]

/-! ## Adding nodes -/

/-- The outline with one more node. -/
def add (O : Outline α) (x : Nat) (e : Entry α) : Outline α :=
  fun y => if y = x then some e else O y

theorem add_eq_some {O : Outline α} {x : Nat} {e : Entry α} (hx : O x = none) {y : Nat}
    {f : Entry α} : O.add x e y = some f ↔ O y = some f ∨ (y = x ∧ f = e) := by
  unfold add
  by_cases hy : y = x
  · subst hy
    simp [hx, eq_comm]
  · simp [hy]

/-- Every node of `O` is there in `O'`, as it was. -/
def Extends (O O' : Outline α) : Prop := ∀ ⦃y e⦄, O y = some e → O' y = some e

theorem extends_add {O : Outline α} {x : Nat} (e : Entry α) (hx : O x = none) :
    O.Extends (O.add x e) := fun _ _ hy => (add_eq_some hx).mpr (.inl hy)

theorem Extends.child {O O' : Outline α} (h : O.Extends O') {p c : Nat} (hc : O.Child p c) :
    O'.Child p c := by
  obtain ⟨e, he, hp⟩ := hc
  exact ⟨e, h he, hp⟩

theorem Extends.has {O O' : Outline α} (h : O.Extends O') {hit : α → Prop} {x : Nat}
    (hx : O.Has hit x) : O'.Has hit x := by
  obtain ⟨e, he, hhit⟩ := hx
  exact ⟨e, h he, hhit⟩

/-- Read back what a node that was there had. -/
theorem Extends.entry {O O' : Outline α} (h : O.Extends O') {x : Nat} {e f : Entry α}
    (hx : O x = some e) (hx' : O' x = some f) : f = e := by
  rw [h hx] at hx'
  exact (Option.some.inj hx').symm

/-- What lies in a tree lies in the tree that has grown. -/
theorem Extends.under_mono {O O' : Outline α} (h : O.Extends O') {r x : Nat} (hr : O.Under r x) :
    O'.Under r x := by
  have hle : O.Child ≤ O'.Child := fun p c hc => h.child hc
  exact Relation.ReflTransGen.mono hle r x hr

/-- A node that was there has the ancestors it had. -/
theorem Extends.under {O O' : Outline α} (h : O.Extends O') (hO : O.WellFormed) {r x : Nat}
    {e : Entry α} (hx : O x = some e) : O'.Under r x ↔ O.Under r x := by
  constructor
  · intro hr
    induction hr generalizing e with
    | refl => exact O.under_self _
    | tail _ hc ih =>
        obtain ⟨f, hf, hp⟩ := hc
        rw [h.entry hx hf] at hp
        have hchild : O.Child _ _ := ⟨e, hx, hp⟩
        obtain ⟨g, hg⟩ := hO.parent hchild
        exact (ih hg).child hchild
  · exact h.under_mono

theorem WellFormed.add {O : Outline α} (hO : O.WellFormed) {x p : Nat} {label : α}
    (hx : O x = none) (hp : ∃ e, O p = some e) (hlt : p < x) :
    (O.add x ⟨some p, label⟩).WellFormed where
  parent := by
    rintro q c ⟨e, he, hq⟩
    rcases (add_eq_some hx).mp he with he | ⟨rfl, rfl⟩
    · obtain ⟨f, hf⟩ := hO.parent ⟨e, he, hq⟩
      exact ⟨f, extends_add _ hx hf⟩
    · cases hq
      obtain ⟨f, hf⟩ := hp
      exact ⟨f, extends_add _ hx hf⟩
  above := by
    rintro q c ⟨e, he, hq⟩
    rcases (add_eq_some hx).mp he with he | ⟨rfl, rfl⟩
    · exact hO.above ⟨e, he, hq⟩
    · cases hq
      exact hlt

/-- No two children of a node are hit. -/
def AtMostOne (O : Outline α) (p : Nat) (hit : α → Prop) : Prop :=
  ∀ y z, O.Child p y → O.Has hit y → O.Child p z → O.Has hit z → y = z

/-- Find a child of `p` whose label satisfies `hit`, or add one with `label`. -/
inductive Ensured (O : Outline α) (p : Nat) (hit : α → Prop) (label : α) :
    Nat → Outline α → Prop
  | found {x : Nat} : O.Child p x → O.Has hit x → Ensured O p hit label x O
  | added {x : Nat} : (∀ c, O.Child p c → ¬ O.Has hit c) → O x = none → (∃ e, O p = some e) →
      p < x → Ensured O p hit label x (O.add x ⟨some p, label⟩)

namespace Ensured

variable {O O' : Outline α} {p x : Nat} {hit : α → Prop} {label : α}

theorem grows (h : Ensured O p hit label x O') : O.Extends O' := by
  cases h with
  | found hc hx => exact fun _ _ hy => hy
  | added hnone hx hp hlt => exact extends_add _ hx

theorem wellFormed (h : Ensured O p hit label x O') (hO : O.WellFormed) : O'.WellFormed := by
  cases h with
  | found hc hx => exact hO
  | added hnone hx hp hlt => exact hO.add hx hp hlt

/-- The node is there afterwards. -/
theorem there (h : Ensured O p hit label x O') (hlabel : hit label) : O'.Child p x ∧ O'.Has hit x := by
  cases h with
  | found hc hx => exact ⟨hc, hx⟩
  | added hnone hx hp hlt =>
      have hent : O.add x ⟨some p, label⟩ x = some ⟨some p, label⟩ :=
        (add_eq_some hx).mpr (.inr ⟨rfl, rfl⟩)
      exact ⟨⟨_, hent, rfl⟩, _, hent, hlabel⟩

/-- Every node that is there afterwards was there, or is the new one. -/
theorem entry (h : Ensured O p hit label x O') {y : Nat} {e : Entry α} (hy : O' y = some e) :
    O y = some e ∨ (y = x ∧ e = ⟨some p, label⟩ ∧ ∀ c, O.Child p c → ¬ O.Has hit c) := by
  cases h with
  | found hc hx => exact .inl hy
  | added hnone hx hp hlt =>
      rcases (add_eq_some hx).mp hy with hy | ⟨rfl, rfl⟩
      · exact .inl hy
      · exact .inr ⟨rfl, rfl, hnone⟩

/-- Nothing is added when there is a child to find. -/
theorem same (h : Ensured O p hit label x O') {c : Nat} (hc : O.Child p c) (hhit : O.Has hit c) :
    O' = O ∧ O.Child p x ∧ O.Has hit x := by
  cases h with
  | found hcx hx => exact ⟨rfl, hcx, hx⟩
  | added hnone hx hp hlt => exact absurd hhit (hnone c hc)

/-- An added node is the only child of its parent that was looked for. -/
theorem only_added (h : Ensured O p hit label x O') (hnew : O x = none) {z : Nat}
    (hc : O'.Child p z) (hz : O'.Has hit z) : z = x := by
  obtain ⟨e, he, hhit⟩ := hz
  obtain ⟨f, hf, hfp⟩ := hc
  rw [he] at hf
  cases hf
  rcases h.entry he with hold | ⟨hzx, -⟩
  · cases h with
    | found hcx hx =>
        obtain ⟨g, hg, -⟩ := hx
        rw [hnew] at hg
        cases hg
    | added hnone hx hp hlt => exact absurd ⟨e, hold, hhit⟩ (hnone z ⟨e, hold, hfp⟩)
  · exact hzx

/-- An only child stays the only one when the step would have found it. -/
theorem only (h : Ensured O p hit label x O') {p' y : Nat} {hit' : α → Prop} (hy : O.Child p' y)
    (honly : ∀ z, O.Child p' z → O.Has hit' z → z = y)
    (hsame : hit' label → p' = p → O.Has hit y) (z : Nat) (hc : O'.Child p' z)
    (hz : O'.Has hit' z) : z = y := by
  obtain ⟨e, he, hhit⟩ := hz
  obtain ⟨f, hf, hfp⟩ := hc
  rw [he] at hf
  cases hf
  rcases h.entry he with hold | ⟨-, rfl, hnone⟩
  · exact honly z ⟨e, hold, hfp⟩ ⟨e, hold, hhit⟩
  · have hpp : p' = p := (Option.some.inj hfp).symm
    exact absurd (hsame hhit hpp) (hnone y (hpp ▸ hy))

/-- Two children are never both hit when there were no two before, and the step would have found
one. -/
theorem atMostOne (h : Ensured O p hit label x O') {p' : Nat} {hit' : α → Prop}
    (hone : O.AtMostOne p' hit') (hsame : hit' label → p' = p → ∀ l, hit' l → hit l) :
    O'.AtMostOne p' hit' := by
  have hold : ∀ {y}, O'.Child p' y → O'.Has hit' y →
      (O.Child p' y ∧ O.Has hit' y) ∨ (y = x ∧ hit' label ∧ p' = p ∧ ∀ c, O.Child p c → ¬ O.Has hit c) := by
    rintro y ⟨e, he, hparent⟩ ⟨f, hf, hhit⟩
    rw [he] at hf
    cases hf
    rcases h.entry he with hold | ⟨rfl, rfl, hnone⟩
    · exact .inl ⟨⟨e, hold, hparent⟩, e, hold, hhit⟩
    · exact .inr ⟨rfl, hhit, (Option.some.inj hparent).symm, hnone⟩
  -- An old child that is hit is one that the step would have found.
  have hclash : ∀ {y}, O.Child p' y → O.Has hit' y → hit' label → p' = p →
      ¬ ∀ c, O.Child p c → ¬ O.Has hit c := by
    rintro y hy ⟨e, he, hhit⟩ hlabel rfl hnone
    exact hnone y hy ⟨e, he, hsame hlabel rfl _ hhit⟩
  intro y z hy hyhit hz hzhit
  rcases hold hy hyhit with ⟨hy, hyhit⟩ | ⟨rfl, hlabel, hp, hnone⟩
  · rcases hold hz hzhit with ⟨hz, hzhit⟩ | ⟨rfl, hlabel, hp, hnone⟩
    · exact hone y z hy hyhit hz hzhit
    · exact absurd hnone (hclash hy hyhit hlabel hp)
  · rcases hold hz hzhit with ⟨hz, hzhit⟩ | ⟨rfl, -⟩
    · exact absurd hnone (hclash hz hzhit hlabel hp)
    · rfl

end Ensured

end Outline

end Muxly.Tree
