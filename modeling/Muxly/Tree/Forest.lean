/-
# Muxly.Tree.Forest -- finite forests on numbers, and loops that walk them with a stack

A `Forest` gives every number the list of its children. Children lie above their parent and below
a common bound, so every walk downwards ends; a number occurs at most once in all the child lists
together, so two walks never meet.

`preorder` and `postorder` are the recursive listings of one tree. `stackLoop` is the loop that
programs run instead: pop an element, visit it, push what it leads to. `stackLoop_preorder` and
`stackLoop_postorder` say that with enough fuel the loop is a fold over the listing.
-/
import Mathlib.Algebra.BigOperators.Group.List.Basic
import Mathlib.Algebra.BigOperators.Ring.List
import Mathlib.Algebra.Order.Ring.Nat
import Mathlib.Data.List.Nodup
import Mathlib.Data.List.Perm.Subperm
import Mathlib.Logic.Relation

namespace Muxly.Tree

/-- A forest on the numbers below `bound`. -/
structure Forest where
  children : Nat → List Nat
  bound : Nat
  above : ∀ {p c}, c ∈ children p → p < c
  below : ∀ {p c}, c ∈ children p → c < bound
  nodup : ∀ p, (children p).Nodup
  parent_unique : ∀ {p q c}, c ∈ children p → c ∈ children q → p = q

namespace Forest

variable (F : Forest)

/-- `x` lies in the tree below `r`, or is `r`. -/
def Below (r x : Nat) : Prop := Relation.ReflTransGen (fun p c => c ∈ F.children p) r x

/-- To show a property of a node, assume it of its children. -/
theorem induction {P : Nat → Prop} (step : ∀ n, (∀ c ∈ F.children n, P c) → P n) (n : Nat) :
    P n := by
  suffices h : ∀ k n, F.bound - n ≤ k → P n from h _ n (le_refl _)
  intro k
  induction k with
  | zero =>
      intro n hn
      refine step n fun c hc => ?_
      have := F.above hc
      have := F.below hc
      omega
  | succ k ih =>
      intro n hn
      refine step n fun c hc => ih c ?_
      have := F.above hc
      have := F.below hc
      omega

theorem Below.le {F : Forest} {r x : Nat} (h : F.Below r x) : r ≤ x := by
  induction h with
  | refl => exact le_refl _
  | tail _ hc ih => exact ih.trans (F.above hc).le

theorem Below.lt_bound {F : Forest} {r x : Nat} (h : F.Below r x) (hr : r < F.bound) :
    x < F.bound := by
  cases h with
  | refl => exact hr
  | tail _ hc => exact F.below hc

theorem Below.trans {F : Forest} {r x y : Nat} (h : F.Below r x) (h' : F.Below x y) :
    F.Below r y := Relation.ReflTransGen.trans h h'

theorem below_self (r : Nat) : F.Below r r := Relation.ReflTransGen.refl

theorem below_child {p c : Nat} (h : c ∈ F.children p) : F.Below p c :=
  Relation.ReflTransGen.single h

/-- The first step down a path. -/
theorem Below.head {F : Forest} {r x : Nat} (h : F.Below r x) :
    r = x ∨ ∃ c ∈ F.children r, F.Below c x := by
  rcases Relation.ReflTransGen.cases_head h with h | ⟨c, hc, hx⟩
  · exact .inl h
  · exact .inr ⟨c, hc, hx⟩

/-- Two nodes above a common one lie on one path. -/
theorem Below.comparable {F : Forest} {a b x : Nat} (ha : F.Below a x) (hb : F.Below b x) :
    F.Below a b ∨ F.Below b a := by
  induction ha generalizing b with
  | refl => exact .inr hb
  | tail hp hc ih =>
      cases hb with
      | refl => exact .inl (Relation.ReflTransGen.tail hp hc)
      | tail hq hc' =>
          rw [F.parent_unique hc hc'] at ih
          exact ih hq

/-- Two different children of one node have disjoint trees. -/
theorem siblings_disjoint {p a b x : Nat} (ha : a ∈ F.children p) (hb : b ∈ F.children p)
    (hab : a ≠ b) (hax : F.Below a x) : ¬ F.Below b x := by
  intro hbx
  -- One of the two would lie strictly below the other one, hence below their parent twice.
  have key : ∀ {a b}, a ∈ F.children p → b ∈ F.children p → a ≠ b → F.Below a b → False := by
    intro a b ha hb hab h
    cases h with
    | refl => exact hab rfl
    | tail hq hc =>
        have hpq := F.parent_unique hb hc
        subst hpq
        exact absurd (Below.le hq) (F.above ha).not_ge
  rcases hax.comparable hbx with h | h
  · exact key ha hb hab h
  · exact key hb ha hab.symm h

/-! ## Listings -/

/-- The tree below a node, every node before its children. -/
def preorder (n : Nat) : List Nat := n :: (F.children n).flatMap fun c => preorder c
termination_by F.bound - n
decreasing_by
  rename_i hc
  have := F.above hc
  have := F.below hc
  omega

/-- The tree below a node, every node after its children. -/
def postorder (n : Nat) : List Nat := ((F.children n).flatMap fun c => postorder c) ++ [n]
termination_by F.bound - n
decreasing_by
  rename_i hc
  have := F.above hc
  have := F.below hc
  omega

theorem preorder_eq (n : Nat) : F.preorder n = n :: (F.children n).flatMap F.preorder := by
  rw [preorder]

theorem postorder_eq (n : Nat) : F.postorder n = (F.children n).flatMap F.postorder ++ [n] := by
  rw [postorder]

theorem mem_preorder {n x : Nat} : x ∈ F.preorder n ↔ F.Below n x := by
  induction n using F.induction with
  | step n ih =>
      rw [preorder_eq, List.mem_cons, List.mem_flatMap]
      constructor
      · rintro (rfl | ⟨c, hc, hx⟩)
        · exact F.below_self _
        · exact (F.below_child hc).trans ((ih c hc).mp hx)
      · intro h
        rcases h.head with rfl | ⟨c, hc, hx⟩
        · exact .inl rfl
        · exact .inr ⟨c, hc, (ih c hc).mpr hx⟩

theorem nodup_preorder (n : Nat) : (F.preorder n).Nodup := by
  induction n using F.induction with
  | step n ih =>
      rw [preorder_eq, List.nodup_cons, List.nodup_flatMap]
      refine ⟨?_, ih, ?_⟩
      · rw [List.mem_flatMap]
        rintro ⟨c, hc, hx⟩
        exact absurd ((F.mem_preorder.mp hx).le) (F.above hc).not_ge
      · refine (F.nodup n).imp_of_mem fun {a b} ha hb hab => ?_
        refine List.disjoint_left.mpr fun x hxa hxb => ?_
        exact F.siblings_disjoint ha hb hab (F.mem_preorder.mp hxa) (F.mem_preorder.mp hxb)

theorem postorder_perm (n : Nat) : (F.postorder n).Perm (F.preorder n) := by
  induction n using F.induction with
  | step n ih =>
      rw [postorder_eq, preorder_eq]
      refine (List.perm_append_singleton _ _).trans (List.Perm.cons _ ?_)
      exact List.Perm.flatMap_left _ ih

theorem mem_postorder {n x : Nat} : x ∈ F.postorder n ↔ F.Below n x :=
  (F.postorder_perm n).mem_iff.trans F.mem_preorder

theorem nodup_postorder (n : Nat) : (F.postorder n).Nodup :=
  (F.postorder_perm n).nodup_iff.mpr (F.nodup_preorder n)

/-- Siblings stand in the listing of a tree in the order of their parent's child list. -/
theorem children_sublist_preorder {n p : Nat} (h : F.Below n p) :
    (F.children p).Sublist (F.preorder n) := by
  induction h using Relation.ReflTransGen.head_induction_on with
  | refl =>
      rw [preorder_eq]
      suffices hlist : ∀ cs : List Nat, cs.Sublist (cs.flatMap F.preorder) from
        (hlist (F.children p)).cons p
      intro cs
      induction cs with
      | nil => exact List.Sublist.slnil
      | cons c rest ih =>
          rw [List.flatMap_cons, preorder_eq, List.cons_append]
          exact (ih.trans (List.sublist_append_right _ _)).cons_cons c
  | head hc _ ih =>
      rw [F.preorder_eq]
      refine ih.trans (List.Sublist.cons _ ?_)
      obtain ⟨as, bs, hsplit⟩ := List.append_of_mem hc
      rw [hsplit, List.flatMap_append, List.flatMap_cons]
      exact (List.sublist_append_left _ _).trans (List.sublist_append_right _ _)

/-- Cutting the tree of `x` out of the child lists cuts it out of the listing. -/
theorem preorder_cut {F G : Forest} {r x : Nat} {keep : Nat → Bool}
    (hkeep : ∀ y, F.Below r y → (keep y = true ↔ ¬ F.Below x y))
    (hchildren : ∀ y, F.Below r y → ¬ F.Below x y →
      G.children y = (F.children y).filter (· ≠ x))
    {n : Nat} (hn : F.Below r n) (hx : ¬ F.Below x n) :
    G.preorder n = (F.preorder n).filter keep := by
  induction n using F.induction with
  | step n ih =>
      have hblock : ∀ cs : List Nat, (∀ c ∈ cs, c ∈ F.children n) →
          (cs.filter (· ≠ x)).flatMap G.preorder = (cs.flatMap F.preorder).filter keep := by
        intro cs hcs
        induction cs with
        | nil => rfl
        | cons c rest ihrest =>
            have hc := hcs c (List.mem_cons_self ..)
            have hrc : F.Below r c := hn.trans (F.below_child hc)
            have hrest := ihrest fun y hy => hcs y (List.mem_cons_of_mem _ hy)
            rw [List.flatMap_cons, List.filter_append, ← hrest]
            by_cases hcx : c = x
            · -- The tree of `x` goes as a whole.
              have hnone : (F.preorder c).filter keep = [] := by
                rw [List.filter_eq_nil_iff]
                intro y hy hky
                have hcy := F.mem_preorder.mp hy
                exact (hkeep y (hrc.trans hcy)).mp hky (hcx ▸ hcy)
              rw [hnone, List.nil_append, List.filter_cons_of_neg (by simpa using hcx)]
            · have hxc : ¬ F.Below x c := by
                intro hxc
                cases hxc with
                | refl => exact hcx rfl
                | tail hq hc' => exact hx (F.parent_unique hc hc' ▸ hq)
              rw [List.filter_cons_of_pos (by simpa using hcx), List.flatMap_cons, ih c hc hrc hxc]
      rw [G.preorder_eq, F.preorder_eq, hchildren n hn hx,
        List.filter_cons_of_pos ((hkeep n hn).mpr hx), hblock _ fun c hc => hc]

/-- A tree below a node has at most as many nodes as there are numbers up to the bound. -/
theorem length_preorder_le {n : Nat} (hn : n < F.bound) :
    (F.preorder n).length ≤ F.bound - n := by
  have hsub : F.preorder n ⊆ List.range' n (F.bound - n) := by
    intro x hx
    have hb := F.mem_preorder.mp hx
    have := hb.le
    have := hb.lt_bound hn
    rw [List.mem_range'_1]
    omega
  calc (F.preorder n).length ≤ (List.range' n (F.bound - n)).length :=
        ((F.nodup_preorder n).subperm hsub).length_le
    _ = F.bound - n := List.length_range'

/-- The same forest with every child list turned round. -/
def rev : Forest where
  children n := (F.children n).reverse
  bound := F.bound
  above h := F.above (List.mem_reverse.mp h)
  below h := F.below (List.mem_reverse.mp h)
  nodup n := List.nodup_reverse.mpr (F.nodup n)
  parent_unique h h' := F.parent_unique (List.mem_reverse.mp h) (List.mem_reverse.mp h')

theorem below_rev {r x : Nat} : F.rev.Below r x ↔ F.Below r x := by
  unfold Below rev
  simp only [List.mem_reverse]

end Forest

/-! ## Stack loops -/

variable {α σ ε : Type}

/-- Pop an element, visit it, push what the visit returns (its head is popped next), until the
stack is empty. -/
def stackLoop (visit : α → σ → Except ε (List α × σ)) (outOfFuel : ε) :
    Nat → List α → σ → Except ε σ
  | _, [], s => .ok s
  | 0, _ :: _, _ => .error outOfFuel
  | fuel + 1, x :: stack, s => do
    let (pushed, s') ← visit x s
    stackLoop visit outOfFuel fuel (pushed ++ stack) s'

/-- A loop that pushes the children of what it visits is a fold over the preorder listing. -/
theorem stackLoop_preorder (F : Forest) (outOfFuel : ε) {visit : Nat → σ → Except ε (List Nat × σ)}
    {f : σ → Nat → Except ε σ} (stack : List Nat)
    (hvisit : ∀ x ∈ stack.flatMap F.preorder, ∀ s,
      visit x s = (f s x).map fun s' => (F.children x, s'))
    {fuel : Nat} (hfuel : (stack.flatMap F.preorder).length ≤ fuel) (s : σ) :
    stackLoop visit outOfFuel fuel stack s = (stack.flatMap F.preorder).foldlM f s := by
  induction fuel generalizing stack s with
  | zero =>
      cases stack with
      | nil => rfl
      | cons x rest =>
          rw [List.flatMap_cons, F.preorder_eq] at hfuel
          simp at hfuel
  | succ fuel ih =>
      cases stack with
      | nil => rfl
      | cons x rest =>
          have hlist : (x :: rest).flatMap F.preorder
              = x :: (F.children x ++ rest).flatMap F.preorder := by
            rw [List.flatMap_cons, F.preorder_eq, List.flatMap_append, List.cons_append]
          rw [hlist] at hvisit hfuel
          rw [hlist, List.foldlM_cons, stackLoop, hvisit x (List.mem_cons_self ..)]
          cases hf : f s x with
          | error e => rfl
          | ok s' =>
              simp only [List.length_cons, Nat.add_le_add_iff_right] at hfuel
              exact ih _ (fun y hy => hvisit y (List.mem_cons_of_mem _ hy)) hfuel s'

/-- What is left to list for a stack of frames: a frame that was already expanded stands for its
own node, another one for its whole tree. -/
def frameListing (F : Forest) (frame : Nat × Bool) : List Nat :=
  if frame.2 then [frame.1] else F.postorder frame.1

/-- How often a frame makes the loop pop. -/
def frameCost (F : Forest) (frame : Nat × Bool) : Nat :=
  if frame.2 then 1 else 2 * (F.preorder frame.1).length

/-- A loop over frames that expands a node before it lists it is a fold over the postorder
listing. -/
theorem stackLoop_postorder (F : Forest) (outOfFuel : ε)
    {visit : Nat × Bool → List Nat → Except ε (List (Nat × Bool) × List Nat)}
    (stack : List (Nat × Bool))
    (hlist : ∀ x ∈ stack.flatMap (frameListing F), ∀ acc, visit (x, true) acc = .ok ([], acc ++ [x]))
    (hexpand : ∀ x ∈ stack.flatMap (frameListing F), ∀ acc,
      visit (x, false) acc = .ok (((F.children x).map fun c => (c, false)) ++ [(x, true)], acc))
    {fuel : Nat} (hfuel : (stack.map (frameCost F)).sum ≤ fuel) (acc : List Nat) :
    stackLoop visit outOfFuel fuel stack acc = .ok (acc ++ stack.flatMap (frameListing F)) := by
  induction fuel generalizing stack acc with
  | zero =>
      cases stack with
      | nil => simp [stackLoop]
      | cons frame rest =>
          have hpos : 0 < frameCost F frame := by
            unfold frameCost
            rw [F.preorder_eq]
            split <;> simp
          simp only [List.map_cons, List.sum_cons] at hfuel
          omega
  | succ fuel ih =>
      rcases stack with _ | ⟨⟨x, expanded⟩, rest⟩
      · simp [stackLoop]
      · cases expanded with
        | true =>
            have hx : x ∈ ((x, true) :: rest).flatMap (frameListing F) := by
              simp [frameListing]
            rw [stackLoop, hlist x hx]
            have hrest := ih rest
              (fun y hy => hlist y (by rw [List.flatMap_cons]; exact List.mem_append_right _ hy))
              (fun y hy => hexpand y (by rw [List.flatMap_cons]; exact List.mem_append_right _ hy))
              (by simp [frameCost] at hfuel; omega) (acc ++ [x])
            simpa [frameListing, bind, Except.bind] using hrest
        | false =>
            have hx : x ∈ ((x, false) :: rest).flatMap (frameListing F) := by
              have := F.mem_postorder.mpr (F.below_self x)
              simp [frameListing, this]
            have hsame : (((F.children x).map fun c => (c, false)) ++ [(x, true)] ++ rest).flatMap
                (frameListing F) = ((x, false) :: rest).flatMap (frameListing F) := by
              simp [frameListing, List.flatMap_map, F.postorder_eq x]
            have hcost : ((((F.children x).map fun c => (c, false)) ++ [(x, true)] ++ rest).map
                (frameCost F)).sum + 1 = (((x, false) :: rest).map (frameCost F)).sum := by
              have hsum : ((F.children x).map fun c => 2 * (F.preorder c).length).sum
                  = 2 * ((F.children x).flatMap F.preorder).length := by
                rw [List.length_flatMap, List.sum_map_mul_left]
              simp [frameCost, F.preorder_eq x, Function.comp_def, hsum]
              omega
            rw [stackLoop, hexpand x hx]
            have hrest := ih (((F.children x).map fun c => (c, false)) ++ [(x, true)] ++ rest)
              (by rw [hsame]; exact hlist) (by rw [hsame]; exact hexpand) (by omega) acc
            rw [hsame] at hrest
            exact hrest

end Muxly.Tree
