/-
# Muxly.Tree.Listing -- trees listed twice, every element before its children and after them

`Listed next xs pre post`: below the elements `xs` the links `next` make finite trees; `pre` lists
them with every element before what lies below it, `post` with every element after it. Nothing is
asked of the elements, so the trees of any graph that unfolds to an end are listed; where a walk with
a stack ends, its order is such a `pre`.

`stackLoop_frames` is the loop that expands an element before it lists it: it is at the end of `xs`
after two turns for each element, and has appended `post`.
-/
import Muxly.Tree.Walk

namespace Muxly.Tree

variable {α σ ε : Type} {next : α → List α} {xs ys pre pre' post post' : List α}

/-- The trees below `xs`, listed in preorder and in postorder. -/
inductive Listed (next : α → List α) : List α → List α → List α → Prop
  | nil : Listed next [] [] []
  | cons {x : α} {xs below after below' after' : List α} :
      Listed next (next x) below below' → Listed next xs after after' →
      Listed next (x :: xs) (x :: below ++ after) (below' ++ x :: after')

namespace Listed

theorem append (h : Listed next xs pre post) (h' : Listed next ys pre' post') :
    Listed next (xs ++ ys) (pre ++ pre') (post ++ post') := by
  induction h with
  | nil => exact h'
  | cons hbelow _ _ ih => simpa using cons hbelow ih

theorem of_append (h : Listed next (xs ++ ys) pre post) :
    ∃ pre₁ post₁ pre₂ post₂, Listed next xs pre₁ post₁ ∧ Listed next ys pre₂ post₂ ∧
      pre = pre₁ ++ pre₂ ∧ post = post₁ ++ post₂ := by
  induction xs generalizing pre post with
  | nil => exact ⟨[], [], pre, post, nil, h, rfl, rfl⟩
  | cons x xs ih =>
      rw [List.cons_append] at h
      cases h with
      | cons hbelow hrest =>
          obtain ⟨pre₁, post₁, pre₂, post₂, hxs, hys, rfl, rfl⟩ := ih hrest
          exact ⟨_, _, pre₂, post₂, cons hbelow hxs, hys, by simp, by simp⟩

/-- The order of a walk with a stack is a preorder listing. -/
theorem of_walk (h : Walk next xs pre) : ∃ post, Listed next xs pre post := by
  induction h with
  | nil => exact ⟨[], nil⟩
  | cons _ ih =>
      obtain ⟨post, hpost⟩ := ih
      obtain ⟨pre₁, post₁, pre₂, post₂, hbelow, hrest, rfl, rfl⟩ := hpost.of_append
      exact ⟨_, cons hbelow hrest⟩

theorem perm (h : Listed next xs pre post) : post.Perm pre := by
  induction h with
  | nil => exact .nil
  | cons _ _ ih ih' =>
      refine List.perm_middle.trans (List.Perm.cons _ ?_)
      exact ih.append ih'

/-- What is listed is what the links reach. -/
theorem mem_iff (h : Listed next xs pre post) {y : α} :
    y ∈ pre ↔ ∃ x ∈ xs, Relation.ReflTransGen (fun p c => c ∈ next p) x y := by
  induction h with
  | nil => simp
  | @cons x xs below after below' after' _ _ ih ih' =>
      rw [List.cons_append, List.mem_cons, List.mem_append, ih, ih']
      constructor
      · rintro (rfl | ⟨c, hc, hy⟩ | ⟨r, hr, hy⟩)
        · exact ⟨y, List.mem_cons_self .., .refl⟩
        · exact ⟨x, List.mem_cons_self .., .head hc hy⟩
        · exact ⟨r, List.mem_cons_of_mem _ hr, hy⟩
      · rintro ⟨r, hr, hy⟩
        rcases List.mem_cons.mp hr with rfl | hr
        · rcases Relation.ReflTransGen.cases_head hy with heq | ⟨c, hc, hy⟩
          · exact .inl heq.symm
          · exact .inr (.inl ⟨c, hc, hy⟩)
        · exact .inr (.inr ⟨r, hr, hy⟩)

/-- The tree below a listed element is listed inside both listings. -/
theorem subtree (h : Listed next xs pre post) {x : α} (hx : x ∈ pre) :
    ∃ below below', Listed next (next x) below below' ∧ (x :: below).Sublist pre ∧
      (below' ++ [x]).Sublist post := by
  induction h with
  | nil => cases hx
  | @cons y xs below after below' after' hbelow _ ih ih' =>
      rcases List.mem_append.mp hx with hx | hx
      · rcases List.mem_cons.mp hx with rfl | hx
        · refine ⟨below, below', hbelow, List.sublist_append_left _ _, ?_⟩
          exact (List.Sublist.refl below').append ((List.nil_sublist after').cons_cons x)
        · obtain ⟨b, b', hb, hpre, hpost⟩ := ih hx
          refine ⟨b, b', hb, (hpre.cons y).trans (List.sublist_append_left _ _), ?_⟩
          exact hpost.trans (List.sublist_append_left _ _)
      · obtain ⟨b, b', hb, hpre, hpost⟩ := ih' hx
        refine ⟨b, b', hb, hpre.trans (List.sublist_append_right _ _), ?_⟩
        exact (hpost.cons y).trans (List.sublist_append_right _ _)

/-- An element stands before what lies below it in the preorder listing, after it in the postorder
listing. -/
theorem around (h : Listed next xs pre post) {x y : α} (hx : x ∈ pre)
    (hy : Relation.TransGen (fun p c => c ∈ next p) x y) :
    [x, y].Sublist pre ∧ [y, x].Sublist post := by
  obtain ⟨below, below', hbelow, hpre, hpost⟩ := h.subtree hx
  have hmem : y ∈ below := hbelow.mem_iff.mpr (Relation.TransGen.head'_iff.mp hy)
  constructor
  · exact ((List.singleton_sublist.mpr hmem).cons_cons x).trans hpre
  · have hmem' : y ∈ below' := hbelow.perm.mem_iff.mpr hmem
    exact ((List.singleton_sublist.mpr hmem').append (List.Sublist.refl [x])).trans hpost

/-- The elements that are listed together stand in their order. -/
theorem sublist (h : Listed next xs pre post) : xs.Sublist pre := by
  induction h with
  | nil => exact .slnil
  | cons _ _ _ ih' => exact (ih'.trans (List.sublist_append_right _ _)).cons_cons _

/-- The children of an element stand in their order. -/
theorem next_sublist (h : Listed next xs pre post) {x : α} (hx : x ∈ pre) :
    (next x).Sublist pre := by
  obtain ⟨below, below', hbelow, hpre, -⟩ := h.subtree hx
  exact hbelow.sublist.trans ((List.sublist_cons_self x below).trans hpre)

/-- The loop that expands an element before it lists it. -/
theorem stackLoop_frames (h : Listed next xs pre post) (outOfFuel : ε)
    {visit : α × Bool → List α → Except ε (List (α × Bool) × List α)}
    (hlist : ∀ x ∈ pre, ∀ acc, visit (x, true) acc = .ok ([], acc ++ [x]))
    (hexpand : ∀ x ∈ pre, ∀ acc,
      visit (x, false) acc = .ok (((next x).map fun c => (c, false)) ++ [(x, true)], acc))
    (fuel : Nat) (stack : List (α × Bool)) (acc : List α) :
    stackLoop visit outOfFuel (2 * pre.length + fuel) ((xs.map fun x => (x, false)) ++ stack) acc
      = stackLoop visit outOfFuel fuel stack (acc ++ post) := by
  induction h generalizing fuel stack acc with
  | nil => simp
  | @cons x xs below after below' after' _ _ ih ih' =>
      have hx : x ∈ x :: below ++ after := List.mem_cons_self ..
      have hleft : ∀ y ∈ below, y ∈ x :: below ++ after := fun y hy => by simp [hy]
      have hright : ∀ y ∈ after, y ∈ x :: below ++ after := fun y hy => by simp [hy]
      have hbelow := ih (fun y hy => hlist y (hleft y hy)) (fun y hy => hexpand y (hleft y hy))
        (2 * after.length + fuel + 1) ((x, true) :: ((xs.map fun x => (x, false)) ++ stack)) acc
      have hafter := ih' (fun y hy => hlist y (hright y hy)) (fun y hy => hexpand y (hright y hy))
        fuel stack (acc ++ below' ++ [x])
      have hfuel : 2 * (x :: below ++ after).length + fuel
          = 2 * below.length + (2 * after.length + fuel + 1) + 1 := by
        simp only [List.length_cons, List.length_append]
        omega
      -- one turn expands `x`, its children go, one turn lists it
      rw [hfuel, List.map_cons, List.cons_append, stackLoop, hexpand x hx]
      show stackLoop visit outOfFuel _ (_ ++ _) acc = _
      rw [List.append_assoc, List.singleton_append, hbelow, stackLoop, hlist x hx]
      show stackLoop visit outOfFuel _ ([] ++ _) (acc ++ below' ++ [x]) = _
      rw [List.nil_append, hafter]
      simp

end Listed

end Muxly.Tree
