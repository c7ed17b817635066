/-
# Muxly.Tree.Walk -- the order in which a stack loop visits

`Walk next stack xs`: a loop that pushes `next x` for the element `x` that it pops visits `xs`, one
after the other, and ends. This says nothing about the shape of what is walked; a walk that ends is a
fold over its order, and a loop that succeeds has walked. Where every element is pushed by one parent
only, there is a walk.
-/
import Muxly.Tree.Forest

namespace Muxly.Tree

variable {α σ ε : Type} {next : α → List α} {stack stack' xs xs' : List α}

/-- The elements that a stack loop visits, in order. -/
inductive Walk (next : α → List α) : List α → List α → Prop
  | nil : Walk next [] []
  | cons {x : α} {stack xs : List α} :
      Walk next (next x ++ stack) xs → Walk next (x :: stack) (x :: xs)

namespace Walk

/-- A walk has one order. -/
theorem unique (h : Walk next stack xs) (h' : Walk next stack xs') : xs = xs' := by
  induction h generalizing xs' with
  | nil =>
      cases h'
      rfl
  | cons _ ih =>
      cases h' with
      | cons h' => rw [ih h']

/-- A walk from one element starts with it. -/
theorem of_singleton {x : α} (h : Walk next [x] xs) :
    ∃ rest, xs = x :: rest ∧ Walk next (next x) rest := by
  cases h with
  | cons h =>
      rw [List.append_nil] at h
      exact ⟨_, rfl, h⟩

theorem to_nil (h : Walk next stack []) : stack = [] := by
  cases h
  rfl

/-- A walk that visits one element. -/
theorem to_singleton {x : α} (h : Walk next stack [x]) : stack = [x] ∧ next x = [] := by
  cases h with
  | cons h =>
      obtain ⟨hnext, rfl⟩ := List.append_eq_nil_iff.mp h.to_nil
      exact ⟨rfl, hnext⟩

/-- What is on the stack is visited. -/
theorem subset (h : Walk next stack xs) : stack ⊆ xs := by
  induction h with
  | nil => exact fun x hx => hx
  | cons _ ih =>
      refine List.cons_subset_cons _ fun y hy => ?_
      exact ih (List.mem_append_right _ hy)

/-- What a visited element pushes is visited. -/
theorem next_subset (h : Walk next stack xs) {x : α} (hx : x ∈ xs) : next x ⊆ xs := by
  induction h with
  | nil => cases hx
  | cons hwalk ih =>
      intro y hy
      rcases List.mem_cons.mp hx with rfl | hx
      · exact List.mem_cons_of_mem _ (hwalk.subset (List.mem_append_left _ hy))
      · exact List.mem_cons_of_mem _ (ih hx hy)

/-- Only what the visited elements push matters. -/
theorem congr {next' : α → List α} (h : Walk next stack xs) (heq : ∀ x ∈ xs, next x = next' x) :
    Walk next' stack xs := by
  induction h with
  | nil => exact .nil
  | @cons x stack xs _ ih =>
      have htail := ih fun y hy => heq y (List.mem_cons_of_mem _ hy)
      rw [heq x (List.mem_cons_self ..)] at htail
      exact .cons htail

/-- Elements that push nothing are visited as they stand on the stack. -/
theorem of_leaves (h : ∀ x ∈ stack, next x = []) : Walk next stack stack := by
  induction stack with
  | nil => exact .nil
  | cons x stack ih =>
      refine .cons ?_
      rw [h x (List.mem_cons_self ..), List.nil_append]
      exact ih fun y hy => h y (List.mem_cons_of_mem _ hy)

/-- The loop is a fold over its order. -/
theorem stackLoop_eq (h : Walk next stack xs) (outOfFuel : ε)
    {visit : α → σ → Except ε (List α × σ)} {f : σ → α → Except ε σ}
    (hvisit : ∀ x ∈ xs, ∀ s, visit x s = (f s x).map fun s' => (next x, s')) {fuel : Nat}
    (hfuel : xs.length ≤ fuel) (s : σ) :
    stackLoop visit outOfFuel fuel stack s = xs.foldlM f s := by
  induction h generalizing fuel s with
  | nil =>
      unfold stackLoop
      rfl
  | @cons x stack xs _ ih =>
      cases fuel with
      | zero => simp at hfuel
      | succ fuel =>
          rw [List.foldlM_cons, stackLoop, hvisit x (List.mem_cons_self ..)]
          cases f s x with
          | error e => rfl
          | ok s' =>
              rw [List.length_cons, Nat.add_le_add_iff_right] at hfuel
              exact ih (fun y hy => hvisit y (List.mem_cons_of_mem _ hy)) hfuel s'

/-- A loop that succeeds has walked. -/
theorem of_stackLoop {outOfFuel : ε} {visit : α → σ → Except ε (List α × σ)} {f : σ → α → Except ε σ}
    (hvisit : ∀ x s pushed s', visit x s = .ok (pushed, s') → pushed = next x ∧ f s x = .ok s')
    {fuel : Nat} {s s' : σ} (h : stackLoop visit outOfFuel fuel stack s = .ok s') :
    ∃ xs, Walk next stack xs ∧ xs.foldlM f s = .ok s' := by
  induction fuel generalizing stack s with
  | zero =>
      cases stack with
      | nil =>
          unfold stackLoop at h
          exact ⟨[], .nil, h⟩
      | cons x stack => cases h
  | succ fuel ih =>
      cases stack with
      | nil =>
          unfold stackLoop at h
          exact ⟨[], .nil, h⟩
      | cons x stack =>
          rw [stackLoop] at h
          cases hx : visit x s with
          | error e =>
              rw [hx] at h
              cases h
          | ok result =>
              obtain ⟨pushed, s₁⟩ := result
              rw [hx] at h
              obtain ⟨rfl, hf⟩ := hvisit x s pushed s₁ hx
              obtain ⟨xs, hwalk, hfold⟩ := ih h
              refine ⟨x :: xs, .cons hwalk, ?_⟩
              rw [List.foldlM_cons, hf]
              exact hfold

/-! ## What a walk reaches -/

/-- What is visited was reached from the stack. -/
theorem reached (h : Walk next stack xs) {x : α} (hx : x ∈ xs) :
    ∃ r ∈ stack, Relation.ReflTransGen (fun p c => c ∈ next p) r x := by
  induction h with
  | nil => cases hx
  | @cons y stack xs _ ih =>
      rcases List.mem_cons.mp hx with rfl | hx
      · exact ⟨x, List.mem_cons_self .., .refl⟩
      · obtain ⟨r, hr, hreach⟩ := ih hx
        rcases List.mem_append.mp hr with hr | hr
        · exact ⟨y, List.mem_cons_self .., .head hr hreach⟩
        · exact ⟨r, List.mem_cons_of_mem _ hr, hreach⟩

/-- What is reached from a visited element is visited. -/
theorem mem_of_reached (h : Walk next stack xs) {r x : α} (hr : r ∈ xs)
    (hreach : Relation.ReflTransGen (fun p c => c ∈ next p) r x) : x ∈ xs := by
  induction hreach with
  | refl => exact hr
  | tail _ hlink ih => exact h.next_subset ih hlink

/-- Where each element names the one that pushes it, nothing is pushed twice, so the walk ends. -/
theorem exists_of_parent {all : List α} {parent : α → Option α}
    (hnext : ∀ x ∈ all, (next x).Nodup ∧ ∀ c ∈ next x, c ∈ all ∧ parent c = some x)
    {visited : List α} (hsub : visited ++ stack ⊆ all) (hnodup : (visited ++ stack).Nodup)
    (hparent : ∀ y ∈ visited ++ stack, ∀ p, parent y = some p → p ∈ visited) :
    ∃ xs, Walk next stack xs ∧ (visited ++ xs).Nodup ∧ xs ⊆ all := by
  -- by induction on how many elements may still be visited
  obtain ⟨room, hroom⟩ : ∃ room, all.length ≤ visited.length + room := ⟨all.length, by omega⟩
  induction room generalizing visited stack with
  | zero =>
      have hle := (hnodup.subperm hsub).length_le
      rw [List.length_append] at hle
      obtain rfl : stack = [] := List.eq_nil_of_length_eq_zero (by omega)
      exact ⟨[], .nil, hnodup, List.nil_subset _⟩
  | succ room ih =>
      match stack, hsub, hnodup, hparent with
      | [], _, hnodup, _ => exact ⟨[], .nil, hnodup, List.nil_subset _⟩
      | x :: stack, hsub, hnodup, hparent =>
          have hx : x ∈ all := hsub (List.mem_append_right _ (List.mem_cons_self ..))
          obtain ⟨hchildren, hchild⟩ := hnext x hx
          have happend : visited ++ [x] ++ stack = visited ++ x :: stack := by simp
          have hnew : visited.Nodup ∧ x ∉ visited := by
            rw [← happend, List.nodup_append, List.nodup_append] at hnodup
            exact ⟨hnodup.1.1, fun hmem => hnodup.1.2.2 x hmem x (List.mem_singleton_self x) rfl⟩
          -- a child that is already there would have been pushed by `x` before
          have hfresh : ∀ c ∈ next x, c ∉ visited ++ x :: stack := fun c hc hmem =>
            hnew.2 (hparent c hmem x (hchild c hc).2)
          have hperm : (visited ++ [x] ++ (next x ++ stack)).Perm
              (next x ++ (visited ++ x :: stack)) := by
            rw [← happend, ← List.append_assoc, ← List.append_assoc]
            exact (@List.perm_append_comm _ (visited ++ [x]) _).append_right stack
          have hwalk := @ih (next x ++ stack) (visited ++ [x]) ?_ ?_ ?_ ?_
          · obtain ⟨xs, hwalk, hxs, hall⟩ := hwalk
            refine ⟨x :: xs, .cons hwalk, by simpa using hxs, ?_⟩
            exact List.cons_subset.mpr ⟨hx, hall⟩
          · intro y hy
            rcases List.mem_append.mp (hperm.subset hy) with hy | hy
            · exact (hchild y hy).1
            · exact hsub hy
          · refine hperm.nodup_iff.mpr (List.nodup_append.mpr ⟨hchildren, hnodup, ?_⟩)
            rintro c hc _ hmem rfl
            exact hfresh c hc hmem
          · intro y hy p hp
            rcases List.mem_append.mp (hperm.subset hy) with hy | hy
            · obtain rfl := Option.some.inj ((hchild y hy).2.symm.trans hp)
              exact List.mem_append_right _ (List.mem_singleton_self _)
            · exact List.mem_append_left _ (hparent y hy p hp)
          · rw [List.length_append, List.length_singleton]
            omega

end Walk

/-- A loop in which every visit uses up some of a measure does not run out of fuel. -/
theorem stackLoop_ne_outOfFuel {P : σ → Prop} {m : σ → Nat} {outOfFuel : ε}
    {visit : α → σ → Except ε (List α × σ)} (hvisit : ∀ x s, visit x s ≠ .error outOfFuel)
    (hstep : ∀ x s pushed s', P s → visit x s = .ok (pushed, s') → P s' ∧ m s' < m s)
    {fuel : Nat} {s : σ} (hs : P s) (hfuel : m s < fuel) :
    stackLoop visit outOfFuel fuel stack s ≠ .error outOfFuel := by
  induction fuel generalizing stack s with
  | zero => omega
  | succ fuel ih =>
      cases stack with
      | nil =>
          intro h
          cases h
      | cons x stack =>
          rw [stackLoop]
          cases hx : visit x s with
          | error e =>
              intro h
              have herror : (Except.error e : Except ε σ) = .error outOfFuel := h
              obtain rfl := Except.error.inj herror
              exact hvisit x s hx
          | ok result =>
              obtain ⟨hs', hless⟩ := hstep x s result.1 result.2 hs hx
              exact ih hs' (by omega)

end Muxly.Tree
