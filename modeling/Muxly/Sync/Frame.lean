/-
# Muxly.Sync.Frame -- what the steps of a program may change

`Each G p`: every data step of `p`, from whatever state it is taken, stays inside `G`.
`Bounds rely G A p B` says so of code that goes by what it has seen: started where `A` holds, with
other threads whose steps are in `rely`, every data step of `p` stays inside `G`, and where `p` ends
`B` holds of its result. The mutexes play no part, so what is shown holds however the threads
interleave (`Confines.step`).
-/
import Muxly.Sync.Zoom

namespace Muxly.Sync

open Muxly.Control Program

variable {μ ν σ τ ℓ k ε α β : Type}

/-- Every data step stays inside `G`. -/
def Program.Each (G : σ → σ → Prop) : Program μ σ ℓ ε α → Prop
  | .ret _ => True
  | .lock _ rest => rest.Each G
  | .unlock _ rest => rest.Each G
  | .step update _ rest => ∀ s, G s (update s) ∧ (rest s).Each G

section Each

variable {G : σ → σ → Prop} {p : Program μ σ ℓ ε α}

theorem each_ret (r : Except ε α) : (.ret r : Program μ σ ℓ ε α).Each G := trivial

theorem each_acquire (m : μ) : (acquire m : Program μ σ ℓ ε Unit).Each G := trivial

theorem each_release (m : μ) : (release m : Program μ σ ℓ ε Unit).Each G := trivial

theorem each_actTag {f : σ → Except ε α × σ} (h : ∀ s, G s (f s).2) (tag : σ → ℓ → ℓ) :
    (actTag f tag : Program μ σ ℓ ε α).Each G := fun s => ⟨h s, trivial⟩

theorem each_act {f : σ → Except ε α × σ} (h : ∀ s, G s (f s).2) :
    (act f : Program μ σ ℓ ε α).Each G := each_actTag h _

theorem each_read (hG : ∀ s, G s s) (f : σ → Except ε α) :
    (Program.read f : Program μ σ ℓ ε α).Each G := each_act hG

theorem each_mark (hG : ∀ s, G s s) (tag : σ → ℓ → ℓ) :
    (mark tag : Program μ σ ℓ ε Unit).Each G := each_actTag hG tag

theorem Program.Each.mono {G' : σ → σ → Prop} (h : p.Each G) (hG : ∀ s s', G s s' → G' s s') :
    p.Each G' := by
  induction p with
  | ret r => trivial
  | lock m rest ih => exact ih h
  | unlock m rest ih => exact ih h
  | step update tag rest ih => exact fun s => ⟨hG s _ (h s).1, ih s (h s).2⟩

theorem Program.Each.bindResult (h : p.Each G) {k : Except ε α → Program μ σ ℓ ε β}
    (hk : ∀ r, (k r).Each G) : (Program.bindResult p k).Each G := by
  induction p with
  | ret r => exact hk r
  | lock m rest ih => exact ih h
  | unlock m rest ih => exact ih h
  | step update tag rest ih => exact fun s => ⟨(h s).1, ih s (h s).2⟩

theorem Program.Each.bind (h : p.Each G) {k : α → Program μ σ ℓ ε β} (hk : ∀ a, (k a).Each G) :
    (p >>= k).Each G := by
  refine h.bindResult fun r => ?_
  cases r with
  | ok a => exact hk a
  | error e => exact each_ret _

theorem Program.Each.ensure (h : p.Each G) {cleanup : Program μ σ ℓ ε Unit}
    (hcleanup : cleanup.Each G) : (Program.ensure p cleanup).Each G :=
  h.bindResult fun _ => hcleanup.bindResult fun _ => each_ret _

theorem Program.Each.onError (h : p.Each G) {cleanup : Program μ σ ℓ ε Unit}
    (hcleanup : cleanup.Each G) : (Program.onError p cleanup).Each G := by
  refine h.bindResult fun r => ?_
  cases r with
  | ok a => exact each_ret _
  | error e => exact hcleanup.bindResult fun _ => each_ret _

theorem Program.Each.withMutex (h : p.Each G) (m : μ) : (Program.withMutex m p).Each G :=
  h.ensure (each_release m)

theorem Program.Each.forEach {xs : List β} {body : β → Program μ σ ℓ ε Unit}
    (h : ∀ x ∈ xs, (body x).Each G) : (Program.forEach xs body).Each G := by
  induction xs with
  | nil => exact each_ret _
  | cons x rest ih =>
      exact (h x (List.mem_cons_self ..)).bind fun _ =>
        ih fun y hy => h y (List.mem_cons_of_mem _ hy)

theorem Program.Each.tryCatch (h : p.Each G) {handler : ε → Program μ σ ℓ ε α}
    (hk : ∀ e, (handler e).Each G) : (tryCatch p handler : Program μ σ ℓ ε α).Each G := by
  refine h.bindResult fun r => ?_
  cases r with
  | ok a => exact each_ret _
  | error e => exact hk e

/-- On a component, the rest of the state is replaced by nothing else. -/
theorem Program.Each.zoom (h : p.Each G) (part : Part τ σ) (rename : μ → ν) :
    (p.zoom part rename : Program ν τ k ε α).Each
      fun s s' => ∃ a, s' = part.put a s ∧ G (part.get s) a := by
  induction p with
  | ret r => trivial
  | lock m rest ih => exact ih h
  | unlock m rest ih => exact ih h
  | step update tag rest ih =>
      exact fun s => ⟨⟨_, rfl, (h (part.get s)).1⟩, ih (part.get s) (h (part.get s)).2⟩

end Each

/-! ## Code that goes by what it has seen -/

/-- No step in `rely` falsifies `A`. -/
def Lasts (rely : σ → σ → Prop) (A : σ → Prop) : Prop := ∀ s s', A s → rely s s' → A s'

/-- Started where `A` holds, every data step stays inside `G`, and at the end `B` holds. -/
def Program.Bounds (rely G : σ → σ → Prop) :
    Program μ σ ℓ ε α → (σ → Prop) → (Except ε α → σ → Prop) → Prop
  | .ret r, A, B => ∀ s, A s → B r s
  | .lock _ rest, A, B => rest.Bounds rely G A B
  | .unlock _ rest, A, B => rest.Bounds rely G A B
  | .step update _ rest, A, B => ∀ s, A s → G s (update s) ∧
      ∃ A', Lasts rely A' ∧ A' (update s) ∧ (rest s).Bounds rely G A' B

section Bounds

variable {rely G : σ → σ → Prop} {p : Program μ σ ℓ ε α} {A A' : σ → Prop}
  {B B' : Except ε α → σ → Prop}

theorem Program.Bounds.mono (h : p.Bounds rely G A B) (hA : ∀ s, A' s → A s)
    (hB : ∀ r s, B r s → B' r s) : p.Bounds rely G A' B' := by
  induction p generalizing A A' with
  | ret r => exact fun s hs => hB r s (h s (hA s hs))
  | lock m rest ih => exact ih h hA
  | unlock m rest ih => exact ih h hA
  | step update tag rest ih =>
      intro s hs
      obtain ⟨hG, C, hC, hs', hrest⟩ := h s (hA s hs)
      exact ⟨hG, C, hC, hs', ih s hrest fun _ h => h⟩

theorem bounds_ret {r : Except ε α} (h : ∀ s, A s → B r s) :
    (.ret r : Program μ σ ℓ ε α).Bounds rely G A B := h

theorem bounds_actTag {f : σ → Except ε α × σ} (hB : ∀ r, Lasts rely (B r))
    (h : ∀ s, A s → G s (f s).2 ∧ B (f s).1 (f s).2) (tag : σ → ℓ → ℓ) :
    (actTag f tag : Program μ σ ℓ ε α).Bounds rely G A B :=
  fun s hs => ⟨(h s hs).1, B (f s).1, hB _, (h s hs).2, fun _ h => h⟩

theorem bounds_act {f : σ → Except ε α × σ} (hB : ∀ r, Lasts rely (B r))
    (h : ∀ s, A s → G s (f s).2 ∧ B (f s).1 (f s).2) :
    (act f : Program μ σ ℓ ε α).Bounds rely G A B := bounds_actTag hB h _

theorem bounds_read {f : σ → Except ε α} (hG : ∀ s, G s s) (hB : ∀ r, Lasts rely (B r))
    (h : ∀ s, A s → B (f s) s) : (Program.read f : Program μ σ ℓ ε α).Bounds rely G A B :=
  bounds_act hB fun s hs => ⟨hG s, h s hs⟩

theorem Program.Bounds.bindResult (h : p.Bounds rely G A B) {k : Except ε α → Program μ σ ℓ ε β}
    {C : Except ε β → σ → Prop} (hk : ∀ r, (k r).Bounds rely G (B r) C) :
    (Program.bindResult p k).Bounds rely G A C := by
  induction p generalizing A with
  | ret r => exact (hk r).mono h fun _ _ h => h
  | lock m rest ih => exact ih h
  | unlock m rest ih => exact ih h
  | step update tag rest ih =>
      intro s hs
      obtain ⟨hG, A', hA', hs', hrest⟩ := h s hs
      exact ⟨hG, A', hA', hs', ih s hrest⟩

theorem Program.Bounds.bind (h : p.Bounds rely G A B) {k : α → Program μ σ ℓ ε β}
    {C : Except ε β → σ → Prop} (hk : ∀ a, (k a).Bounds rely G (B (.ok a)) C)
    (herror : ∀ e s, B (.error e) s → C (.error e) s) : (p >>= k).Bounds rely G A C := by
  refine h.bindResult fun r => ?_
  cases r with
  | ok a => exact hk a
  | error e => exact bounds_ret (herror e)

/-- Steps that stay inside `G` also where `A` is asserted, and keep `A`. -/
theorem Program.Each.bounds {G' : σ → σ → Prop} (h : p.Each G') (hA : Lasts rely A)
    (hG : ∀ s s', A s → G' s s' → G s s' ∧ A s') : p.Bounds rely G A fun _ => A := by
  induction p with
  | ret r => exact fun _ h => h
  | lock m rest ih => exact ih h
  | unlock m rest ih => exact ih h
  | step update tag rest ih =>
      intro s hs
      obtain ⟨hstep, hs'⟩ := hG s _ hs (h s).1
      exact ⟨hstep, A, hA, hs', ih s (h s).2⟩

/-- What the whole program does when its mutexes are left out. -/
theorem Program.Bounds.unlocked (h : p.Bounds rely G A B) (hG : Action.Progress G) {s : σ}
    (hs : A s) : G s (p.unlocked s).2 ∧ B (p.unlocked s).1 (p.unlocked s).2 := by
  induction p generalizing A s with
  | ret r => exact ⟨hG.refl s, h s hs⟩
  | lock m rest ih => exact ih h hs
  | unlock m rest ih => exact ih h hs
  | step update tag rest ih =>
      obtain ⟨hstep, A', -, hs', hrest⟩ := h s hs
      obtain ⟨hlater, hB⟩ := ih s hrest hs'
      exact ⟨hG.trans hstep hlater, hB⟩

/-- So does code each of whose steps stays inside `G`. -/
theorem Program.Each.unlocked (h : p.Each G) (hG : Action.Progress G) (s : σ) :
    G s (p.unlocked s).2 := by
  have hbounds : p.Bounds (fun _ _ => True) G (fun _ => True) fun _ _ => True :=
    h.bounds (fun _ _ _ _ => trivial) fun _ _ _ hstep => ⟨hstep, trivial⟩
  exact (hbounds.unlocked hG trivial).1

end Bounds

/-! ## Threads side by side -/

section Threads

variable {rely : σ → σ → Prop} {G : Nat → σ → σ → Prop} {B : Nat → Except ε α → σ → Prop}
  {start c c' : Config μ σ ℓ ε α}

/-- Every thread of a configuration stays inside its own bounds. -/
def Confines (rely : σ → σ → Prop) (G : Nat → σ → σ → Prop) (B : Nat → Except ε α → σ → Prop)
    (c : Config μ σ ℓ ε α) : Prop :=
  ∀ t, ∃ A, Lasts rely A ∧ A c.view.shared ∧ (c.thread t).Bounds rely (G t) A (B t)

/-- What a thread that has ended returned. -/
theorem Confines.ended (h : Confines rely G B c) {t : Nat} {r : Except ε α}
    (ht : c.thread t = .ret r) : B t r c.view.shared := by
  obtain ⟨A, -, hA, hbounds⟩ := h t
  rw [ht] at hbounds
  exact hbounds _ hA

variable [DecidableEq μ]

/-- A step of one thread: inside its bounds, and the rest of it stays there too. -/
theorem Confines.next (h : Confines rely G B c) (hrely : ∀ t s s', G t s s' → rely s s') {t : Nat}
    (hstep : c.next t = some c') : Confines rely G B c' := by
  -- A thread that does not move keeps what it asserts, whatever step in `rely` is taken.
  have hother : ∀ u rest (view : View σ ℓ), u ≠ t →
      (view.shared = c.view.shared ∨ rely c.view.shared view.shared) →
      ∃ A, Lasts rely A ∧ A view.shared ∧
        (Function.update c.thread t rest u).Bounds rely (G u) A (B u) := by
    intro u rest view hut hview
    obtain ⟨A, hA, hs, hbounds⟩ := h u
    refine ⟨A, hA, ?_, by rw [Function.update_of_ne hut]; exact hbounds⟩
    rcases hview with hsame | hmoved
    · rw [hsame]
      exact hs
    · exact hA _ _ hs hmoved
  obtain ⟨A, hA, hs, hbounds⟩ := h t
  unfold Config.next at hstep
  split at hstep
  · cases hstep
  · rename_i m rest hthread
    split at hstep
    · cases hstep
      intro u
      by_cases hut : u = t
      · subst hut
        rw [hthread] at hbounds
        have hrest : rest.Bounds rely (G u) A (B u) := hbounds
        exact ⟨A, hA, hs, by simpa using hrest⟩
      · exact hother u rest c.view hut (.inl rfl)
    · cases hstep
  · rename_i m rest hthread
    split at hstep
    · cases hstep
      intro u
      by_cases hut : u = t
      · subst hut
        rw [hthread] at hbounds
        have hrest : rest.Bounds rely (G u) A (B u) := hbounds
        exact ⟨A, hA, hs, by simpa using hrest⟩
      · exact hother u rest c.view hut (.inl rfl)
    · cases hstep
  · rename_i update tag rest hthread
    cases hstep
    rw [hthread] at hbounds
    obtain ⟨hG, A', hA', hs', hrest⟩ := hbounds _ hs
    intro u
    by_cases hut : u = t
    · subst hut
      exact ⟨A', hA', hs', by simpa using hrest⟩
    · exact hother u (rest c.view.shared) _ hut (.inr (hrely t _ _ hG))

/-- A step of one thread leaves the shared state alone or stays inside the bounds of the thread. -/
theorem Confines.step (h : Confines rely G B c) {t : Nat} (hstep : c.next t = some c') :
    c'.view.shared = c.view.shared ∨ G t c.view.shared c'.view.shared := by
  obtain ⟨A, hA, hs, hbounds⟩ := h t
  unfold Config.next at hstep
  split at hstep
  · cases hstep
  · split at hstep
    · cases hstep
      exact .inl rfl
    · cases hstep
  · split at hstep
    · cases hstep
      exact .inl rfl
    · cases hstep
  · rename_i update tag rest hthread
    cases hstep
    rw [hthread] at hbounds
    exact .inr (hbounds _ hs).1

/-- Every run keeps every thread inside its bounds. -/
theorem Confines.reaches {cond : Nat → View σ ℓ → View σ ℓ → Prop}
    (h : Confines rely G B start) (hrely : ∀ t s s', G t s s' → rely s s')
    (hc : Config.Reaches cond start c) : Confines rely G B c := by
  induction hc with
  | refl => exact h
  | step t _ hstep _ ih => exact ih.next hrely hstep

end Threads

end Muxly.Sync
