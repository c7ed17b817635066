/-
# Muxly.Sync.Solo -- programs that end when they run alone

`Executes held A p B`: run from the mutexes `held`, the program stops with a result and holds `held`
again. `Program.unlocked` is what a program does to the state when its mutexes are left out, which
is what it does whenever it stops. A program that keeps a rely/guarantee discipline whose order of
mutexes is strict never waits for itself (`Discipline.wp_solo`).
-/
import Mathlib.Data.List.Perm.Basic
import Muxly.Sync.Alone
import Muxly.Sync.Discipline

namespace Muxly.Sync

open Muxly.Control Program

variable {μ σ ℓ ε α β : Type}

/-! ## Without the mutexes -/

/-- What a program does to the state, its mutexes left out. -/
def Program.unlocked : Program μ σ ℓ ε α → Action σ ε α
  | .ret r, s => (r, s)
  | .lock _ rest, s => rest.unlocked s
  | .unlock _ rest, s => rest.unlocked s
  | .step update _ rest, s => (rest s).unlocked (update s)

theorem unlocked_bindResult (p : Program μ σ ℓ ε α) (k : Except ε α → Program μ σ ℓ ε β) (s : σ) :
    (bindResult p k).unlocked s = (k (p.unlocked s).1).unlocked (p.unlocked s).2 := by
  induction p generalizing s with
  | ret r => rfl
  | lock m rest ih => exact ih s
  | unlock m rest ih => exact ih s
  | step update tag rest ih => exact ih s (update s)

theorem unlocked_bind (p : Program μ σ ℓ ε α) (k : α → Program μ σ ℓ ε β) :
    (p >>= k).unlocked = p.unlocked >>= fun a => (k a).unlocked := by
  funext s
  show (bindResult p (onOk k)).unlocked s = _
  rw [unlocked_bindResult, Action.bind_apply]
  rcases p.unlocked s with ⟨_ | a, s'⟩
  · rfl
  · rfl

theorem unlocked_ensure (p : Program μ σ ℓ ε α) (cleanup : Program μ σ ℓ ε Unit) (s : σ) :
    (ensure p cleanup).unlocked s
      = ((p.unlocked s).1, (cleanup.unlocked (p.unlocked s).2).2) := by
  rw [ensure, unlocked_bindResult, unlocked_bindResult]
  rfl

variable [DecidableEq μ]

/-- A program that stops has done what it does without its mutexes. -/
theorem unlocked_of_solo {p : Program μ σ ℓ ε α} {held held' : List μ} {s s' : σ}
    {r : Except ε α} (h : solo p held s = (.done r, held', s')) : p.unlocked s = (r, s') := by
  induction p generalizing held s with
  | ret r₀ =>
      cases h
      rfl
  | lock m rest ih =>
      rw [solo] at h
      split at h
      · cases h
      · exact ih h
  | unlock m rest ih => exact ih h
  | step update tag rest ih => exact ih s h

theorem solo_read (f : σ → Except ε α) (held : List μ) (s : σ) :
    solo (Program.read f : Program μ σ ℓ ε α) held s = (.done (f s), held, s) := rfl

theorem Alone.unlocked {held : List μ} {p : Program μ σ ℓ ε α} {f : Action σ ε α}
    (h : Alone held p f) : p.unlocked = f :=
  funext fun s => unlocked_of_solo (h s)

/-! ## Programs that end -/

/-- Run from `held` where `A` holds, `p` stops, holding `held` again, and then `B` holds. -/
def Executes (held : List μ) (A : σ → Prop) (p : Program μ σ ℓ ε α) (B : Except ε α → σ → Prop) :
    Prop := ∀ s, A s → ∃ r s', solo p held s = (.done r, held, s') ∧ B r s'

section Rules

variable {held : List μ} {p : Program μ σ ℓ ε α} {A : σ → Prop} {B : Except ε α → σ → Prop}

theorem Alone.executes {f : Action σ ε α} (h : Alone held p f) (hB : ∀ s, A s → B (f s).1 (f s).2) :
    Executes held A p B := fun s hs => ⟨_, _, h s, hB s hs⟩

theorem Executes.mono {A' : σ → Prop} {B' : Except ε α → σ → Prop} (h : Executes held A p B)
    (hA : ∀ s, A' s → A s) (hB : ∀ r s, B r s → B' r s) : Executes held A' p B' := by
  intro s hs
  obtain ⟨r, s', hsolo, hr⟩ := h s (hA s hs)
  exact ⟨r, s', hsolo, hB r s' hr⟩

theorem executes_ret {r : Except ε α} (h : ∀ s, A s → B r s) :
    Executes held A (.ret r : Program μ σ ℓ ε α) B := (alone_ret r).executes h

theorem executes_actTag {f : σ → Except ε α × σ} (h : ∀ s, A s → B (f s).1 (f s).2)
    (tag : σ → ℓ → ℓ) : Executes held A (actTag f tag) B := (alone_actTag f tag).executes h

theorem executes_act {f : σ → Except ε α × σ} (h : ∀ s, A s → B (f s).1 (f s).2) :
    Executes held A (act f : Program μ σ ℓ ε α) B := executes_actTag h _

theorem executes_read {f : σ → Except ε α} (h : ∀ s, A s → B (f s) s) :
    Executes held A (Program.read f : Program μ σ ℓ ε α) B := executes_act h

theorem Executes.bindResult (h : Executes held A p B) {k : Except ε α → Program μ σ ℓ ε β}
    {C : Except ε β → σ → Prop} (hk : ∀ r, Executes held (B r) (k r) C) :
    Executes held A (Program.bindResult p k) C := by
  intro s hs
  obtain ⟨r, s', hp, hB⟩ := h s hs
  obtain ⟨r', s'', hr, hC⟩ := hk r s' hB
  refine ⟨r', s'', ?_, hC⟩
  rw [solo_bindResult, hp]
  exact hr

theorem Executes.bind (h : Executes held A p B) {k : α → Program μ σ ℓ ε β}
    {C : Except ε β → σ → Prop} (hk : ∀ a, Executes held (B (.ok a)) (k a) C)
    (herror : ∀ e s, B (.error e) s → C (.error e) s) : Executes held A (p >>= k) C := by
  show Executes held A (Program.bindResult p (onOk k)) C
  refine h.bindResult fun r => ?_
  cases r with
  | ok a => exact hk a
  | error e => exact executes_ret (herror e)

theorem Executes.forEach {xs : List β} {body : β → Program μ σ ℓ ε Unit}
    (h : ∀ x ∈ xs, Executes held A (body x) fun _ => A) :
    Executes held A (Program.forEach xs body) fun _ => A := by
  induction xs with
  | nil => exact executes_ret fun _ hs => hs
  | cons x rest ih =>
      refine (h x (List.mem_cons_self ..)).bind (fun _ => ?_) fun _ _ hs => hs
      exact ih fun y hy => h y (List.mem_cons_of_mem _ hy)

/-- What `p` leaves is what it leaves without its mutexes. -/
theorem Executes.unlocked (h : Executes held A p B) {s : σ} (hs : A s) :
    solo p held s = (.done (p.unlocked s).1, held, (p.unlocked s).2) ∧
      B (p.unlocked s).1 (p.unlocked s).2 := by
  obtain ⟨r, s', hsolo, hB⟩ := h s hs
  rw [unlocked_of_solo hsolo]
  exact ⟨hsolo, hB⟩

end Rules

/-! ## Programs that keep a discipline -/

namespace Discipline

variable {D : Discipline μ σ ℓ} {t : Nat}

/-- A thread that nobody disturbs and that never asks for what it holds ends where its proof ends. -/
theorem wp_solo (hcond : ∀ v v', D.cond t v v') (hlock : ∀ H m, D.lockOk H m → m ∉ H)
    (p : Program μ σ ℓ ε α) {Q : Except ε α → Set μ → Assertion σ ℓ → Prop} {H : Set μ}
    {A : Assertion σ ℓ} (h : D.wp t p Q H A) {v : View σ ℓ} (hinv : D.inv v) (hA : A v)
    (hok : D.ok t H v) (hothers : ∀ u, u ≠ t → D.ok u ∅ v) {held : List μ} (hnodup : held.Nodup)
    (hheld : ∀ m, m ∈ held ↔ m ∈ H) :
    ∃ r held' v' H' B, solo p held v.shared = (.done r, held', v'.shared) ∧ Q r H' B ∧
      D.inv v' ∧ B v' ∧ ∀ m, m ∈ held' ↔ m ∈ H' := by
  induction p generalizing H A v held with
  | ret r => exact ⟨r, held, v, H, A, rfl, h, hinv, hA, hheld⟩
  | lock m rest ih =>
      have hm : m ∉ H := hlock H m (h.1 v hinv hA hok)
      obtain ⟨B, -, hpublish, hrest⟩ := h.2 hm
      obtain ⟨hB, hok'⟩ := hpublish v hinv hA hok
      have hm' : m ∉ held := fun hmem => hm ((hheld m).mp hmem)
      have hheld' : ∀ x, x ∈ m :: held ↔ x ∈ insert m H := by
        intro x
        rw [List.mem_cons, Set.mem_insert_iff, hheld]
      rw [solo, if_neg hm']
      exact ih hrest hinv hB hok' hothers (List.nodup_cons.mpr ⟨hm', hnodup⟩) hheld'
  | unlock m rest ih =>
      obtain ⟨-, B, -, hpublish, hrest⟩ := h
      obtain ⟨hB, hok'⟩ := hpublish v hinv hA hok
      have hheld' : ∀ x, x ∈ held.erase m ↔ x ∈ H \ {m} := by
        intro x
        rw [hnodup.mem_erase_iff, hheld, Set.mem_sdiff, Set.mem_singleton_iff, and_comm]
      exact ih hrest hinv hB hok' hothers (hnodup.erase m) hheld'
  | step update tag rest ih =>
      have hpeers : D.Peers t H v := fun u hu => ⟨∅, Set.disjoint_empty H, hothers u hu⟩
      obtain ⟨hperm, B, -, hB, hrest⟩ := h v hinv hA hok hpeers (hcond _ _)
      have hothers' : ∀ u, u ≠ t → D.ok u ∅ (Config.stepView v t update tag) := by
        intro u hu
        have hrely := hperm.others u hu ∅ (Set.disjoint_empty H) (hothers u hu)
        exact D.ok_stable hinv hperm.inv (hothers u hu) hrely
      exact ih v.shared hrest hperm.inv hB hperm.ok hothers' hnodup hheld

/-- What gives back all that it takes settles. -/
theorem Ensures.solo (hcond : ∀ v v', D.cond t v v') (hlock : ∀ H m, D.lockOk H m → m ∉ H)
    {p : Program μ σ ℓ ε α} {A : Assertion σ ℓ} {P : Except ε α → Assertion σ ℓ}
    (h : D.Ensures t ∅ A p P) {v : View σ ℓ} (hinv : D.inv v) (hA : A v) (hok : D.ok t ∅ v)
    (hothers : ∀ u, u ≠ t → D.ok u ∅ v) :
    ∃ r v', solo p [] v.shared = (.done r, [], v'.shared) ∧ D.inv v' ∧ P r v' := by
  obtain ⟨r, held', v', H', B, hsolo, ⟨rfl, hP⟩, hinv', hB, hheld⟩ :=
    wp_solo hcond hlock p h hinv hA hok hothers List.nodup_nil fun m =>
      ⟨fun hm => absurd hm List.not_mem_nil, fun hm => absurd hm (Set.notMem_empty m)⟩
  have hnil : held' = [] := List.eq_nil_iff_forall_not_mem.mpr fun m hm =>
    absurd ((hheld m).mp hm) (Set.notMem_empty m)
  exact ⟨r, v', hnil ▸ hsolo, hinv', hP v' hinv' hB⟩

end Discipline

end Muxly.Sync
