/-
# Muxly.Sync.Yields -- how a program ends, its mutexes left out

`Yields allowed P p Q`: from a state with `P`, the program `p` returns some `a` into a state with
`Q a`, or fails in an allowed way. The mutexes are left out, so the judgement speaks of every run
that comes to its end (`unlocked_of_solo`), and its rules follow the way programs are put together.
-/
import Muxly.Control.Outcome
import Muxly.Sync.Zoom

namespace Muxly.Sync

open Muxly.Control Program

variable {μ σ ℓ ε α β : Type}

/-- How `p` ends from a state with `P`. -/
abbrev Yields (allowed : ε → Prop) (P : σ → Prop) (p : Program μ σ ℓ ε α)
    (Q : α → σ → Prop) : Prop := Action.Ends P p.unlocked Q fun e _ => allowed e

variable {allowed : ε → Prop} {P : σ → Prop} {p : Program μ σ ℓ ε α} {Q : α → σ → Prop}

theorem yields_ret {a : α} (h : ∀ s, P s → Q a s) :
    Yields allowed P (.ret (.ok a) : Program μ σ ℓ ε α) Q := Action.ends_pure h

theorem yields_fail {e : ε} (h : allowed e) :
    Yields allowed P (.ret (.error e) : Program μ σ ℓ ε α) Q := Action.ends_throw fun _ _ => h

theorem yields_actTag {f : σ → Except ε α × σ} {tag : σ → ℓ → ℓ} (h : Action.Ends P f Q
    fun e _ => allowed e) : Yields allowed P (actTag f tag : Program μ σ ℓ ε α) Q := h

theorem yields_act {f : σ → Except ε α × σ} (h : Action.Ends P f Q fun e _ => allowed e) :
    Yields allowed P (act f : Program μ σ ℓ ε α) Q := h

theorem yields_read {f : σ → Except ε α} (hQ : ∀ s a, P s → f s = .ok a → Q a s)
    (hE : ∀ s, P s → StopsWith allowed (f s)) :
    Yields allowed P (Program.read f : Program μ σ ℓ ε α) Q :=
  Action.ends_view hQ fun s e hs h => hE s hs e h

theorem yields_acquire (m : μ) :
    Yields allowed P (acquire m : Program μ σ ℓ ε Unit) fun _ => P :=
  Action.ends_pure fun _ hs => hs

theorem yields_release (m : μ) :
    Yields allowed P (release m : Program μ σ ℓ ε Unit) fun _ => P :=
  Action.ends_pure fun _ hs => hs

/-- What follows sees the result, whatever it is. -/
theorem Yields.bindResult {k : Except ε α → Program μ σ ℓ ε β} {R : β → σ → Prop}
    (hp : Yields allowed P p Q) (hok : ∀ a, Yields allowed (Q a) (k (.ok a)) R)
    (herror : ∀ e, allowed e → Yields allowed (fun _ => True) (k (.error e)) R) :
    Yields allowed P (Program.bindResult p k) R := by
  constructor
  · intro s b s' hs h
    rw [unlocked_bindResult] at h
    rcases hfirst : p.unlocked s with ⟨e | a, t⟩
    · rw [hfirst] at h
      exact (herror e (hp.stops s e t hs hfirst)).returns t b s' trivial h
    · rw [hfirst] at h
      exact (hok a).returns t b s' (hp.returns s a t hs hfirst) h
  · intro s e s' hs h
    rw [unlocked_bindResult] at h
    rcases hfirst : p.unlocked s with ⟨e' | a, t⟩
    · rw [hfirst] at h
      exact (herror e' (hp.stops s e' t hs hfirst)).stops t e s' trivial h
    · rw [hfirst] at h
      exact (hok a).stops t e s' (hp.returns s a t hs hfirst) h

theorem Yields.bind {k : α → Program μ σ ℓ ε β} {R : β → σ → Prop} (hp : Yields allowed P p Q)
    (hk : ∀ a, Yields allowed (Q a) (k a) R) : Yields allowed P (p >>= k) R :=
  hp.bindResult hk fun _ he => yields_fail he

/-- What is cleaned up afterwards has no say in how the body ends. -/
theorem Yields.ensure {cleanup : Program μ σ ℓ ε Unit} {R : α → σ → Prop}
    (hp : Yields allowed P p Q) (hR : ∀ a s, Q a s → R a (cleanup.unlocked s).2) :
    Yields allowed P (Program.ensure p cleanup) R := by
  constructor
  · intro s a s' hs h
    rw [unlocked_ensure] at h
    obtain ⟨hresult, rfl⟩ := Prod.mk.inj h
    exact hR a _ (hp.returns s a _ hs (Prod.ext hresult rfl))
  · intro s e s' hs h
    rw [unlocked_ensure] at h
    obtain ⟨hresult, -⟩ := Prod.mk.inj h
    exact hp.stops s e _ hs (Prod.ext hresult rfl)

theorem Yields.onError {cleanup : Program μ σ ℓ ε Unit} (hp : Yields allowed P p Q) :
    Yields allowed P (Program.onError p cleanup) Q := by
  refine hp.bindResult (fun a => yields_ret fun _ hs => hs) fun e he => ?_
  constructor
  · intro s a s' _ h
    rw [unlocked_bindResult] at h
    cases h
  · intro s e' s' _ h
    rw [unlocked_bindResult] at h
    cases h
    exact he

theorem yields_forEach {xs : List β} {body : β → Program μ σ ℓ ε Unit}
    (h : ∀ x ∈ xs, Yields allowed P (body x) fun _ => P) :
    Yields allowed P (Program.forEach xs body) fun _ => P := by
  induction xs with
  | nil => exact yields_ret fun _ hs => hs
  | cons x rest ih =>
      exact (h x (List.mem_cons_self ..)).bind fun _ =>
        ih fun y hy => h y (List.mem_cons_of_mem _ hy)

/-- A program on a component of a larger state: the rest of the state stays. -/
theorem Yields.zoom {ν τ k : Type} {part : Part τ σ} {rename : μ → ν} (hp : Yields allowed P p Q)
    {t : τ} (hhas : part.Has t) (ht : P (part.get t)) :
    Yields allowed (fun t' => t' = t) (p.zoom part rename : Program ν τ k ε α)
      fun a t' => ∃ b, Q a b ∧ t' = part.put b t := by
  constructor
  · rintro t₀ a t' rfl h
    rw [unlocked_zoom p hhas] at h
    obtain ⟨hresult, rfl⟩ := Prod.mk.inj h
    exact ⟨_, hp.returns _ a _ ht (Prod.ext hresult rfl), rfl⟩
  · rintro t₀ e t' rfl h
    rw [unlocked_zoom p hhas] at h
    obtain ⟨hresult, -⟩ := Prod.mk.inj h
    exact hp.stops _ e _ ht (Prod.ext hresult rfl)

section Alone

variable [DecidableEq μ] {held : List μ} {f : Action σ ε α} {E : ε → σ → Prop}

/-- A program that does what an action does when it runs alone. -/
theorem Alone.yields (halone : Alone held p f) (h : Action.Ends P f Q E)
    (hE : ∀ e s, E e s → allowed e) : Yields allowed P p Q := by
  show Action.Ends P p.unlocked Q fun e _ => allowed e
  rw [halone.unlocked]
  exact h.mono (fun _ hs => hs) (fun _ _ h => h) hE

/-- A run that comes to its end fails in an allowed way only. -/
theorem Yields.solo (h : Yields allowed P p Q) {s s' : σ} (hs : P s) {held' : List μ} {e : ε}
    (hrun : solo p held s = (.done (.error e), held', s')) : allowed e :=
  h.stops s e s' hs (unlocked_of_solo hrun)

end Alone

end Muxly.Sync
