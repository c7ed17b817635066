/-
# Muxly.Sync.Transitions -- runs of a step function

`step m s` is the state after the move `m`, where `m` is possible in `s`. A run takes moves one after
the other, each in a state where it meets a condition. What holds at the start and is kept by every
such move holds in every state of a run; `Runs.invariant` is that induction, made once.
-/
import Mathlib.Logic.Function.Basic

namespace Muxly.Sync

variable {σ μ : Type}

/-- The states that runs from `start` reach with moves that meet `cond` where they are taken. -/
inductive Runs (step : μ → σ → Option σ) (cond : σ → μ → Prop) (start : σ) : σ → Prop
  | refl : Runs step cond start start
  | step {s s' : σ} {m : μ} :
      Runs step cond start s → cond s m → step m s = some s' → Runs step cond start s'

/-- The condition that every move meets. -/
def unrestricted : σ → μ → Prop := fun _ _ => True

instance : ∀ (s : σ) (m : μ), Decidable (unrestricted s m) := fun _ _ => .isTrue trivial

namespace Runs

variable {step : μ → σ → Option σ} {cond cond' : σ → μ → Prop} {start s s' : σ}

/-- What every move keeps holds in every state of a run. -/
theorem invariant {I : σ → Prop} (h : Runs step cond start s) (hstart : I start)
    (hstep : ∀ s m s', I s → cond s m → step m s = some s' → I s') : I s := by
  induction h with
  | refl => exact hstart
  | step _ hcond hnext ih => exact hstep _ _ _ ih hcond hnext

theorem mono (hcond : ∀ s m, cond s m → cond' s m) (h : Runs step cond start s) :
    Runs step cond' start s := by
  induction h with
  | refl => exact .refl
  | step _ hmove hnext ih => exact ih.step (hcond _ _ hmove) hnext

theorem unrestrict (h : Runs step cond start s) : Runs step unrestricted start s :=
  h.mono fun _ _ _ => trivial

theorem trans (h : Runs step cond start s) (h' : Runs step cond s s') :
    Runs step cond start s' := by
  induction h' with
  | refl => exact h
  | step _ hcond hnext ih => exact ih.step hcond hnext

end Runs

/-! ## Parties -/

/-- What a party is at after one of them has moved. -/
theorem update_eq_some {ι α : Type} [DecidableEq ι] {f : ι → Option α} {i j : ι} {x : Option α} {y : α}
    (h : Function.update f i x j = some y) : j = i ∧ x = some y ∨ j ≠ i ∧ f j = some y := by
  by_cases hj : j = i
  · subst hj
    rw [Function.update_self] at h
    exact .inl ⟨rfl, h⟩
  · rw [Function.update_of_ne hj] at h
    exact .inr ⟨hj, h⟩

/-! ## Schedules -/

/-- Take the moves of a schedule, each of which has to meet the condition. -/
def follow (step : μ → σ → Option σ) (cond : σ → μ → Prop) [∀ s m, Decidable (cond s m)] (s : σ) :
    List μ → Option σ
  | [] => some s
  | m :: schedule =>
    if cond s m then
      match step m s with
      | none => none
      | some s' => follow step cond s' schedule
    else none

variable {step : μ → σ → Option σ} {cond : σ → μ → Prop} [∀ s m, Decidable (cond s m)]
  {start s : σ}

/-- A schedule that can be followed to its end reaches the state it ends in. -/
theorem Runs.of_follow (schedule : List μ) (h : follow step cond start schedule = some s) :
    Runs step cond start s := by
  suffices hrun : ∀ s', Runs step cond start s' → follow step cond s' schedule = some s →
      Runs step cond start s from hrun start .refl h
  clear h
  induction schedule with
  | nil =>
      intro s' hs' h
      obtain rfl := Option.some.inj h
      exact hs'
  | cons m schedule ih =>
      intro s' hs' h
      rw [follow] at h
      split at h
      · rename_i hcond
        split at h
        · cases h
        · rename_i s'' hnext
          exact ih s'' (hs'.step hcond hnext) h
      · cases h

variable (step cond start)

/-- A schedule that ends in a state that passes a test. -/
theorem Runs.exists_of_follow (schedule : List μ) (test : σ → Bool)
    (h : (follow step cond start schedule).any test = true) :
    ∃ s, Runs step cond start s ∧ test s = true := by
  obtain ⟨s, hs, htest⟩ := (Option.any_eq_true ..).mp h
  exact ⟨s, Runs.of_follow schedule hs, htest⟩

/-! ## Logs -/

/-- Steps that may report an event, with the log of all events. -/
def logged {ε : Type} (step : μ → σ → Option (Option ε × σ)) (m : μ) (s : σ × List ε) :
    Option (σ × List ε) :=
  (step m s.1).map fun r => (r.2, s.2 ++ r.1.toList)

theorem logged_eq_some {ε : Type} {step : μ → σ → Option (Option ε × σ)} {m : μ}
    {s s' : σ × List ε} :
    logged step m s = some s' ↔ ∃ e, step m s.1 = some (e, s'.1) ∧ s'.2 = s.2 ++ e.toList := by
  unfold logged
  constructor
  · intro h
    obtain ⟨⟨e, t⟩, hstep, rfl⟩ := Option.map_eq_some_iff.mp h
    exact ⟨e, hstep, rfl⟩
  · rintro ⟨e, hstep, hlog⟩
    rw [hstep, Option.map_some, ← hlog]

end Muxly.Sync
