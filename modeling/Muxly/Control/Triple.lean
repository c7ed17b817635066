/-
# Muxly.Control.Triple -- what an action establishes when it returns and when it stops

`Triple P m Q E`: from a state with `P`, the action `m` returns into a state with `Q`, or stops with
an error in a state with `E`. The rules follow the constructors of an action; the rule for a loop
has an invariant that knows which turns are done.
-/
import Mathlib.Init
import Muxly.Control.Action

namespace Muxly.Control.Action

variable {σ ε α β : Type}

/-- `m` leads from `P` to `Q`, or to `E` with an error. -/
def Triple (P : σ → Prop) (m : Action σ ε α) (Q : α → σ → Prop) (E : σ → Prop) : Prop :=
  ∀ s, P s → match m s with
    | (.ok a, s') => Q a s'
    | (.error _, s') => E s'

variable {P : σ → Prop} {m : Action σ ε α} {Q : α → σ → Prop} {E : σ → Prop}

theorem Triple.of_ok {s s' : σ} {a : α} (h : Triple P m Q E) (hs : P s)
    (hm : m s = (.ok a, s')) : Q a s' := by
  have := h s hs
  rw [hm] at this
  exact this

/-- Where both outcomes keep an invariant, so does the whole. -/
theorem Triple.keeps {I : σ → Prop} (h : Triple I m (fun _ => I) I) : Keeps I m := by
  refine keeps_of fun s hs => ?_
  have := h s hs
  rcases hm : m s with ⟨_ | a, s'⟩ <;> rw [hm] at this <;> exact this

theorem Keeps.triple {I : σ → Prop} (h : Keeps I m) : Triple I m (fun _ => I) I := by
  intro s hs
  have := (h s hs).1
  rcases hm : m s with ⟨_ | a, s'⟩ <;> rw [hm] at this <;> exact this

/-- An action that keeps an invariant also when it stops: what is left is the state it returns in. -/
theorem Keeps.triple_of {I : σ → Prop} (h : Keeps I m)
    (hQ : ∀ s a s', P s → I s → m s = (.ok a, s') → I s' → Q a s') :
    Triple (fun s => I s ∧ P s) m Q I := by
  intro s hs
  have hkept := (h s hs.1).1
  rcases hm : m s with ⟨_ | a, s'⟩ <;> rw [hm] at hkept
  · exact hkept
  · exact hQ s a s' hs.2 hs.1 hm hkept

theorem Triple.weaken {P' : σ → Prop} {Q' : α → σ → Prop} {E' : σ → Prop} (h : Triple P m Q E)
    (hP : ∀ s, P' s → P s) (hQ : ∀ a s, Q a s → Q' a s) (hE : ∀ s, E s → E' s) :
    Triple P' m Q' E' := by
  intro s hs
  have := h s (hP s hs)
  rcases hm : m s with ⟨_ | a, s'⟩ <;> rw [hm] at this
  · exact hE s' this
  · exact hQ a s' this

/-- A stronger precondition. -/
theorem Triple.pre {P' : σ → Prop} (h : Triple P m Q E) (hP : ∀ s, P' s → P s) :
    Triple P' m Q E := h.weaken hP (fun _ _ hs => hs) fun _ hs => hs

/-- A weaker postcondition for the errors. -/
theorem Triple.stops {E' : σ → Prop} (h : Triple P m Q E) (hE : ∀ s, E s → E' s) :
    Triple P m Q E' := h.weaken (fun _ hs => hs) (fun _ _ hs => hs) hE

theorem Triple.bind {R : β → σ → Prop} {k : α → Action σ ε β} (hm : Triple P m Q E)
    (hk : ∀ a, Triple (Q a) (k a) R E) : Triple P (m >>= k) R E := by
  intro s hs
  have hfirst := hm s hs
  rw [bind_apply]
  rcases h : m s with ⟨_ | a, s'⟩ <;> rw [h] at hfirst
  · exact hfirst
  · exact hk a s' hfirst

theorem triple_pure {a : α} (h : ∀ s, P s → Q a s) : Triple P (pure a : Action σ ε α) Q E := h

theorem triple_throw {e : ε} (h : ∀ s, P s → E s) : Triple P (throw e : Action σ ε α) Q E := h

theorem triple_modify {f : σ → σ} {Q : PUnit → σ → Prop} (h : ∀ s, P s → Q ⟨⟩ (f s)) :
    Triple P (modify f : Action σ ε PUnit) Q E := h

theorem triple_view {f : σ → Except ε α} (hQ : ∀ s a, P s → f s = .ok a → Q a s)
    (hE : ∀ s, P s → E s) : Triple P (view f) Q E := by
  intro s hs
  rw [view_apply]
  cases h : f s with
  | error e => exact hE s hs
  | ok a => exact hQ s a hs h

theorem triple_lift {r : Except ε α} (hQ : ∀ s a, P s → r = .ok a → Q a s)
    (hE : ∀ s, P s → E s) : Triple P (lift r) Q E := triple_view (f := fun _ => r) hQ hE

/-- The state is read. -/
theorem triple_getting {k : σ → Action σ ε α} (h : ∀ s₀, Triple (fun s => P s ∧ s = s₀) (k s₀) Q E) :
    Triple P (get >>= k) Q E := fun s hs => h s s ⟨hs, rfl⟩

/-- A loop: `I` holds of the turns that are done. -/
theorem triple_forM {f : α → Action σ ε PUnit} (I : List α → σ → Prop) (xs : List α)
    (hf : ∀ done x rest, xs = done ++ x :: rest →
      Triple (I done) (f x) (fun _ => I (done ++ [x])) E) :
    Triple (I []) (xs.forM f) (fun _ => I xs) E := by
  suffices h : ∀ rest done, xs = done ++ rest →
      Triple (I done) (rest.forM f) (fun _ => I xs) E from h xs [] rfl
  intro rest
  induction rest with
  | nil =>
      intro done hdone
      rw [hdone, List.append_nil]
      exact triple_pure fun _ hs => hs
  | cons x rest ih =>
      intro done hdone
      exact (hf done x rest hdone).bind fun _ => ih (done ++ [x]) (by rw [hdone]; simp)

end Muxly.Control.Action
