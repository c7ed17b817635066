/-
# Muxly.Sync.Alone -- what a lock program does when no other thread runs

`Alone held p f`: run from the mutexes `held`, the program `p` never waits for itself, gives back
what it takes, and acts on the shared state as `f` does. Statements about operations that run one
after another are proved about `f`; the rules below follow the constructors of a program.
-/
import Mathlib.Init
import Muxly.Control.Action
import Muxly.Sync.Program

namespace Muxly.Sync

open Muxly.Control Program

variable {μ σ ℓ ε α β : Type} [DecidableEq μ]

/-- Run from `held`, `p` stops with what `f` returns and leaves, holding `held` again. -/
def Alone (held : List μ) (p : Program μ σ ℓ ε α) (f : Action σ ε α) : Prop :=
  ∀ s, solo p held s = (.done (f s).1, held, (f s).2)

/-- The state that a program leaves when it runs alone and holds nothing before. -/
def Program.leaves (p : Program μ σ ℓ ε α) (s : σ) : σ := (solo p [] s).2.2

theorem Alone.leaves {p : Program μ σ ℓ ε α} {f : Action σ ε α} (h : Alone [] p f) (s : σ) :
    p.leaves s = (f s).2 := by
  rw [Program.leaves, h s]

variable {held : List μ} {p : Program μ σ ℓ ε α} {f : Action σ ε α}

theorem alone_ret (r : Except ε α) : Alone held (.ret r : Program μ σ ℓ ε α) (Action.lift r) :=
  fun _ => rfl

theorem alone_pure (a : α) : Alone held (pure a : Program μ σ ℓ ε α) (pure a) := fun _ => rfl

theorem alone_throw (e : ε) : Alone held (throw e : Program μ σ ℓ ε α) (throw e) := fun _ => rfl

theorem alone_actTag (f : Action σ ε α) (tag : σ → ℓ → ℓ) : Alone held (actTag f tag) f :=
  fun _ => rfl

theorem alone_act (f : Action σ ε α) : Alone held (act f : Program μ σ ℓ ε α) f := fun _ => rfl

theorem alone_read (f : σ → Except ε α) :
    Alone held (read f : Program μ σ ℓ ε α) (Action.view f) := fun _ => rfl

theorem alone_mark (tag : σ → ℓ → ℓ) :
    Alone held (mark tag : Program μ σ ℓ ε Unit) (pure ()) := fun _ => rfl

theorem Alone.bind {k : α → Program μ σ ℓ ε β} {g : α → Action σ ε β} (hp : Alone held p f)
    (hk : ∀ a, Alone held (k a) (g a)) : Alone held (p >>= k) (f >>= g) := by
  intro s
  rw [bind_eq, solo_bindResult, hp s, Action.bind_apply]
  rcases f s with ⟨_ | a, s'⟩
  · rfl
  · exact hk a s'

/-- What cleans up takes nothing, gives nothing back, and does not fail. -/
theorem Alone.ensure {cleanup : Program μ σ ℓ ε Unit} {mid : List μ} (hp : Alone mid p f)
    (hclean : ∀ s, solo cleanup mid s = (.done (.ok ()), held, s)) :
    ∀ s, solo (Program.ensure p cleanup) mid s = (.done (f s).1, held, (f s).2) := by
  intro s
  rw [Program.ensure, solo_bindResult, hp s]
  show solo (bindResult cleanup fun _ => .ret (f s).1) mid (f s).2 = _
  rw [solo_bindResult, hclean]
  rfl

theorem solo_release (m : μ) (s : σ) :
    solo (release m : Program μ σ ℓ ε Unit) held s = (.done (.ok ()), held.erase m, s) := rfl

/-- A look that gives `m` back when it fails. -/
theorem solo_onError_read {m : μ} (g : σ → Except ε α) (s : σ) :
    solo (onError (read g) (release m) : Program μ σ ℓ ε α) (m :: held) s
      = match g s with
        | .ok a => (.done (.ok a), m :: held, s)
        | .error e => (.done (.error e), held, s) := by
  rw [onError, solo_bindResult]
  show soloNext _ (.done (g s), m :: held, s) = _
  cases g s with
  | ok a => rfl
  | error e =>
      show solo (bindResult (release m) _) (m :: held) s = _
      rw [solo_bindResult, solo_release, List.erase_cons_head]
      rfl

/-- A mutex that is not held may be held for the body. -/
theorem Alone.withMutex {m : μ} (hm : m ∉ held) (hp : Alone (m :: held) p f) :
    Alone held (Program.withMutex m p) f := by
  intro s
  show solo (.lock m (Program.ensure p (release m))) held s = _
  rw [solo, if_neg hm]
  refine hp.ensure (fun s => ?_) s
  rw [solo_release, List.erase_cons_head]

theorem Alone.forEach {xs : List β} {body : β → Program μ σ ℓ ε Unit} {g : β → Action σ ε PUnit}
    (hbody : ∀ x ∈ xs, Alone held (body x) (g x)) :
    Alone held (Program.forEach xs body) (xs.forM g) := by
  induction xs with
  | nil => exact fun _ => rfl
  | cons x rest ih =>
      exact (hbody x (List.mem_cons_self ..)).bind fun _ =>
        ih fun y hy => hbody y (List.mem_cons_of_mem _ hy)

/-- A value that is not used does not change what is left. -/
theorem Alone.leaves_ignore {p : Program μ σ ℓ ε α} {f : Action σ ε α} (h : Alone [] p f) (s : σ) :
    (do let _ ← p : Program μ σ ℓ ε Unit).leaves s = (f s).2 := by
  rw [(h.bind fun _ => alone_pure ()).leaves, Action.bind_apply]
  rcases f s with ⟨_ | _, _⟩
  · rfl
  · rfl

end Muxly.Sync
