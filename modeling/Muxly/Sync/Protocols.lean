/-
# Muxly.Sync.Protocols -- a second protocol for the same scripts

Phases never influence a run, so the parties of a machine can follow another protocol beside their
own, with phases of its own. `Reaches.tracked` shows an invariant that speaks of the phases of both,
and that may use whatever is known of the states that the run has come through.
-/
import Muxly.Sync.Script

namespace Muxly.Sync.Machine

variable {π ω κ σ φ ψ α : Type} {M : Machine π ω κ σ φ} {cond : π → ω → Bool → σ → Prop}
  {start c : Config π ω σ φ}

/-- The machine under another protocol. -/
def under (M : Machine π ω κ σ φ) (after : π → ψ → ω → Bool → Option ψ) : Machine π ω κ σ ψ where
  exec := M.exec
  after := after

@[simp] theorem under_after (M : Machine π ω κ σ φ) (after : π → ψ → ω → Bool → Option ψ) :
    (M.under after).after = after := rfl

/-- A party that follows a protocol is about to make a call that the protocol permits. -/
theorem Follows.permits_next {p : π} {f : φ} {c : Config π ω σ ψ}
    {Q : Option Unit → φ → Prop} (h : M.Follows p f (c.script p) Q) {o : ω}
    (hnext : c.next p = some o) (b : Bool) : ∃ f', M.after p f o b = some f' := by
  unfold Config.next at hnext
  split at hnext
  · cases hnext
  · rename_i hscript
    cases hnext
    rw [hscript] at h
    obtain ⟨f', hafter, -⟩ := h b
    exact ⟨f', hafter⟩

/-- A party that follows a protocol and makes no further call has ended as the protocol says. -/
theorem Follows.ends {p : π} {f : φ} {c : Config π ω σ ψ} {Q : Option Unit → φ → Prop}
    (h : M.Follows p f (c.script p) Q) (hnext : c.next p = none) : ∃ r, Q r f := by
  unfold Config.next at hnext
  split at hnext
  · rename_i r hscript
    rw [hscript] at h
    exact ⟨r, h⟩
  · cases hnext

variable [DecidableEq π]

/-- An invariant of the state and of the phases of two protocols. -/
theorem Reaches.tracked {N : Machine π ω κ σ ψ} {Q : π → Option Unit → φ → Prop}
    {R : π → Option Unit → ψ → Prop} {I : σ → (π → φ) → (π → ψ) → Prop} {scene₀ : π → ψ}
    (h : M.Reaches cond start c) (hconforms : M.Conforms Q start)
    (hfollows : ∀ p, N.Follows p (scene₀ p) (start.script p) (R p))
    (hstart : I start.state start.phase scene₀)
    (hstep : ∀ c scene p o choice b s' f' g', M.Reaches cond start c →
      I c.state c.phase scene → M.exec p o choice c.state = some (b, s') →
      M.after p (c.phase p) o b = some f' → N.after p (scene p) o b = some g' →
      cond p o b c.state → I s' (Function.update c.phase p f') (Function.update scene p g')) :
    ∃ scene, (∀ p, N.Follows p (scene p) (c.script p) (R p)) ∧ I c.state c.phase scene := by
  induction h with
  | refl => exact ⟨scene₀, hfollows, hstart⟩
  | step hreach hsteps hcond ih =>
      rename_i c₁ c₂ p o choice b
      obtain ⟨scene, hscene, hinv⟩ := ih
      obtain ⟨f', hafter, hphase⟩ := (hreach.conforms hconforms).permits hsteps
      obtain ⟨rest, hscript, hscript'⟩ := hsteps.script
      have hp := hscene p
      rw [hscript] at hp
      obtain ⟨g', hafter', hrest⟩ := hp b
      refine ⟨Function.update scene p g', fun q => ?_, ?_⟩
      · -- Only the party that moved has another script.
        rw [hscript']
        by_cases hq : q = p
        · subst hq
          simpa using hrest
        · simpa [hq] using hscene q
      · rw [hphase]
        exact hstep c₁ scene p o choice b c₂.state f' g' hreach hinv hsteps.exec hafter hafter' hcond

end Muxly.Sync.Machine
