/-
# Muxly.Sync.Zoom -- a lock program on one part of a larger state

A `Part` is a component of a state that can be read and replaced while it is there. `Program.zoom`
runs a program of the component on the whole state, its mutexes under other names. Run alone it
does to the component what it does by itself, and nothing to the rest, whatever other mutexes are
held.
-/
import Muxly.Sync.Solo

namespace Muxly.Sync

open Muxly.Control Program

variable {μ ν σ τ ℓ k ε α β : Type}

/-- A component of type `σ` of the states of type `τ` that have it. -/
structure Part (τ σ : Type) where
  Has : τ → Prop
  get : τ → σ
  put : σ → τ → τ
  has_put : ∀ {a s}, Has s → Has (put a s)
  get_put : ∀ {a s}, Has s → get (put a s) = a
  put_get : ∀ {s}, Has s → put (get s) s = s
  put_put : ∀ {a b s}, put b (put a s) = put b s

/-- Run a program of a component on the whole state. -/
def Program.zoom (part : Part τ σ) (rename : μ → ν) :
    Program μ σ ℓ ε α → Program ν τ k ε α
  | .ret r => .ret r
  | .lock m rest => .lock (rename m) (rest.zoom part rename)
  | .unlock m rest => .unlock (rename m) (rest.zoom part rename)
  | .step update _ rest =>
    .step (fun s => part.put (update (part.get s)) s) (fun _ l => l)
      fun s => (rest (part.get s)).zoom part rename

/-- How a program stops, its mutexes under other names. -/
def Program.Stop.rename (f : μ → ν) : Stop μ ε α → Stop ν ε α
  | .done r => .done r
  | .selfLock m => .selfLock (f m)

variable {part : Part τ σ} {rename : μ → ν}

theorem zoom_bindResult (p : Program μ σ ℓ ε α) (f : Except ε α → Program μ σ ℓ ε β) :
    ((bindResult p f).zoom part rename : Program ν τ k ε β)
      = bindResult (p.zoom part rename) fun r => (f r).zoom part rename := by
  induction p with
  | ret r => rfl
  | lock m rest ih => simp only [bindResult, Program.zoom, ih]
  | unlock m rest ih => simp only [bindResult, Program.zoom, ih]
  | step update tag rest ih => simp only [bindResult, Program.zoom, ih]

theorem zoom_ensure (p : Program μ σ ℓ ε α) (cleanup : Program μ σ ℓ ε Unit) :
    ((ensure p cleanup).zoom part rename : Program ν τ k ε α)
      = ensure (p.zoom part rename) (cleanup.zoom part rename) := by
  rw [ensure, zoom_bindResult, ensure]
  congr 1
  funext r
  rw [zoom_bindResult]
  rfl

/-- Without its mutexes a program on a component leaves the rest alone. -/
theorem unlocked_zoom (p : Program μ σ ℓ ε α) {s : τ} (hs : part.Has s) :
    (p.zoom part rename : Program ν τ k ε α).unlocked s
      = ((p.unlocked (part.get s)).1, part.put (p.unlocked (part.get s)).2 s) := by
  induction p generalizing s with
  | ret r =>
      show (r, s) = (r, part.put (part.get s) s)
      rw [part.put_get hs]
  | lock m rest ih => exact ih hs
  | unlock m rest ih => exact ih hs
  | step update tag rest ih =>
      have hnext := ih (part.get s) (part.has_put (a := update (part.get s)) hs)
      rw [part.get_put hs, part.put_put] at hnext
      exact hnext

section Alone

variable [DecidableEq μ] [DecidableEq ν]

/-- A program on a component, run alone: the mutexes of the component are its own, and the others
that are held stay out of its way. -/
theorem solo_zoom (hrename : Function.Injective rename) (p : Program μ σ ℓ ε α) (held : List μ)
    {others : List ν} (hothers : ∀ m, rename m ∉ others) {s : τ} (hs : part.Has s) :
    solo (p.zoom part rename : Program ν τ k ε α) (held.map rename ++ others) s
      = ((solo p held (part.get s)).1.rename rename,
          (solo p held (part.get s)).2.1.map rename ++ others,
          part.put (solo p held (part.get s)).2.2 s) := by
  induction p generalizing held s with
  | ret r =>
      show (Stop.done r, held.map rename ++ others, s) = (Stop.done r, held.map rename ++ others, _)
      rw [show part.put (solo (.ret r : Program μ σ ℓ ε α) held (part.get s)).2.2 s = s from
        part.put_get hs]
  | lock m rest ih =>
      have hmem : rename m ∈ held.map rename ++ others ↔ m ∈ held := by
        rw [List.mem_append, List.mem_map_of_injective hrename, or_iff_left (hothers m)]
      by_cases hm : m ∈ held
      · show solo (.lock (rename m) _) _ s = _
        rw [solo, if_pos (hmem.mpr hm), solo, if_pos hm]
        show (Stop.selfLock (rename m), held.map rename ++ others, s)
          = (Stop.selfLock (rename m), held.map rename ++ others, part.put (part.get s) s)
        rw [part.put_get hs]
      · show solo (.lock (rename m) _) _ s = _
        rw [solo, if_neg (fun h => hm (hmem.mp h)), solo, if_neg hm]
        exact ih (m :: held) hs
  | unlock m rest ih =>
      have herase : (held.map rename ++ others).erase (rename m)
          = (held.erase m).map rename ++ others := by
        by_cases hm : m ∈ held
        · rw [List.erase_append_left _ (List.mem_map_of_mem hm), List.map_erase hrename]
        · have hnot : rename m ∉ held.map rename ++ others := by
            rw [List.mem_append, List.mem_map_of_injective hrename, or_iff_left (hothers m)]
            exact hm
          rw [List.erase_of_not_mem hnot, List.erase_of_not_mem hm]
      show solo (.unlock (rename m) _) _ s = _
      rw [solo, herase, solo]
      exact ih (held.erase m) hs
  | step update tag rest ih =>
      have hnext := ih (part.get s) held (part.has_put (a := update (part.get s)) hs)
      rw [part.get_put hs, part.put_put] at hnext
      exact hnext

/-- A program that ends by itself ends on the whole state. -/
theorem Executes.zoom {held : List μ} {A : σ → Prop} {p : Program μ σ ℓ ε α}
    {B : Except ε α → σ → Prop} (h : Executes held A p B) (hrename : Function.Injective rename)
    {others : List ν} (hothers : ∀ m, rename m ∉ others) {s : τ} (hs : part.Has s)
    (hA : A (part.get s)) :
    solo (p.zoom part rename : Program ν τ k ε α) (held.map rename ++ others) s
        = (.done (p.unlocked (part.get s)).1, held.map rename ++ others,
            part.put (p.unlocked (part.get s)).2 s) ∧
      B (p.unlocked (part.get s)).1 (p.unlocked (part.get s)).2 := by
  obtain ⟨hsolo, hB⟩ := h.unlocked hA
  refine ⟨?_, hB⟩
  rw [solo_zoom hrename p held hothers hs, hsolo]
  rfl

end Alone

end Muxly.Sync
