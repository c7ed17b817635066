/-
# Muxly.Sync.LockOrder -- ascending acquisition excludes deadlock

A thread waits for another one when it asks for a mutex the other one owns. When every waiting
thread asks for a mutex above all those it owns, in some strict order, the wait-for relation has
no cycle.
-/
import Mathlib.Logic.Relation
import Mathlib.Order.Basic
import Muxly.Sync.Discipline

namespace Muxly.Sync

variable {μ σ ℓ ε α : Type}

/-- Thread `t` asks for the mutex `m`. -/
def Asks (c : Config μ σ ℓ ε α) (t : Nat) (m : μ) : Prop := ∃ rest, c.thread t = .lock m rest

/-- Thread `t` asks for a mutex that thread `u` owns. -/
def WaitsFor (c : Config μ σ ℓ ε α) (t u : Nat) : Prop := ∃ m, Asks c t m ∧ c.owner m = some u

/-- Every thread asks only for mutexes above those it owns. -/
def Ascending [LT μ] (c : Config μ σ ℓ ε α) : Prop :=
  ∀ t m, Asks c t m → ∀ m', c.owner m' = some t → m' < m

theorem Asks.unique {c : Config μ σ ℓ ε α} {t : Nat} {m m' : μ} (h : Asks c t m)
    (h' : Asks c t m') : m = m' := by
  obtain ⟨rest, h⟩ := h
  obtain ⟨rest', h'⟩ := h'
  rw [h] at h'
  exact (Program.lock.inj h').1

/-- Along a wait-for path the mutex asked for rises up to the last one owned. -/
theorem Ascending.path [Preorder μ] {c : Config μ σ ℓ ε α} (h : Ascending c) {t u : Nat}
    (hp : Relation.TransGen (WaitsFor c) t u) :
    ∃ m m', Asks c t m ∧ c.owner m' = some u ∧ m ≤ m' := by
  induction hp with
  | single hw =>
      obtain ⟨m, hask, hown⟩ := hw
      exact ⟨m, m, hask, hown, le_refl m⟩
  | tail _ hw ih =>
      obtain ⟨m, m', hask, hown, hle⟩ := ih
      obtain ⟨m'', hask', hown'⟩ := hw
      exact ⟨m, m'', hask, hown', hle.trans (h _ _ hask' _ hown).le⟩

/-- No thread waits, directly or through others, for itself. -/
theorem Ascending.acyclic [Preorder μ] {c : Config μ σ ℓ ε α} (h : Ascending c) (t : Nat) :
    ¬ Relation.TransGen (WaitsFor c) t t := by
  intro hp
  obtain ⟨m, m', hask, hown, hle⟩ := h.path hp
  exact absurd (h t m hask m' hown) hle.not_gt

namespace Discipline

/-- A discipline whose threads wait only for mutexes above those they hold. -/
theorem Follows.ascending [LT μ] {D : Discipline μ σ ℓ}
    (hD : ∀ H m, D.lockOk H m → ∀ m' ∈ H, m' < m) {c : Config μ σ ℓ ε α} (h : D.Follows c) :
    Ascending c := by
  intro t m hask m' hown
  obtain ⟨rest, hask⟩ := hask
  obtain ⟨H, A, hH, hA, -, hok, hwp⟩ := h.thread t
  rw [hask] at hwp
  exact hD H m (hwp.1 _ h.inv hA hok) m' ((hH m').mp hown)

end Discipline

end Muxly.Sync
