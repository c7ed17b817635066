/-
# Muxly.Sync.Reservations -- places that are reserved, held and given back

The members of a group reserve places of the group and give them back. `held i` says how many places
member `i` has, `used g` how many places of group `g` are taken, and a log tells of every reservation
and every return.

`Accounts` ties the three together: nobody reserves twice, what a member has reserved and not given
back it holds, and the places that are taken are those of the members that hold one. `Accounts.step`
keeps it at every step that moves one place or none.
-/
import Mathlib.Data.Finset.Card

namespace Muxly.Sync

/-- What happens to a place of member `i`. -/
inductive SlotEvent (ι : Type) where
  | reserved (i : ι)
  | released (i : ι)
  deriving DecidableEq

variable {ι γ : Type} [DecidableEq ι] {group : ι → γ} {log : List (SlotEvent ι)}
  {held held' : ι → Nat} {used used' : γ → Nat} {i : ι}

/-- The places, as the members hold them and as the groups count them. -/
structure Accounts (group : ι → γ) (log : List (SlotEvent ι)) (held : ι → Nat)
    (used : γ → Nat) : Prop where
  balance : ∀ i, held i + log.count (.released i) = log.count (.reserved i)
  once : ∀ i, log.count (.reserved i) ≤ 1
  counted : ∀ g, ∃ holders : Finset ι,
    (∀ i, i ∈ holders ↔ group i = g ∧ 0 < held i) ∧ used g = holders.card

/-- A step that moves the place that `event` tells of, and no other. -/
def Moves (group : ι → γ) (held held' : ι → Nat) (used used' : γ → Nat) :
    Option (SlotEvent ι) → Prop
  | none => held' = held ∧ used' = used
  | some (.reserved i) =>
    held' i = held i + 1 ∧ (∀ j, j ≠ i → held' j = held j) ∧
      used' (group i) = used (group i) + 1 ∧ ∀ g, g ≠ group i → used' g = used g
  | some (.released i) =>
    held' i + 1 = held i ∧ (∀ j, j ≠ i → held' j = held j) ∧
      used' (group i) = used (group i) - 1 ∧ ∀ g, g ≠ group i → used' g = used g

namespace Accounts

theorem start : Accounts group [] (fun _ => 0) fun _ => 0 :=
  ⟨fun _ => rfl, fun _ => Nat.zero_le _, fun _ => ⟨∅, by simp⟩⟩

/-- Nobody holds two places. -/
theorem held_le (h : Accounts group log held used) (i : ι) : held i ≤ 1 := by
  have hbalance := h.balance i
  have honce := h.once i
  omega

/-- The group of a member that holds a place has a place taken. -/
theorem used_pos (h : Accounts group log held used) (hi : 0 < held i) : 0 < used (group i) := by
  obtain ⟨holders, hmem, hcard⟩ := h.counted (group i)
  rw [hcard, Finset.card_pos]
  exact ⟨i, (hmem i).mpr ⟨rfl, hi⟩⟩

/-- The places of a group that are taken, by any list of those who hold them. -/
theorem used_eq (h : Accounts group log held used) {g : γ} {holders : Finset ι}
    (hmem : ∀ i, i ∈ holders ↔ group i = g ∧ 0 < held i) : used g = holders.card := by
  obtain ⟨holders', hmem', hcard⟩ := h.counted g
  rw [hcard, Finset.ext fun i => (hmem' i).trans (hmem i).symm]

/-- A step that moves a place of one group leaves the others as they are. -/
theorem counted_of_ne (h : Accounts group log held used) {g : γ} (hg : g ≠ group i)
    (hothers : ∀ j, j ≠ i → held' j = held j) (hused : used' g = used g) :
    ∃ holders : Finset ι, (∀ j, j ∈ holders ↔ group j = g ∧ 0 < held' j) ∧
      used' g = holders.card := by
  obtain ⟨holders, hmem, hcard⟩ := h.counted g
  refine ⟨holders, fun j => ?_, hused.trans hcard⟩
  rw [hmem]
  by_cases hj : j = i
  · subst hj
    simp [Ne.symm hg]
  · rw [hothers j hj]

theorem reserve (h : Accounts group log held used) (hnew : log.count (.reserved i) = 0)
    (hm : Moves group held held' used used' (some (.reserved i))) :
    Accounts group (log ++ [.reserved i]) held' used' := by
  obtain ⟨hi, hothers, hgroup, hgroups⟩ := hm
  have hnone : held i = 0 := by
    have hbalance := h.balance i
    omega
  constructor
  case balance =>
    intro j
    have hbalance := h.balance j
    by_cases hj : j = i
    · subst hj
      simp [hi]
      omega
    · simpa [hothers j hj, Ne.symm hj] using hbalance
  case once =>
    intro j
    by_cases hj : j = i
    · subst hj
      simp [hnew]
    · simpa [Ne.symm hj] using h.once j
  case counted =>
    intro g
    by_cases hg : g = group i
    · subst hg
      obtain ⟨holders, hmem, hcard⟩ := h.counted (group i)
      have hout : i ∉ holders := by
        rw [hmem, hnone]
        simp
      refine ⟨insert i holders, fun j => ?_, ?_⟩
      · by_cases hj : j = i
        · subst hj
          simp [hi]
        · simp [hj, hothers j hj, hmem]
      · rw [hgroup, hcard, Finset.card_insert_of_notMem hout]
    · exact h.counted_of_ne hg hothers (hgroups g hg)

theorem release (h : Accounts group log held used)
    (hm : Moves group held held' used used' (some (.released i))) :
    Accounts group (log ++ [.released i]) held' used' := by
  obtain ⟨hi, hothers, hgroup, hgroups⟩ := hm
  have hle := h.held_le i
  constructor
  case balance =>
    intro j
    have hbalance := h.balance j
    by_cases hj : j = i
    · subst hj
      simp
      omega
    · simpa [hothers j hj, Ne.symm hj] using hbalance
  case once =>
    intro j
    simpa using h.once j
  case counted =>
    intro g
    by_cases hg : g = group i
    · subst hg
      obtain ⟨holders, hmem, hcard⟩ := h.counted (group i)
      have hin : i ∈ holders := (hmem i).mpr ⟨rfl, by omega⟩
      refine ⟨holders.erase i, fun j => ?_, ?_⟩
      · by_cases hj : j = i
        · subst hj
          have hzero : held' j = 0 := by omega
          simp [hzero]
        · simp [hj, hothers j hj, hmem]
      · rw [hgroup, hcard, Finset.card_erase_of_mem hin]
    · exact h.counted_of_ne hg hothers (hgroups g hg)

/-- A step keeps the accounts if it moves what it tells of. -/
theorem step (h : Accounts group log held used) {event : Option (SlotEvent ι)}
    (hm : Moves group held held' used used' event)
    (hnew : ∀ i, event = some (.reserved i) → log.count (.reserved i) = 0) :
    Accounts group (log ++ event.toList) held' used' := by
  rcases event with _ | i | i
  · obtain ⟨rfl, rfl⟩ := hm
    simpa using h
  · exact h.reserve (hnew i rfl) hm
  · exact h.release hm

end Accounts

end Muxly.Sync
