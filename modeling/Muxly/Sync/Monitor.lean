/-
# Muxly.Sync.Monitor -- threads that share a mutex and a condition variable

A monitor has a state and critical sections. A section runs in one step: it returns a result and
leaves a new state, or it finds that it has to wait and leaves the state as it was. A thread that
waits falls asleep; it tries its section again once it has been woken, by a signal, by a broadcast
or for no reason.

A run keeps the history of the sections that have returned. `Reaches.replays` says that the state is
what the history makes of it, one section after the other: what holds of all histories holds of all
interleavings. `Reaches.blocked` is the rule against lost wake-ups.
-/
import Mathlib.Data.List.Nodup
import Mathlib.Logic.Function.Basic

namespace Muxly.Sync

variable {τ κ μ ω ρ σ : Type}

/-! ## Monitors -/

/-- What a thread runs: sections, and what follows each result. -/
inductive Task (ω ρ : Type) where
  | done
  | call (o : ω) (rest : ρ → Task ω ρ)

/-- Whom a section wakes when it returns. -/
inductive Wake where
  | nobody
  | one
  | all
  deriving DecidableEq

/-- How a section ends. -/
inductive Outcome (ρ σ : Type) where
  | returns (result : ρ) (state : σ) (wake : Wake)
  | waits

/-- `attempt` runs a section, where `κ` is what the outside decides; an idle thread may start the
task of any method that `starts` allows. -/
structure Monitor (τ κ μ ω ρ σ : Type) where
  attempt : κ → ω → σ → Outcome ρ σ
  task : μ → Task ω ρ
  starts : σ → τ → μ → Bool

/-- What a thread is at. -/
inductive Thread (ω ρ : Type) where
  | running (task : Task ω ρ)
  /-- In `condition.wait`, asleep or woken. -/
  | waiting (o : ω) (rest : ρ → Task ω ρ)

/-- What one thread does, and what the outside decides about it. -/
inductive Move (τ κ μ : Type) where
  | start (t : τ) (m : μ)
  /-- A section; a signal wakes sleeper number `sleeper`. -/
  | enter (t : τ) (choice : κ) (sleeper : Nat)
  /-- A wake-up for no reason. -/
  | spurious (t : τ)

namespace Monitor

/-- The state, the threads, and those of them that are asleep. -/
structure Config (τ ω ρ σ : Type) where
  state : σ
  thread : τ → Thread ω ρ
  asleep : List τ

/-- All threads idle. -/
def Config.idle (τ ω ρ : Type) (s : σ) : Config τ ω ρ σ := ⟨s, fun _ => .running .done, []⟩

/-- Who is still asleep after a wake-up. -/
def stillAsleep (wake : Wake) (sleeper : Nat) (asleep : List τ) : List τ :=
  match wake with
  | .nobody => asleep
  | .one => asleep.eraseIdx (sleeper % asleep.length)
  | .all => []

variable [DecidableEq τ]

namespace Config

variable (c : Config τ ω ρ σ)

/-- The section that a thread can run, and what follows it. -/
def next (t : τ) : Option (ω × (ρ → Task ω ρ)) :=
  match c.thread t with
  | .running .done => none
  | .running (.call o rest) => some (o, rest)
  | .waiting o rest => if t ∈ c.asleep then none else some (o, rest)

/-- One step: the section that returned, if one did, and what follows. -/
def step (M : Monitor τ κ μ ω ρ σ) : Move τ κ μ → Option (Option (τ × ω × ρ) × Config τ ω ρ σ)
  | .start t m =>
    match c.thread t with
    | .running .done =>
      if M.starts c.state t m then
        some (none, { c with thread := Function.update c.thread t (.running (M.task m)) })
      else none
    | _ => none
  | .enter t choice sleeper =>
    match c.next t with
    | none => none
    | some (o, rest) =>
      match M.attempt choice o c.state with
      | .waits =>
        some (none, { c with
          thread := Function.update c.thread t (.waiting o rest)
          asleep := c.asleep ++ [t] })
      | .returns r s wake =>
        some (some (t, o, r), {
          state := s
          thread := Function.update c.thread t (.running (rest r))
          asleep := stillAsleep wake sleeper c.asleep })
  | .spurious t =>
    if t ∈ c.asleep then some (none, { c with asleep := c.asleep.erase t }) else none

end Config

/-! ## Runs -/

variable {M : Monitor τ κ μ ω ρ σ} {cond : Config τ ω ρ σ → Move τ κ μ → Prop}
  {start c c' : Config τ ω ρ σ} {history : List (τ × ω × ρ)}

/-- The states that the runs from `start` reach, with the sections that have returned, over the steps
that satisfy `cond`. -/
inductive Reaches (M : Monitor τ κ μ ω ρ σ) (cond : Config τ ω ρ σ → Move τ κ μ → Prop)
    (start : Config τ ω ρ σ) : List (τ × ω × ρ) → Config τ ω ρ σ → Prop
  | refl : Reaches M cond start [] start
  | step {c c' : Config τ ω ρ σ} {history : List (τ × ω × ρ)} {move : Move τ κ μ}
      {returned : Option (τ × ω × ρ)} :
      Reaches M cond start history c → cond c move → c.step M move = some (returned, c') →
      Reaches M cond start (history ++ returned.toList) c'

/-- The condition that admits every step. -/
def anyMove : Config τ ω ρ σ → Move τ κ μ → Prop := fun _ _ => True

instance : ∀ (c : Config τ ω ρ σ) (move : Move τ κ μ), Decidable (anyMove c move) :=
  fun _ _ => .isTrue trivial

theorem Reaches.mono {cond' : Config τ ω ρ σ → Move τ κ μ → Prop}
    (h : M.Reaches cond start history c) (himp : ∀ c move, cond c move → cond' c move) :
    M.Reaches cond' start history c := by
  induction h with
  | refl => exact .refl
  | step _ hcond hstep ih => exact ih.step (himp _ _ hcond) hstep

/-- What a step does. -/
theorem step_cases {move : Move τ κ μ} {returned : Option (τ × ω × ρ)}
    (h : c.step M move = some (returned, c')) :
    (∃ t m, move = .start t m ∧ c.thread t = .running .done ∧ M.starts c.state t m = true ∧
      returned = none ∧
      c' = { c with thread := Function.update c.thread t (.running (M.task m)) }) ∨
    (∃ t choice sleeper o rest, move = .enter t choice sleeper ∧ c.next t = some (o, rest) ∧
      M.attempt choice o c.state = .waits ∧ returned = none ∧
      c' = { c with
        thread := Function.update c.thread t (.waiting o rest)
        asleep := c.asleep ++ [t] }) ∨
    (∃ t choice sleeper o rest r s wake, move = .enter t choice sleeper ∧
      c.next t = some (o, rest) ∧ M.attempt choice o c.state = .returns r s wake ∧
      returned = some (t, o, r) ∧
      c' = {
        state := s
        thread := Function.update c.thread t (.running (rest r))
        asleep := stillAsleep wake sleeper c.asleep }) ∨
    ∃ t, move = .spurious t ∧ t ∈ c.asleep ∧ returned = none ∧
      c' = { c with asleep := c.asleep.erase t } := by
  cases move with
  | start t m =>
      left
      simp only [Config.step] at h
      split at h
      · rename_i hthread
        split at h
        · rename_i hstarts
          cases h
          exact ⟨t, m, rfl, hthread, hstarts, rfl, rfl⟩
        · cases h
      · cases h
  | enter t choice sleeper =>
      right
      simp only [Config.step] at h
      split at h
      · cases h
      · rename_i o rest hnext
        split at h
        · rename_i hattempt
          cases h
          exact .inl ⟨t, choice, sleeper, o, rest, rfl, hnext, hattempt, rfl, rfl⟩
        · rename_i r s wake hattempt
          cases h
          exact .inr (.inl ⟨t, choice, sleeper, o, rest, r, s, wake, rfl, hnext, hattempt, rfl, rfl⟩)
  | spurious t =>
      right; right; right
      simp only [Config.step] at h
      split at h
      · rename_i hmem
        cases h
        exact ⟨t, rfl, hmem, rfl, rfl⟩
      · cases h

/-- An invariant of runs. -/
theorem Reaches.invariant {I : List (τ × ω × ρ) → Config τ ω ρ σ → Prop}
    (h : M.Reaches cond start history c) (hstart : I [] start)
    (hstep : ∀ c c' history move returned, M.Reaches cond start history c → I history c →
      cond c move → c.step M move = some (returned, c') → I (history ++ returned.toList) c') :
    I history c := by
  induction h with
  | refl => exact hstart
  | step hreach hcond hs ih => exact hstep _ _ _ _ _ hreach ih hcond hs

/-! ## Schedules -/

/-- Follow a schedule of moves that satisfy `cond`. -/
def Config.follow (M : Monitor τ κ μ ω ρ σ) (cond : Config τ ω ρ σ → Move τ κ μ → Prop)
    [∀ c move, Decidable (cond c move)] (c : Config τ ω ρ σ) :
    List (Move τ κ μ) → Option (Config τ ω ρ σ)
  | [] => some c
  | move :: schedule =>
    if cond c move then
      match c.step M move with
      | none => none
      | some (_, c') => c'.follow M cond schedule
    else none

/-- A schedule that can be followed to its end reaches the state it ends in. -/
theorem Reaches.of_follow [∀ c move, Decidable (cond c move)] (schedule : List (Move τ κ μ))
    (hc : M.Reaches cond start history c) (h : c.follow M cond schedule = some c') :
    ∃ more, M.Reaches cond start (history ++ more) c' := by
  induction schedule generalizing c history with
  | nil =>
      simp only [Config.follow, Option.some.injEq] at h
      exact ⟨[], by simpa using h ▸ hc⟩
  | cons move schedule ih =>
      unfold Config.follow at h
      split at h
      · rename_i hcond
        split at h
        · cases h
        · rename_i returned c'' hstep
          obtain ⟨more, hmore⟩ := ih (hc.step hcond hstep) h
          exact ⟨returned.toList ++ more, by rwa [← List.append_assoc]⟩
      · cases h

variable (cond start)

/-- A run that ends in a state that passes a test. -/
theorem Reaches.exists_of_follow [∀ c move, Decidable (cond c move)] (schedule : List (Move τ κ μ))
    (test : Config τ ω ρ σ → Bool) (h : (start.follow M cond schedule).any test = true) :
    ∃ history c, M.Reaches cond start history c ∧ test c = true := by
  obtain ⟨c, hc, htest⟩ := (Option.any_eq_true ..).mp h
  obtain ⟨history, hreach⟩ := Reaches.of_follow schedule .refl hc
  exact ⟨history, c, by simpa using hreach, htest⟩

variable {cond start}

/-! ## Histories -/

/-- The sections of a history, run one after the other, make `s` of the first state. -/
inductive Replays (M : Monitor τ κ μ ω ρ σ) (s₀ : σ) : List (τ × ω × ρ) → σ → Prop
  | nil : Replays M s₀ [] s₀
  | snoc {history : List (τ × ω × ρ)} {s s' : σ} {t : τ} {o : ω} {r : ρ} {choice : κ} {wake : Wake} :
      Replays M s₀ history s → M.attempt choice o s = .returns r s' wake →
      Replays M s₀ (history ++ [(t, o, r)]) s'

/-- The state of a run is what its history makes of the first state. -/
theorem Reaches.replays (h : M.Reaches cond start history c) :
    M.Replays start.state history c.state := by
  refine h.invariant (I := fun history c => M.Replays start.state history c.state) .nil ?_
  intro c c' history move returned _ hi _ hstep
  rcases step_cases hstep with ⟨t, m, -, -, -, rfl, rfl⟩ |
    ⟨t, choice, sleeper, o, rest, -, -, -, rfl, rfl⟩ |
    ⟨t, choice, sleeper, o, rest, r, s, wake, -, -, hattempt, rfl, rfl⟩ | ⟨t, -, -, rfl, rfl⟩
  · simpa using hi
  · simpa using hi
  · exact hi.snoc hattempt
  · simpa using hi

omit [DecidableEq τ] in
/-- A section of a history ran in the state that the sections before it made. -/
theorem Replays.attempt_of_mem {s₀ s : σ} (h : M.Replays s₀ history s) {event : τ × ω × ρ}
    (hmem : event ∈ history) : ∃ before s₁ s₂ choice wake, M.Replays s₀ before s₁ ∧
      M.attempt choice event.2.1 s₁ = .returns event.2.2 s₂ wake := by
  induction h with
  | nil => cases hmem
  | snoc hbefore hattempt ih =>
      obtain hmem | hmem := List.mem_append.mp hmem
      · exact ih hmem
      · cases List.mem_singleton.mp hmem
        exact ⟨_, _, _, _, _, hbefore, hattempt⟩

/-! ## Sleep -/

/-- The section has to wait. -/
def Blocked (M : Monitor τ κ μ ω ρ σ) (o : ω) (s : σ) : Prop :=
  ∃ choice, M.attempt choice o s = .waits

/-- Thread `t` is asleep in the section. -/
def Config.SleepsIn (c : Config τ ω ρ σ) (t : τ) (o : ω) : Prop :=
  t ∈ c.asleep ∧ ∃ rest, c.thread t = .waiting o rest

omit [DecidableEq τ] in
theorem stillAsleep_sublist (wake : Wake) (sleeper : Nat) (asleep : List τ) :
    (stillAsleep wake sleeper asleep).Sublist asleep := by
  cases wake with
  | nobody => exact .refl _
  | one => exact List.eraseIdx_sublist ..
  | all => exact List.nil_sublist _

/-- A thread that can run a section is not asleep. -/
theorem not_mem_asleep_of_next {t : τ} {o : ω} {rest : ρ → Task ω ρ}
    (hwait : ∀ t ∈ c.asleep, ∃ o rest, c.thread t = .waiting o rest)
    (h : c.next t = some (o, rest)) : t ∉ c.asleep := by
  intro hmem
  obtain ⟨o', rest', hthread⟩ := hwait t hmem
  simp [Config.next, hthread, hmem] at h

/-- The sleeping threads of a run are threads that wait, each asleep once. -/
theorem Reaches.sleepers (h : M.Reaches cond start history c) (hstart : start.asleep = []) :
    c.asleep.Nodup ∧ ∀ t ∈ c.asleep, ∃ o rest, c.thread t = .waiting o rest := by
  refine h.invariant (I := fun _ c => c.asleep.Nodup ∧
    ∀ t ∈ c.asleep, ∃ o rest, c.thread t = .waiting o rest) (by simp [hstart]) ?_
  rintro c c' history move returned - ⟨hnodup, hwait⟩ - hstep
  rcases step_cases hstep with ⟨t, m, -, hthread, -, -, rfl⟩ |
    ⟨t, choice, sleeper, o, rest, -, hnext, -, -, rfl⟩ |
    ⟨t, choice, sleeper, o, rest, r, s, wake, -, hnext, -, -, rfl⟩ | ⟨t, -, -, -, rfl⟩
  · refine ⟨hnodup, fun u hu => ?_⟩
    have hne : u ≠ t := by
      rintro rfl
      obtain ⟨o, rest, hwaiting⟩ := hwait u hu
      rw [hthread] at hwaiting
      cases hwaiting
    simpa [hne] using hwait u hu
  · have hnot := not_mem_asleep_of_next hwait hnext
    refine ⟨List.concat_eq_append ▸ hnodup.concat hnot, fun u hu => ?_⟩
    · by_cases hne : u = t
      · subst hne
        exact ⟨o, rest, by simp⟩
      · obtain hu | hu := List.mem_append.mp hu
        · simpa [hne] using hwait u hu
        · exact absurd (List.mem_singleton.mp hu) hne
  · have hnot := not_mem_asleep_of_next hwait hnext
    have hsub := stillAsleep_sublist wake sleeper c.asleep
    refine ⟨hnodup.sublist hsub, fun u hu => ?_⟩
    have hne : u ≠ t := fun heq => hnot (heq ▸ hsub.subset hu)
    simpa [hne] using hwait u (hsub.subset hu)
  · exact ⟨hnodup.erase t, fun u hu => hwait u (List.mem_of_mem_erase hu)⟩

/-- No wake-up is lost: a section that does not wake all threads leaves those blocked that it does
not wake. Then every thread that is asleep waits in a section that still has to wait. -/
theorem Reaches.blocked (h : M.Reaches cond start history c) (hstart : start.asleep = [])
    (hkeep : ∀ history c t choice sleeper u o o' rest r s wake, M.Reaches cond start history c →
      cond c (.enter t choice sleeper) → c.next t = some (o', rest) →
      M.attempt choice o' c.state = .returns r s wake → wake ≠ .all →
      c.SleepsIn u o → M.Blocked o c.state → M.Blocked o s) :
    ∀ t o, c.SleepsIn t o → M.Blocked o c.state := by
  refine h.invariant (I := fun _ c => ∀ t o, c.SleepsIn t o → M.Blocked o c.state)
    (by simp [hstart, Config.SleepsIn]) ?_
  rintro c c' history move returned hreach hblocked hcond hstep
  have hwait := (hreach.sleepers hstart).2
  rcases step_cases hstep with ⟨t, m, -, hthread, -, -, rfl⟩ |
    ⟨t, choice, sleeper, o, rest, -, hnext, hattempt, -, rfl⟩ |
    ⟨t, choice, sleeper, o, rest, r, s, wake, rfl, hnext, hattempt, -, rfl⟩ | ⟨t, -, -, -, rfl⟩
  · rintro u o ⟨hu, rest, hwaiting⟩
    have hne : u ≠ t := by
      rintro rfl
      simp only [Function.update_self] at hwaiting
      cases hwaiting
    exact hblocked u o ⟨hu, rest, by simpa [hne] using hwaiting⟩
  · rintro u o' ⟨hu, rest', hwaiting⟩
    by_cases hne : u = t
    · subst hne
      simp only [Function.update_self, Thread.waiting.injEq] at hwaiting
      exact hwaiting.1 ▸ ⟨choice, hattempt⟩
    · obtain hu | hu := List.mem_append.mp hu
      · exact hblocked u o' ⟨hu, rest', by simpa [hne] using hwaiting⟩
      · exact absurd (List.mem_singleton.mp hu) hne
  · rintro u o' ⟨hu, rest', hwaiting⟩
    have hsub := stillAsleep_sublist wake sleeper c.asleep
    have hne : u ≠ t := by
      rintro rfl
      simp only [Function.update_self] at hwaiting
      cases hwaiting
    have hsleeps : c.SleepsIn u o' :=
      ⟨hsub.subset hu, rest', by simpa [hne] using hwaiting⟩
    refine hkeep history c t choice sleeper u o' o rest r s wake hreach hcond hnext hattempt ?_
      hsleeps (hblocked u o' hsleeps)
    rintro rfl
    cases hu
  · rintro u o ⟨hu, hwaiting⟩
    exact hblocked u o ⟨List.mem_of_mem_erase hu, hwaiting⟩

end Monitor

end Muxly.Sync
