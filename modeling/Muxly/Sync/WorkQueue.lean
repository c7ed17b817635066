/-
# Muxly.Sync.WorkQueue -- a queue that many threads fill and one worker drains

The queue has a mutex and a condition variable. A producer takes the mutex, appends, signals and
lets go; the worker takes it, waits on the condition while the queue is empty, removes the first item
and executes it without the mutex. Each action is what a thread does between two points at which
another one may come in.

`Sound` compares the queue with the notes that the actions made so far: what was started and what is
queued is what was enqueued, in that order; at most one item has been started and not finished; the
worker does not sleep over a filled queue. `owed` counts the moves after which the worker has started
a given number of items; nothing but its own moves is needed for that.
-/
import Muxly.Sync.Transitions

namespace Muxly.Sync

variable {γ ω : Type}

/-- Where the loop of the worker is. -/
inductive Worker (ω : Type) where
  | locking
  /-- It has the mutex and is about to look at the queue. -/
  | checking
  /-- In `condition.wait`. -/
  | waiting
  /-- Still in `condition.wait`, about to take the mutex again. -/
  | woken
  | executing (item : ω)

/-- The item in execution. -/
def Worker.item : Worker ω → Option ω
  | .executing item => some item
  | _ => none

/-- The worker after a signal. -/
def Worker.signalled : Worker ω → Worker ω
  | .waiting => .woken
  | worker => worker

/-- Who has the mutex. -/
inductive Holder (γ : Type) where
  | worker
  | producer (t : γ)
  deriving DecidableEq

/-- A queue, its mutex and its worker. -/
structure WorkQueue (γ ω : Type) where
  queue : List ω
  mutex : Option (Holder γ)
  worker : Worker ω

namespace WorkQueue

/-- An empty queue whose worker was just spawned. -/
def fresh : WorkQueue γ ω := ⟨[], none, .locking⟩

/-- What a thread does in one step. -/
inductive Action (γ ω : Type) where
  | lock (t : γ)
  /-- Append and signal. -/
  | append (t : γ) (item : ω)
  | unlock (t : γ)
  | work
  /-- A wake-up for no reason. -/
  | wake

/-- What is noted of an action. -/
inductive Note (ω : Type) where
  | enqueued (item : ω)
  | started (item : ω)
  | finished (item : ω)

/-- The next move of the worker. -/
def work (q : WorkQueue γ ω) : Option (Option (Note ω) × WorkQueue γ ω) :=
  match q.worker with
  | .locking | .woken =>
    if q.mutex = none then some (none, { q with mutex := some .worker, worker := .checking })
    else none
  | .checking =>
    match q.queue with
    | [] => some (none, { q with mutex := none, worker := .waiting })
    | item :: rest => some (some (.started item), ⟨rest, none, .executing item⟩)
  | .waiting => none
  | .executing item => some (some (.finished item), { q with worker := .locking })

/-- One action, if it is possible. -/
def act [DecidableEq γ] (q : WorkQueue γ ω) : Action γ ω → Option (Option (Note ω) × WorkQueue γ ω)
  | .lock t =>
    if q.mutex = none then some (none, { q with mutex := some (.producer t) }) else none
  | .append t item =>
    if q.mutex = some (.producer t) then
      some (some (.enqueued item),
        { q with queue := q.queue ++ [item], worker := q.worker.signalled })
    else none
  | .unlock t =>
    if q.mutex = some (.producer t) then some (none, { q with mutex := none }) else none
  | .work => q.work
  | .wake =>
    match q.worker with
    | .waiting => some (none, { q with worker := .woken })
    | _ => none

/-! ## Notes -/

/-- The items that were enqueued, in order. -/
def enqueued (notes : List (Note ω)) : List ω :=
  notes.filterMap fun
    | .enqueued item => some item
    | _ => none

/-- The items whose execution was started, in order. -/
def started (notes : List (Note ω)) : List ω :=
  notes.filterMap fun
    | .started item => some item
    | _ => none

/-- The items whose execution has ended, in order. -/
def finished (notes : List (Note ω)) : List ω :=
  notes.filterMap fun
    | .finished item => some item
    | _ => none

/-- The queue, against the notes so far. -/
structure Sound (q : WorkQueue γ ω) (notes : List (Note ω)) : Prop where
  fifo : started notes ++ q.queue = enqueued notes
  serial : finished notes ++ q.worker.item.toList = started notes
  awake : q.queue ≠ [] → q.worker ≠ .waiting
  owner : q.mutex = some .worker ↔ q.worker = .checking

theorem Sound.fresh : (fresh : WorkQueue γ ω).Sound [] where
  fifo := rfl
  serial := rfl
  awake h := absurd rfl h
  owner := by
    constructor
    · intro h
      cases h
    · intro h
      cases h

variable {q q' : WorkQueue γ ω} {notes : List (Note ω)} {a : Action γ ω} {note : Option (Note ω)}

/-! ## What an action does -/

/-- What a move of the worker does. -/
theorem work_cases (h : q.work = some (note, q')) :
    ((q.worker = .locking ∨ q.worker = .woken) ∧ q.mutex = none ∧ note = none ∧
      q' = { q with mutex := some .worker, worker := .checking }) ∨
    (q.worker = .checking ∧ q.queue = [] ∧ note = none ∧
      q' = { q with mutex := none, worker := .waiting }) ∨
    (∃ item rest, q.worker = .checking ∧ q.queue = item :: rest ∧ note = some (.started item) ∧
      q' = ⟨rest, none, .executing item⟩) ∨
    ∃ item, q.worker = .executing item ∧ note = some (.finished item) ∧
      q' = { q with worker := .locking } := by
  unfold work at h
  cases hworker : q.worker with
  | locking =>
      simp only [hworker, Option.ite_none_right_eq_some, Option.some.injEq, Prod.mk.injEq] at h
      obtain ⟨hfree, rfl, rfl⟩ := h
      exact .inl ⟨.inl rfl, hfree, rfl, rfl⟩
  | woken =>
      simp only [hworker, Option.ite_none_right_eq_some, Option.some.injEq, Prod.mk.injEq] at h
      obtain ⟨hfree, rfl, rfl⟩ := h
      exact .inl ⟨.inr rfl, hfree, rfl, rfl⟩
  | checking =>
      simp only [hworker] at h
      cases hqueue : q.queue with
      | nil =>
          simp only [hqueue, Option.some.injEq, Prod.mk.injEq] at h
          obtain ⟨rfl, rfl⟩ := h
          exact .inr (.inl ⟨rfl, rfl, rfl, rfl⟩)
      | cons item rest =>
          simp only [hqueue, Option.some.injEq, Prod.mk.injEq] at h
          obtain ⟨rfl, rfl⟩ := h
          exact .inr (.inr (.inl ⟨item, rest, rfl, rfl, rfl, rfl⟩))
  | waiting =>
      simp only [hworker] at h
      cases h
  | executing item =>
      simp only [hworker, Option.some.injEq, Prod.mk.injEq] at h
      obtain ⟨rfl, rfl⟩ := h
      exact .inr (.inr (.inr ⟨item, rfl, rfl, rfl⟩))

/-- What an action of any other thread does. -/
theorem act_cases [DecidableEq γ] (h : q.act a = some (note, q')) :
    (a = .work ∧ q.work = some (note, q')) ∨
    (∃ t, a = .lock t ∧ q.mutex = none ∧ note = none ∧
      q' = { q with mutex := some (.producer t) }) ∨
    (∃ t item, a = .append t item ∧ q.mutex = some (.producer t) ∧
      note = some (.enqueued item) ∧
      q' = { q with queue := q.queue ++ [item], worker := q.worker.signalled }) ∨
    (∃ t, a = .unlock t ∧ q.mutex = some (.producer t) ∧ note = none ∧
      q' = { q with mutex := none }) ∨
    a = .wake ∧ q.worker = .waiting ∧ note = none ∧ q' = { q with worker := .woken } := by
  cases a with
  | work => exact .inl ⟨rfl, h⟩
  | lock t =>
      simp only [act, Option.ite_none_right_eq_some, Option.some.injEq, Prod.mk.injEq] at h
      obtain ⟨hfree, rfl, rfl⟩ := h
      exact .inr (.inl ⟨t, rfl, hfree, rfl, rfl⟩)
  | append t item =>
      simp only [act, Option.ite_none_right_eq_some, Option.some.injEq, Prod.mk.injEq] at h
      obtain ⟨hmutex, rfl, rfl⟩ := h
      exact .inr (.inr (.inl ⟨t, item, rfl, hmutex, rfl, rfl⟩))
  | unlock t =>
      simp only [act, Option.ite_none_right_eq_some, Option.some.injEq, Prod.mk.injEq] at h
      obtain ⟨hmutex, rfl, rfl⟩ := h
      exact .inr (.inr (.inr (.inl ⟨t, rfl, hmutex, rfl, rfl⟩)))
  | wake =>
      simp only [act] at h
      split at h
      · rename_i hworker
        cases h
        exact .inr (.inr (.inr (.inr ⟨rfl, hworker, rfl, rfl⟩)))
      · cases h

@[simp] theorem item_signalled (worker : Worker ω) : worker.signalled.item = worker.item := by
  cases worker <;> rfl

theorem signalled_ne_waiting (worker : Worker ω) : worker.signalled ≠ .waiting := by
  cases worker <;> simp [Worker.signalled]

theorem signalled_eq_checking {worker : Worker ω} :
    worker.signalled = .checking ↔ worker = .checking := by
  cases worker <;> simp [Worker.signalled]

/-- A move of the worker keeps the queue in step with the notes. -/
theorem Sound.work (h : q.Sound notes) (hwork : q.work = some (note, q')) :
    q'.Sound (notes ++ note.toList) := by
  obtain ⟨hfifo, hserial, hawake, howner⟩ := h
  rcases work_cases hwork with ⟨hworker, -, rfl, rfl⟩ | ⟨hworker, hqueue, rfl, rfl⟩ |
    ⟨item, rest, hworker, hqueue, rfl, rfl⟩ | ⟨item, hworker, rfl, rfl⟩
  · refine ⟨by simpa using hfifo, ?_, ?_, ?_⟩
    · rcases hworker with hworker | hworker
      · simpa [hworker, Worker.item] using hserial
      · simpa [hworker, Worker.item] using hserial
    · simp
    · simp
  · refine ⟨by simpa using hfifo, ?_, ?_, ?_⟩
    · simpa [hworker, Worker.item] using hserial
    · exact fun hne => absurd hqueue hne
    · simp
  · rw [hqueue] at hfifo
    refine ⟨?_, ?_, ?_, ?_⟩
    · simpa [enqueued, started] using hfifo
    · have hended : finished notes = started notes := by simpa [hworker, Worker.item] using hserial
      simpa [started, finished, Worker.item] using hended
    · simp
    · simp
  · refine ⟨by simpa [enqueued, started] using hfifo, ?_, ?_, ?_⟩
    · simpa [hworker, started, finished, Worker.item] using hserial
    · simp
    · simpa [hworker] using howner

/-- Every action does. -/
theorem Sound.act [DecidableEq γ] (h : q.Sound notes) (hact : q.act a = some (note, q')) :
    q'.Sound (notes ++ note.toList) := by
  rcases act_cases hact with ⟨-, hwork⟩ | ⟨t, -, hmutex, rfl, rfl⟩ |
    ⟨t, item, -, hmutex, rfl, rfl⟩ | ⟨t, -, hmutex, rfl, rfl⟩ | ⟨-, hworker, rfl, rfl⟩
  · exact h.work hwork
  · refine ⟨by simpa using h.fifo, by simpa using h.serial, h.awake, ?_⟩
    have howner := h.owner
    simpa [hmutex] using howner
  · refine ⟨?_, ?_, fun _ => signalled_ne_waiting _, ?_⟩
    · have hfifo := h.fifo
      simp only [enqueued, started] at hfifo
      simp [enqueued, started, ← hfifo]
    · have hserial := h.serial
      simp only [started, finished] at hserial
      simp [started, finished, hserial]
    · rw [signalled_eq_checking]
      exact h.owner
  · refine ⟨by simpa using h.fifo, by simpa using h.serial, h.awake, ?_⟩
    have howner := h.owner
    simpa [hmutex] using howner
  · have hserial := h.serial
    have howner := h.owner
    refine ⟨by simpa using h.fifo, ?_, by simp, ?_⟩
    · simpa [hworker, Worker.item] using hserial
    · simpa [hworker] using howner

/-- Nothing else than an append enqueues. -/
theorem enqueued_of_act [DecidableEq γ] (hact : q.act a = some (note, q'))
    (hother : ∀ t item, a ≠ .append t item) : enqueued note.toList = [] := by
  rcases act_cases hact with ⟨-, hwork⟩ | ⟨t, -, -, rfl, -⟩ | ⟨t, item, rfl, -⟩ |
    ⟨t, -, -, rfl, -⟩ | ⟨-, -, rfl, -⟩
  · rcases work_cases hwork with ⟨-, -, rfl, -⟩ | ⟨-, -, rfl, -⟩ | ⟨item, rest, -, -, rfl, -⟩ |
      ⟨item, -, rfl, -⟩
    · rfl
    · rfl
    · rfl
    · rfl
  · rfl
  · exact absurd rfl (hother t item)
  · rfl
  · rfl

/-- The worker takes the mutex from nobody and gives it to nobody. -/
theorem producer_work (h : q.Sound notes) (hwork : q.work = some (note, q')) (t : γ) :
    q'.mutex = some (.producer t) ↔ q.mutex = some (.producer t) := by
  have howner := h.owner
  rcases work_cases hwork with ⟨-, hfree, -, rfl⟩ | ⟨hworker, -, -, rfl⟩ |
    ⟨item, rest, hworker, -, -, rfl⟩ | ⟨item, -, -, rfl⟩
  · simp [hfree]
  · simp [howner.mpr hworker]
  · simp [howner.mpr hworker]
  · rfl

theorem producer_wake [DecidableEq γ] (hact : q.act .wake = some (note, q')) (t : γ) :
    q'.mutex = some (.producer t) ↔ q.mutex = some (.producer t) := by
  simp only [act] at hact
  split at hact
  · cases hact
    rfl
  · cases hact

/-- A worker with work to do moves, or waits for a producer to let go. -/
theorem can_work (h : q.Sound notes) (hqueue : q.queue ≠ []) :
    (∃ note q', q.work = some (note, q')) ∨ ∃ t, q.mutex = some (.producer t) := by
  have hlock : q.worker = .locking ∨ q.worker = .woken →
      (∃ note q', q.work = some (note, q')) ∨ ∃ t, q.mutex = some (.producer t) := by
    intro hworker
    have hnot : q.worker ≠ .checking := by
      rcases hworker with hworker | hworker
      · simp [hworker]
      · simp [hworker]
    rcases hmutex : q.mutex with _ | _ | t
    · refine .inl ⟨none, { q with mutex := some .worker, worker := .checking }, ?_⟩
      rcases hworker with hworker | hworker
      · simp [work, hworker, hmutex]
      · simp [work, hworker, hmutex]
    · exact absurd (h.owner.mp hmutex) hnot
    · exact .inr ⟨t, rfl⟩
  cases hworker : q.worker with
  | locking => exact hlock (.inl hworker)
  | woken => exact hlock (.inr hworker)
  | checking =>
      obtain ⟨item, rest, hitems⟩ := List.exists_cons_of_ne_nil hqueue
      exact .inl ⟨some (.started item), ⟨rest, none, .executing item⟩, by simp [work, hworker, hitems]⟩
  | waiting => exact absurd hworker (h.awake hqueue)
  | executing item =>
      exact .inl ⟨some (.finished item), { q with worker := .locking }, by simp [work, hworker]⟩

/-! ## Progress -/

/-- How many moves the worker makes, at most, until it starts the next item of a filled queue. -/
def pace : Worker ω → Nat
  | .checking => 1
  | .locking | .woken => 2
  | .waiting | .executing _ => 3

/-- How many moves of the worker are left, at most, until `target` items have been started. -/
def owed (target : Nat) (q : WorkQueue γ ω) (notes : List (Note ω)) : Nat :=
  if target ≤ (started notes).length then 0
  else 3 * (target - (started notes).length - 1) + pace q.worker

/-- There are items for the worker up to the target. -/
def Within (target : Nat) (q : WorkQueue γ ω) (notes : List (Note ω)) : Prop :=
  target ≤ (started notes).length + q.queue.length

theorem owed_eq_zero {target : Nat} :
    owed target q notes = 0 ↔ target ≤ (started notes).length := by
  have hpace : 0 < pace q.worker := by cases q.worker <;> simp [pace]
  unfold owed
  split
  · simpa
  · constructor
    · intro h
      omega
    · intro h
      omega

theorem owed_le (target : Nat) (q : WorkQueue γ ω) (notes : List (Note ω)) :
    owed target q notes ≤ 3 * (target - (started notes).length) := by
  have hpace : pace q.worker ≤ 3 := by cases q.worker <;> simp [pace]
  unfold owed
  split
  · exact Nat.zero_le _
  · omega

/-- The worker gets on with every move of its own. -/
theorem owed_work {target : Nat} (hwithin : Within target q notes)
    (hwork : q.work = some (note, q')) :
    Within target q' (notes ++ note.toList) ∧
      owed target q' (notes ++ note.toList) ≤ owed target q notes - 1 := by
  unfold Within at hwithin ⊢
  rcases work_cases hwork with ⟨hworker, -, rfl, rfl⟩ | ⟨hworker, hqueue, rfl, rfl⟩ |
    ⟨item, rest, hworker, hqueue, rfl, rfl⟩ | ⟨item, hworker, rfl, rfl⟩
  · have hpace : pace q.worker = 2 := by
      rcases hworker with hworker | hworker
      · rw [hworker]; rfl
      · rw [hworker]; rfl
    have hchecking : pace (Worker.checking : Worker ω) = 1 := rfl
    refine ⟨by simpa using hwithin, ?_⟩
    simp only [owed, hpace, hchecking, Option.toList_none, List.append_nil]
    split <;> omega
  · -- the queue is empty, so the target is reached
    rw [hqueue, List.length_nil] at hwithin
    refine ⟨by simpa [hqueue] using hwithin, ?_⟩
    simp [owed, if_pos (show target ≤ (started notes).length from hwithin)]
  · have hlength : (started (notes ++ [Note.started item])).length = (started notes).length + 1 := by
      simp [started]
    rw [hqueue, List.length_cons] at hwithin
    simp only [Option.toList_some, owed, hlength, hworker, pace]
    refine ⟨by omega, ?_⟩
    split
    · exact Nat.zero_le _
    · rw [if_neg (by omega)]
      omega
  · have hsame : started (notes ++ [Note.finished item]) = started notes := by simp [started]
    simp only [Option.toList_some, owed, hsame, hworker, pace]
    refine ⟨hwithin, ?_⟩
    split <;> omega

/-- Other threads do not set it back. -/
theorem owed_act [DecidableEq γ] {target : Nat} (hwithin : Within target q notes)
    (hact : q.act a = some (note, q')) :
    Within target q' (notes ++ note.toList) ∧
      owed target q' (notes ++ note.toList) ≤ owed target q notes := by
  rcases act_cases hact with ⟨-, hwork⟩ | ⟨t, -, -, rfl, rfl⟩ | ⟨t, item, -, -, rfl, rfl⟩ |
    ⟨t, -, -, rfl, rfl⟩ | ⟨-, hworker, rfl, rfl⟩
  · obtain ⟨hwithin', hless⟩ := owed_work hwithin hwork
    exact ⟨hwithin', Nat.le_trans hless (Nat.sub_le ..)⟩
  · simpa [Within, owed] using hwithin
  · have hsame : started (notes ++ [Note.enqueued item]) = started notes := by simp [started]
    have hpace : pace q.worker.signalled ≤ pace q.worker := by
      cases q.worker <;> simp [Worker.signalled, pace]
    unfold Within at hwithin ⊢
    simp only [Option.toList_some, owed, hsame, List.length_append, List.length_singleton]
    refine ⟨by omega, ?_⟩
    split <;> omega
  · simpa [Within, owed] using hwithin
  · unfold Within at hwithin ⊢
    simp only [Option.toList_none, List.append_nil, owed, hworker, pace]
    refine ⟨hwithin, ?_⟩
    split <;> omega

end WorkQueue

end Muxly.Sync
