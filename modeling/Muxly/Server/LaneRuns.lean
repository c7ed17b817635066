/-
# Muxly.Server.LaneRuns -- every item once, in order, on the lane of its key

`Working` joins the lanes to their work queues: the mutex of a lane is where the callers say it is,
and the queue is sound against what the log notes of the lane. With `Registry` it is kept by every
step, whatever fails; `ExecutesOnce` is what follows for runs.
-/
import Mathlib.Data.List.Pairwise
import Muxly.Server.LaneRegistry

namespace Muxly.Server.Lanes

open Muxly.Core Muxly.Sync
open Muxly.Conversation (ExecutionLane)

variable {γ ω ρ : Type}

namespace ServerExecutor

variable {c c' : ServerExecutor γ ω} {log log' : List (Event ω)} {t : γ} {e : Option (Event ω)}

/-! ## The work of the lanes -/

/-- What holds of the queues and of the callers that fill them. -/
structure Working (c : ServerExecutor γ ω) (log : List (Event ω)) : Prop where
  sound : ∀ (l : Nat) (lane : Lane γ ω), c.lanes[l]? = some lane → lane.work.Sound (notesOn l log)
  inside : ∀ (t : γ) (l : Nat) (lane : Lane γ ω), c.lanes[l]? = some lane →
    (lane.work.mutex = some (.producer t) ↔ (c.caller t).Inside l)

namespace Working

variable [DecidableEq γ]

/-- A caller goes on that keeps the mutexes it has. -/
theorem goto (h : Working c log) {k : Caller ω} (hlanes : c'.lanes = c.lanes)
    (hcaller : c'.caller = Function.update c.caller t k)
    (hk : ∀ l, k.Inside l ↔ (c.caller t).Inside l) : Working c' log := by
  constructor
  · rw [hlanes]
    exact h.sound
  · intro u l lane hlane
    rw [hlanes] at hlane
    rw [h.inside u l lane hlane, hcaller]
    by_cases hu : u = t
    · subst hu
      rw [Function.update_self, hk]
    · rw [Function.update_of_ne hu]

/-- An action on lane `l` by which the mutexes become what the callers say. -/
theorem onLane {c₀ : ServerExecutor γ ω} (h : Working c₀ log) {l : Nat}
    {a : WorkQueue.Action γ ω} (hlanes : c.lanes = c₀.lanes) (hact : c.onLane l a = some (e, c'))
    (hother : ∀ u l', l' ≠ l → ((c.caller u).Inside l' ↔ (c₀.caller u).Inside l'))
    (hhere : ∀ (lane : Lane γ ω) note work, c₀.lanes[l]? = some lane →
      lane.work.act a = some (note, work) →
      ∀ u, work.mutex = some (.producer u) ↔ (c.caller u).Inside l) :
    Working c' (log ++ e.toList) := by
  obtain ⟨lane, note, work, hlane, hdone, rfl, rfl⟩ := onLane_eq_some.mp hact
  rw [hlanes] at hlane
  have hlt := (List.getElem?_eq_some_iff.mp hlane).1
  constructor
  · intro l' lane' hlane'
    change (c.lanes.set l { lane with work := work })[l']? = some lane' at hlane'
    rw [hlanes, List.getElem?_set] at hlane'
    rw [notesOn_append]
    split at hlane'
    · rename_i heq
      subst heq
      obtain rfl := Option.some.inj hlane'
      rw [notesOn_noted]
      exact (h.sound l lane hlane).act hdone
    · rename_i hne
      rw [notesOn_noted_of_ne hne, List.append_nil]
      exact h.sound l' lane' hlane'
  · intro u l' lane' hlane'
    change (c.lanes.set l { lane with work := work })[l']? = some lane' at hlane'
    rw [hlanes, List.getElem?_set] at hlane'
    split at hlane'
    · rename_i heq
      subst heq
      obtain rfl := Option.some.inj hlane'
      exact hhere lane note work hlane hdone u
    · rename_i hne
      rw [h.inside u l' lane' hlane']
      exact (hother u l' (Ne.symm hne)).symm

/-- A caller goes on at `k` and acts on lane `l`, and has the mutexes that `k` says. -/
theorem goto_onLane (h : Working c log) {k : Caller ω} {l : Nat} {a : WorkQueue.Action γ ω}
    (hact : (c.goto t k).onLane l a = some (e, c'))
    (hother : ∀ l', l' ≠ l → (k.Inside l' ↔ (c.caller t).Inside l'))
    (hhere : ∀ (lane : Lane γ ω) note work, c.lanes[l]? = some lane →
      lane.work.act a = some (note, work) →
      (work.mutex = some (.producer t) ↔ k.Inside l) ∧
      ∀ u, u ≠ t → (work.mutex = some (.producer u) ↔ lane.work.mutex = some (.producer u))) :
    Working c' (log ++ e.toList) := by
  refine h.onLane (c := c.goto t k) rfl hact (fun u l' hne => ?_) fun lane note work hlane hdone u => ?_
  · show (Function.update c.caller t k u).Inside l' ↔ _
    by_cases hu : u = t
    · subst hu
      rw [Function.update_self]
      exact hother l' hne
    · rw [Function.update_of_ne hu]
  · obtain ⟨hself, hothers⟩ := hhere lane note work hlane hdone
    show _ ↔ (Function.update c.caller t k u).Inside l
    by_cases hu : u = t
    · subst hu
      rw [Function.update_self]
      exact hself
    · rw [Function.update_of_ne hu, hothers u hu]
      exact h.inside u l lane hlane

theorem create (h : Working c log) (hr : Registry c log) {laneKey : ExecutionLane} {queued : ω}
    (ht : c.caller t = .creating laneKey queued) :
    Working { c.goto t (.appending laneKey c.lanes.length queued) with
      lanes := c.lanes ++ [Lane.ofKey laneKey] } log := by
  have hnone : c.keyOf c.lanes.length = none := by
    rw [keyOf, List.getElem?_eq_none (Nat.le_refl _)]
    rfl
  have hcases : ∀ {l lane}, (c.lanes ++ [Lane.ofKey laneKey])[l]? = some lane →
      c.lanes[l]? = some lane ∨ l = c.lanes.length ∧ lane = Lane.ofKey laneKey := by
    intro l lane hlane
    by_cases hlt : l < c.lanes.length
    · rw [List.getElem?_append_left hlt] at hlane
      exact .inl hlane
    · rw [List.getElem?_append_right (Nat.not_lt.mp hlt)] at hlane
      obtain ⟨hzero, heq⟩ := List.getElem?_eq_some_iff.mp hlane
      simp only [List.length_singleton] at hzero
      refine .inr ⟨by omega, ?_⟩
      rw [← heq, List.getElem_singleton]
  constructor
  · intro l lane hlane
    rcases hcases hlane with hlane | ⟨rfl, rfl⟩
    · exact h.sound l lane hlane
    · rw [Lane.work_ofKey, hr.noted _ hnone]
      exact .fresh
  · intro u l lane hlane
    show _ ↔ (Function.update c.caller t _ u).Inside l
    have hcaller : (Function.update c.caller t (.appending laneKey c.lanes.length queued) u).Inside l
        ↔ (c.caller u).Inside l := by
      by_cases hu : u = t
      · subst hu
        rw [Function.update_self, ht]
        exact Iff.rfl
      · rw [Function.update_of_ne hu]
    rw [hcaller]
    rcases hcases hlane with hlane | ⟨rfl, rfl⟩
    · exact h.inside u l lane hlane
    · rw [Lane.work_ofKey]
      refine iff_of_false (by simp [WorkQueue.fresh]) fun hin => ?_
      obtain ⟨k, hkey⟩ := hr.keyOf_of_held (hr.held_of_inside hin)
      rw [hnone] at hkey
      cases hkey

theorem resume (h : Working c log) (hr : Registry c log) (hstep : Resumes c t e c') :
    Working c' (log ++ e.toList) := by
  cases hstep with
  | root ht | lock ht _ _ | found ht _ | missing ht _ | notCreated ht | appended ht
  | resolved ht | failed ht | notEnqueued ht =>
      rw [Option.toList_none, List.append_nil]
      exact h.goto rfl rfl (by rw [ht]; exact fun _ => Iff.rfl)
  | created ht =>
      rw [Option.toList_none, List.append_nil]
      exact h.create hr ht
  | @abandoned laneKey given queued ht =>
      have hgoto : Working (c.goto t (.leaving laneKey none queued)) log :=
        h.goto rfl rfl (by rw [ht]; exact fun _ => Iff.rfl)
      refine ⟨fun l lane hlane => ?_, hgoto.inside⟩
      have hnone : (notesOn l [.abandoned given] : List (WorkQueue.Note ω)) = [] := rfl
      rw [notesOn_append, Option.toList_some, hnone, List.append_nil]
      exact hgoto.sound l lane hlane
  | entered ht hact =>
      refine h.goto_onLane hact (fun l' hne => ?_) fun lane note work hlane hdone => ?_
      · rw [ht]
        exact iff_of_false (fun heq => hne heq.symm) not_false
      · simp only [WorkQueue.act, Option.ite_none_right_eq_some, Option.some.injEq,
          Prod.mk.injEq] at hdone
        obtain ⟨hfree, rfl, rfl⟩ := hdone
        refine ⟨iff_of_true rfl rfl, fun u hu => ?_⟩
        simp [hfree, Ne.symm hu]
  | enqueued ht hact =>
      refine h.goto_onLane hact (fun l' _ => by rw [ht]; exact Iff.rfl) fun lane note work hlane hdone => ?_
      simp only [WorkQueue.act, Option.ite_none_right_eq_some, Option.some.injEq,
        Prod.mk.injEq] at hdone
      obtain ⟨hmutex, rfl, rfl⟩ := hdone
      exact ⟨iff_of_true hmutex rfl, fun u hu => Iff.rfl⟩
  | left ht hact =>
      refine h.goto_onLane hact (fun l' hne => ?_) fun lane note work hlane hdone => ?_
      · rw [ht]
        exact iff_of_false not_false fun heq => hne heq.symm
      · simp only [WorkQueue.act, Option.ite_none_right_eq_some, Option.some.injEq,
          Prod.mk.injEq] at hdone
        obtain ⟨hmutex, rfl, rfl⟩ := hdone
        refine ⟨iff_of_false (by simp) not_false, fun u hu => ?_⟩
        simp [hmutex, Ne.symm hu]

end Working

/-! ## Runs -/

/-- The invariant of runs. -/
structure Ordered (c : ServerExecutor γ ω) (log : List (Event ω)) : Prop where
  registry : Registry c log
  working : Working c log

theorem Ordered.init : Ordered (init : ServerExecutor γ ω) [] where
  registry := by
    refine ⟨rfl, ?_, .nil, ?_, fun _ => trivial, ?_, ?_, fun _ _ => rfl, fun _ _ => rfl⟩
    · intro l hl
      cases hl
    · exact fun t => iff_of_false (by simp [ServerExecutor.init]) not_false
    · intro l laneKey hkey
      cases l with
      | zero => exact .inl (.inl rfl)
      | succ l => cases hkey
    · intro l habandoned
      cases habandoned
  working := by
    constructor
    · intro l lane hlane
      cases l with
      | zero =>
          obtain rfl := Option.some.inj hlane
          exact .fresh
      | succ l => cases hlane
    · intro t l lane hlane
      cases l with
      | zero =>
          obtain rfl := Option.some.inj hlane
          exact iff_of_false (by simp [Lane.initRoot, WorkQueue.fresh]) not_false
      | succ l => cases hlane

variable [DecidableEq γ] {c c' : ServerExecutor γ (QueuedWork ρ)} {log : List (Event (QueuedWork ρ))}
  {e : Option (Event (QueuedWork ρ))} {m : Move γ ρ}

/-- An action of a worker, or a wake-up, while no caller goes on. -/
theorem Ordered.onLane (h : Ordered c log) {l : Nat} {a : WorkQueue.Action γ (QueuedWork ρ)}
    (ha : a = .work ∨ a = .wake) (hact : c.onLane l a = some (e, c')) :
    Ordered c' (log ++ e.toList) := by
  refine ⟨h.registry.onLane hact fun u item heq => ?_, ?_⟩
  · rcases ha with rfl | rfl
    · cases heq
    · cases heq
  · refine h.working.onLane rfl hact (fun _ _ _ => Iff.rfl) fun lane note work hlane hdone u => ?_
    rw [← h.working.inside u l lane hlane]
    rcases ha with rfl | rfl
    · exact WorkQueue.producer_work (h.working.sound l lane hlane) hdone u
    · exact WorkQueue.producer_wake hdone u

theorem Ordered.step (h : Ordered c log) (hstep : step m c = some (e, c')) :
    Ordered c' (log ++ e.toList) := by
  rcases step_cases hstep with ⟨t, laneKey, queued, ht, rfl, rfl⟩ | ⟨t, queued, ht, rfl, rfl⟩ |
    ⟨t, hresumes⟩ | ⟨l, -, hact⟩ | ⟨l, hact⟩
  · rw [Option.toList_none, List.append_nil]
    refine ⟨h.registry.goto (k := .resolving laneKey queued) trivial (.inl ⟨rfl, ?_⟩) (by simp [ht]),
      h.working.goto rfl rfl (by rw [ht]; exact fun _ => Iff.rfl)⟩
    rw [ht]
    exact Iff.rfl
  · rw [Option.toList_none, List.append_nil]
    refine ⟨h.registry.goto (k := .calling .root 0 queued) ⟨.inl rfl, h.registry.root⟩
      (.inl ⟨rfl, ?_⟩) (by simp [ht]), h.working.goto rfl rfl (by rw [ht]; exact fun _ => Iff.rfl)⟩
    rw [ht]
    exact Iff.rfl
  · exact ⟨h.registry.resume hresumes, h.working.resume h.registry hresumes⟩
  · exact h.onLane (.inl rfl) hact
  · exact h.onLane (.inr rfl) hact

/-- What runs reach is ordered. -/
theorem Ordered.of_runs
    (h : Runs (logged (ServerExecutor.step (γ := γ) (ρ := ρ))) unrestricted
      (ServerExecutor.init, []) (c, log)) : Ordered c log := by
  refine h.invariant (I := fun s => Ordered s.1 s.2) .init fun s m s' hs _ hstep => ?_
  obtain ⟨e, hstep, hlog⟩ := logged_eq_some.mp hstep
  rw [hlog]
  exact hs.step hstep

/-! ## Progress of a lane -/

/-- An action on one lane, seen from any lane. -/
theorem onLane_lane {l l₀ : Nat} {lane : Lane γ (QueuedWork ρ)}
    {a : WorkQueue.Action γ (QueuedWork ρ)} (hlane : c.lanes[l]? = some lane)
    (hact : c.onLane l₀ a = some (e, c')) :
    ∃ lane', c'.lanes[l]? = some lane' ∧
      (l ≠ l₀ ∧ lane' = lane ∧ notesOn l e.toList = [] ∨
      l = l₀ ∧ ∃ note, lane.work.act a = some (note, lane'.work) ∧
        notesOn l e.toList = note.toList) := by
  obtain ⟨lane₀, note, work, hlane₀, hdone, rfl, rfl⟩ := onLane_eq_some.mp hact
  show ∃ lane', (c.lanes.set l₀ { lane₀ with work := work })[l]? = some lane' ∧ _
  rw [List.getElem?_set]
  by_cases hl : l₀ = l
  · subst hl
    obtain rfl := Option.some.inj (hlane.symm.trans hlane₀)
    rw [if_pos rfl, if_pos (List.getElem?_eq_some_iff.mp hlane).1]
    exact ⟨_, rfl, .inr ⟨rfl, note, hdone, notesOn_noted _ note⟩⟩
  · rw [if_neg hl]
    exact ⟨lane, hlane, .inl ⟨Ne.symm hl, rfl, notesOn_noted_of_ne hl note⟩⟩

/-- A step of a caller, seen from any lane. -/
theorem Resumes.lane {t : γ} (h : Resumes c t e c') {l : Nat} {lane : Lane γ (QueuedWork ρ)}
    (hlane : c.lanes[l]? = some lane) :
    ∃ lane', c'.lanes[l]? = some lane' ∧
      (lane' = lane ∧ notesOn l e.toList = [] ∨
      ∃ a note, lane.work.act a = some (note, lane'.work) ∧ notesOn l e.toList = note.toList) := by
  cases h with
  | root _ | lock _ _ _ | found _ _ | missing _ _ | notCreated _ | appended _ | resolved _
  | failed _ | notEnqueued _ => exact ⟨lane, hlane, .inl ⟨rfl, rfl⟩⟩
  | abandoned _ => exact ⟨lane, hlane, .inl ⟨rfl, rfl⟩⟩
  | created _ =>
      refine ⟨lane, ?_, .inl ⟨rfl, rfl⟩⟩
      show (c.lanes ++ _)[l]? = some lane
      rw [List.getElem?_append_left (List.getElem?_eq_some_iff.mp hlane).1, hlane]
  | entered _ hact | enqueued _ hact | left _ hact =>
      obtain ⟨lane', hlane', ⟨-, hsame⟩ | ⟨-, note, hdone⟩⟩ := onLane_lane (c := c.goto t _) hlane hact
      · exact ⟨lane', hlane', .inl hsame⟩
      · exact ⟨lane', hlane', .inr ⟨_, note, hdone⟩⟩

/-- The worker of a lane gets on with every move of its own, and with no move of others back. -/
theorem owed_step {l : Nat} {lane : Lane γ (QueuedWork ρ)} {target : Nat}
    (hlane : c.lanes[l]? = some lane)
    (hwithin : WorkQueue.Within target lane.work (notesOn l log))
    (hstep : step m c = some (e, c')) :
    ∃ lane', c'.lanes[l]? = some lane' ∧
      WorkQueue.Within target lane'.work (notesOn l (log ++ e.toList)) ∧
      WorkQueue.owed target lane'.work (notesOn l (log ++ e.toList)) ≤
        WorkQueue.owed target lane.work (notesOn l log) - (if m.isWorker l then 1 else 0) := by
  rw [notesOn_append]
  -- a move that leaves the lane alone, and one that is an action on it
  have hother : ∀ {lane'}, m.isWorker l = false →
      (lane' = lane ∧ notesOn l e.toList = [] ∨
        ∃ a note, lane.work.act a = some (note, lane'.work) ∧ notesOn l e.toList = note.toList) →
      WorkQueue.Within target lane'.work (notesOn l log ++ notesOn l e.toList) ∧
        WorkQueue.owed target lane'.work (notesOn l log ++ notesOn l e.toList) ≤
          WorkQueue.owed target lane.work (notesOn l log) - (if m.isWorker l then 1 else 0) := by
    rintro lane' hm (⟨rfl, hnotes⟩ | ⟨a, note, hdone, hnotes⟩)
    · rw [hnotes, List.append_nil, hm]
      exact ⟨hwithin, Nat.le_refl _⟩
    · rw [hnotes, hm]
      exact WorkQueue.owed_act hwithin hdone
  have hcaller : m.isWorker l = false → c'.lanes = c.lanes → e = none →
      ∃ lane', c'.lanes[l]? = some lane' ∧
        WorkQueue.Within target lane'.work (notesOn l log ++ notesOn l e.toList) ∧
        WorkQueue.owed target lane'.work (notesOn l log ++ notesOn l e.toList) ≤
          WorkQueue.owed target lane.work (notesOn l log) - (if m.isWorker l then 1 else 0) := by
    rintro hm hlanes rfl
    exact ⟨lane, by rw [hlanes, hlane], hother hm (.inl ⟨rfl, rfl⟩)⟩
  cases m with
  | enqueue t laneKey request =>
      simp only [step] at hstep
      split at hstep
      · cases hstep
        exact hcaller rfl rfl rfl
      · cases hstep
  | enqueueRootMaintenance t kind =>
      simp only [step] at hstep
      split at hstep
      · cases hstep
        exact hcaller rfl rfl rfl
      · cases hstep
  | resume t ok =>
      obtain ⟨lane', hlane', hcases⟩ := (Resumes.of_resume hstep).lane hlane
      exact ⟨lane', hlane', hother rfl hcases⟩
  | worker l₀ =>
      obtain ⟨lane', hlane', ⟨hne, rfl, hnotes⟩ | ⟨rfl, note, hdone, hnotes⟩⟩ :=
        onLane_lane hlane hstep
      · exact ⟨lane', hlane', hother (by simp [Move.isWorker, Ne.symm hne]) (.inl ⟨rfl, hnotes⟩)⟩
      · rw [hnotes, if_pos (by simp [Move.isWorker])]
        exact ⟨lane', hlane', WorkQueue.owed_work hwithin hdone⟩
  | spurious l₀ =>
      obtain ⟨lane', hlane', ⟨-, rfl, hnotes⟩ | ⟨-, note, hdone, hnotes⟩⟩ :=
        onLane_lane hlane hstep
      · exact ⟨lane', hlane', hother rfl (.inl ⟨rfl, hnotes⟩)⟩
      · exact ⟨lane', hlane', hother rfl (.inr ⟨_, note, hdone, hnotes⟩)⟩

/-- Enough moves of the worker start the items up to the target, whatever happens in between. -/
theorem started_of_follow {l : Nat} {lane : Lane γ (QueuedWork ρ)} {target : Nat}
    {log' : List (Event (QueuedWork ρ))} {schedule : List (Move γ ρ)}
    (hlane : c.lanes[l]? = some lane)
    (hwithin : WorkQueue.Within target lane.work (notesOn l log))
    (hfollow : follow (logged step) unrestricted (c, log) schedule = some (c', log'))
    (henough : WorkQueue.owed target lane.work (notesOn l log) ≤ schedule.countP (·.isWorker l)) :
    target ≤ (WorkQueue.started (notesOn l log')).length := by
  induction schedule generalizing c log lane with
  | nil =>
      obtain rfl := congrArg Prod.snd (Option.some.inj hfollow)
      exact WorkQueue.owed_eq_zero.mp (Nat.le_zero.mp henough)
  | cons m schedule ih =>
      rw [follow, if_pos (show unrestricted (c, log) m from trivial)] at hfollow
      split at hfollow
      · cases hfollow
      · rename_i s hstep
        obtain ⟨e, hstep, hlog⟩ := logged_eq_some.mp hstep
        obtain ⟨lane', hlane', hwithin', howed⟩ := owed_step hlane hwithin hstep
        rw [← hlog] at hwithin' howed
        refine ih hlane' hwithin' hfollow ?_
        rw [List.countP_cons] at henough
        omega

/-! ## The executor -/

/-- What the lane executor is for. -/
structure ExecutesOnce (c : ServerExecutor γ (QueuedWork ρ)) (log : List (Event (QueuedWork ρ))) :
    Prop where
  /-- There is one lane for a key, but for lanes that were given up when they could not be listed. -/
  oneLane : ∀ l l' laneKey, c.keyOf l = some laneKey → c.keyOf l' = some laneKey →
    .abandoned l ∉ log → .abandoned l' ∉ log → l = l'
  givenUp : ∀ l, .abandoned l ∈ log → WorkQueue.enqueued (notesOn l log) = []
  /-- A call appends to the lane of its key. -/
  itsLane : ∀ t laneKey l queued, c.caller t = .inLane laneKey l queued →
    c.keyOf l = some laneKey
  inOrder : ∀ l lane, c.lanes[l]? = some lane →
    WorkQueue.started (notesOn l log) ++ lane.work.queue = WorkQueue.enqueued (notesOn l log)
  oneAtATime : ∀ l lane, c.lanes[l]? = some lane →
    WorkQueue.finished (notesOn l log) ++ lane.work.worker.item.toList =
      WorkQueue.started (notesOn l log)
  /-- The worker of a filled queue moves, unless a caller that can move has its mutex. -/
  moves : ∀ l lane, c.lanes[l]? = some lane → lane.work.queue ≠ [] →
    (∃ r, step (.worker l) c = some r) ∨
    ∃ t, lane.work.mutex = some (.producer t) ∧ ∀ ok, ∃ r, step (.resume t ok) c = some r
  /-- Three moves of the worker for each item start what is queued, in any continuation. -/
  executed : ∀ l lane, c.lanes[l]? = some lane → ∀ n < lane.work.queue.length,
    ∀ schedule c' log', follow (logged step) unrestricted (c, log) schedule = some (c', log') →
      3 * (n + 1) ≤ schedule.countP (·.isWorker l) →
      (WorkQueue.started (notesOn l log)).length + n < (WorkQueue.started (notesOn l log')).length

omit [DecidableEq γ] in
theorem Ordered.oneLane (h : Ordered c log) {l l' : Nat} {laneKey : ExecutionLane}
    (hl : c.keyOf l = some laneKey) (hl' : c.keyOf l' = some laneKey)
    (hkept : .abandoned l ∉ log) (hkept' : .abandoned l' ∉ log) : l = l' := by
  have hr := h.registry
  -- a document lane is not the root lane, and two of them have different keys
  have hlisted : ∀ {x y}, c.Held x → c.Held y → c.keyOf x = some laneKey →
      c.keyOf y = some laneKey → x = y := by
    have hroot : ∀ {y}, y ∈ c.documentLanes → c.keyOf y = c.keyOf 0 → False := by
      intro y hy heq
      obtain ⟨k, hkey, hne⟩ := hr.listed y hy
      rw [hkey, hr.root] at heq
      exact hne (Option.some.inj heq)
    rintro x y (rfl | hx) (rfl | hy) hkeyx hkeyy
    · rfl
    · exact (hroot hy (hkeyy.trans hkeyx.symm)).elim
    · exact (hroot hx (hkeyx.trans hkeyy.symm)).elim
    · by_contra hne
      have : Std.Symm fun a b => c.keyOf a ≠ c.keyOf b := ⟨fun _ _ hab heq => hab heq.symm⟩
      exact hr.distinct.forall hx hy hne (hkeyx.trans hkeyy.symm)
  -- the lane that is being appended has the key of no lane that is listed
  have hnew : ∀ {x y t queued}, c.Held x → c.keyOf x = some laneKey →
      c.caller t = .appending laneKey y queued → False := by
    intro x y t queued hx hkey ht
    have hfits := hr.fits t
    rw [ht] at hfits
    rcases hx with rfl | hx
    · rw [hr.root] at hkey
      exact hfits.1 (Option.some.inj hkey).symm
    · exact hfits.2.1 x hx hkey
  rcases hr.made l laneKey hl with hheld | hgone | ⟨t, queued, ht⟩
  · rcases hr.made l' laneKey hl' with hheld' | hgone | ⟨t, queued, ht⟩
    · exact hlisted hheld hheld' hl hl'
    · exact absurd hgone hkept'
    · exact (hnew hheld hl ht).elim
  · exact absurd hgone hkept
  · rcases hr.made l' laneKey hl' with hheld' | hgone | ⟨u, queued', hu⟩
    · exact (hnew hheld' hl' ht).elim
    · exact absurd hgone hkept'
    · have heq : u = t := hr.alone (by rw [ht]; trivial) (by rw [hu]; trivial)
      rw [heq, ht] at hu
      cases hu
      rfl

theorem Ordered.moves (h : Ordered c log) {l : Nat} {lane : Lane γ (QueuedWork ρ)}
    (hlane : c.lanes[l]? = some lane) (hqueue : lane.work.queue ≠ []) :
    (∃ r, ServerExecutor.step (.worker l) c = some r) ∨
      ∃ t, lane.work.mutex = some (.producer t) ∧
        ∀ ok, ∃ r, ServerExecutor.step (.resume t ok) c = some r := by
  rcases WorkQueue.can_work (h.working.sound l lane hlane) hqueue with ⟨note, work, hwork⟩ | ⟨t, hmutex⟩
  · exact .inl ⟨_, onLane_eq_some.mpr ⟨lane, note, work, hlane, hwork, rfl, rfl⟩⟩
  · refine .inr ⟨t, hmutex, fun ok => ?_⟩
    have hinside := (h.working.inside t l lane hlane).mp hmutex
    have hact : ∀ k a, (lane.work.act a).isSome → ∃ r, (c.goto t k).onLane l a = some r := by
      intro k a hsome
      obtain ⟨⟨note, work⟩, hdone⟩ := Option.isSome_iff_exists.mp hsome
      exact ⟨_, onLane_eq_some.mpr ⟨lane, note, work, hlane, hdone, rfl, rfl⟩⟩
    show ∃ r, c.resume t ok = some r
    unfold resume
    cases hcaller : c.caller t with
    | inLane laneKey l₀ queued =>
        rw [hcaller] at hinside
        obtain rfl : l₀ = l := hinside
        cases ok with
        | true => exact hact (.unlocking l₀) (.append t queued) (by simp [WorkQueue.act, hmutex])
        | false => exact ⟨_, rfl⟩
    | unlocking l₀ =>
        rw [hcaller] at hinside
        obtain rfl : l₀ = l := hinside
        exact hact .idle (.unlock t) (by simp [WorkQueue.act, hmutex])
    | idle | resolving _ _ | searching _ _ | creating _ _ | appending _ _ _ | leaving _ _ _
    | calling _ _ _ =>
        rw [hcaller] at hinside
        cases hinside

/-- In every run of any number of threads that enqueue, of the workers and of the sleepers among them,
whatever fails: there is one lane for a key; the items of a lane are started in the order in which
they were enqueued, one at a time, each once; and a worker that keeps moving starts them all. -/
theorem lanes_execute_once
    (h : Runs (logged (step (γ := γ) (ρ := ρ))) unrestricted (ServerExecutor.init, []) (c, log)) :
    ExecutesOnce c log := by
  have hordered := Ordered.of_runs h
  refine ⟨fun l l' laneKey => hordered.oneLane, ?_, ?_, ?_, ?_, fun l lane => hordered.moves, ?_⟩
  · exact fun l hgone => hordered.registry.quiet l (hordered.registry.abandoned l hgone).1
  · intro t laneKey l queued ht
    have hfits := hordered.registry.fits t
    rw [ht] at hfits
    exact hfits.2
  · exact fun l lane hlane => (hordered.working.sound l lane hlane).fifo
  · exact fun l lane hlane => (hordered.working.sound l lane hlane).serial
  · intro l lane hlane n hn schedule c' log' hfollow henough
    have howed := WorkQueue.owed_le ((WorkQueue.started (notesOn l log)).length + n + 1) lane.work
      (notesOn l log)
    refine started_of_follow hlane ?_ hfollow (howed.trans ?_)
    · unfold WorkQueue.Within
      omega
    · omega

/-- Two threads ask for the coordinator of one document. The first one makes the lane, whose worker
falls asleep on the empty queue before the lane is listed; the second one is faster to enqueue. -/
def race : List (Move Nat Nat) :=
  let coordinator := ExecutionLane.documentCoordinator (ascii "/a")
  [.enqueue 0 coordinator 10, .enqueue 1 coordinator 11, .resume 0 true, .resume 0 true,
    .resume 0 true, .worker 1, .worker 1, .resume 0 true, .resume 0 true, .resume 1 true,
    .resume 1 true, .resume 1 true, .resume 1 true, .resume 1 true, .resume 1 true, .resume 0 true,
    .resume 0 true, .resume 0 true, .worker 1, .worker 1]

theorem lanes_execute_once_race :
    ∃ s : ServerExecutor Nat (QueuedWork Nat) × List (Event (QueuedWork Nat)),
      Runs (logged step) unrestricted (ServerExecutor.init, []) s ∧
      (s.1.lanes.length = 2 && s.1.lanes[1]?.any fun lane =>
        lane.work.queue.length = 1 && lane.work.worker.item.isSome) = true ∧
      ExecutesOnce s.1 s.2 := by
  obtain ⟨s, hs, htest⟩ := Runs.exists_of_follow (logged (step (γ := Nat) (ρ := Nat))) unrestricted
    (ServerExecutor.init, []) race (fun s => s.1.lanes.length = 2 && s.1.lanes[1]?.any fun lane =>
      lane.work.queue.length = 1 && lane.work.worker.item.isSome) (by rfl)
  exact ⟨s, hs, htest, lanes_execute_once hs⟩

end ServerExecutor

end Muxly.Server.Lanes
