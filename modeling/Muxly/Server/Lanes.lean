/-
# Muxly.Server.Lanes -- the lane executor

`ServerExecutor.enqueue` resolves the lane of a key, makes the lane if there is none, and appends to
its queue; every lane has a worker of its own. Any number of threads call it. A step is what one
thread does between two points at which another may come in: the registry of lanes is read and
written under `lanes_mutex`, a queue under the mutex of its lane, and an allocation or a spawn may
fail wherever the source says `try`.
-/
import Muxly.Conversation.Classify
import Muxly.Sync.WorkQueue

namespace Muxly.Server.Lanes

open Muxly.Core Muxly.Sync
open Muxly.Conversation (ExecutionLane)

/-- `MaintenanceKind`. -/
inductive MaintenanceKind where
  | pumpTmux

/-- `QueuedWork`; a request comes with its session. -/
inductive QueuedWork (ρ : Type) where
  | request (request : ρ)
  | maintenance (kind : MaintenanceKind)

/-- `Lane`: its name, and its queue with the mutex, the condition and the worker. -/
structure Lane (γ ω : Type) where
  documentPath : Option Bytes
  domainRootNodeId : Option Nat
  work : WorkQueue γ ω

namespace Lane

variable {γ ω : Type}

/-- `Lane.initRoot`. -/
def initRoot : Lane γ ω := ⟨none, none, WorkQueue.fresh⟩

/-- `Lane.initDocumentLane`. -/
def initDocumentLane (documentPath : Bytes) (domainRootNodeId : Option Nat) : Lane γ ω :=
  ⟨some documentPath, domainRootNodeId, WorkQueue.fresh⟩

/-- The lane that `resolveLane` makes for a key. -/
def ofKey : ExecutionLane → Lane γ ω
  | .root => initRoot
  | .documentCoordinator documentPath => initDocumentLane documentPath none
  | .documentDomain documentPath rootNodeId => initDocumentLane documentPath (some rootNodeId)

/-- The key that a lane is for. -/
def key (lane : Lane γ ω) : ExecutionLane :=
  match lane.documentPath, lane.domainRootNodeId with
  | none, _ => .root
  | some documentPath, none => .documentCoordinator documentPath
  | some documentPath, some rootNodeId => .documentDomain documentPath rootNodeId

/-- The comparison in the loops of `resolveLane`. -/
def serves (lane : Lane γ ω) : ExecutionLane → Bool
  | .root => false
  | .documentCoordinator documentPath =>
    lane.domainRootNodeId = none && lane.documentPath = some documentPath
  | .documentDomain documentPath rootNodeId =>
    lane.domainRootNodeId = some rootNodeId && lane.documentPath = some documentPath

@[simp] theorem key_ofKey (key : ExecutionLane) : (ofKey key : Lane γ ω).key = key := by
  cases key <;> rfl

@[simp] theorem work_ofKey (key : ExecutionLane) : (ofKey key : Lane γ ω).work = .fresh := by
  cases key <;> rfl

theorem serves_iff {lane : Lane γ ω} {key : ExecutionLane} (hkey : key ≠ .root) :
    lane.serves key = true ↔ lane.key = key := by
  obtain ⟨documentPath, domainRootNodeId, work⟩ := lane
  cases key with
  | root => exact absurd rfl hkey
  | documentCoordinator path =>
      cases documentPath <;> cases domainRootNodeId <;> simp [serves, Lane.key]
  | documentDomain path rootNodeId =>
      cases documentPath <;> cases domainRootNodeId <;> simp [serves, Lane.key, and_comm]

end Lane

/-- Where a thread is in `ServerExecutor.enqueue`. -/
inductive Caller (ω : Type) where
  | idle
  /-- At the `switch` of `resolveLane`. -/
  | resolving (laneKey : ExecutionLane) (queued : ω)
  /-- It has `lanes_mutex` from here on. -/
  | searching (laneKey : ExecutionLane) (queued : ω)
  | creating (laneKey : ExecutionLane) (queued : ω)
  /-- The lane is made, and its worker spawned. -/
  | appending (laneKey : ExecutionLane) (lane : Nat) (queued : ω)
  /-- About to unlock `lanes_mutex`, with the lane that was resolved, if one was. -/
  | leaving (laneKey : ExecutionLane) (lane : Option Nat) (queued : ω)
  /-- In `Lane.enqueue`. -/
  | calling (laneKey : ExecutionLane) (lane : Nat) (queued : ω)
  /-- It has the mutex of the lane from here on. -/
  | inLane (laneKey : ExecutionLane) (lane : Nat) (queued : ω)
  | unlocking (lane : Nat)

/-- `ServerExecutor`, with all lanes that were ever made, the root lane first. `document_lanes` points
to them by number. -/
structure ServerExecutor (γ ω : Type) where
  lanes : List (Lane γ ω)
  documentLanes : List Nat
  lanesMutex : Option γ
  caller : γ → Caller ω

/-- What happens to lanes. -/
inductive Event (ω : Type) where
  | noted (lane : Nat) (note : WorkQueue.Note ω)
  /-- A lane that was made could not be appended to `document_lanes`. -/
  | abandoned (lane : Nat)

/-- Who moves; `ok` says whether what the outside may refuse succeeds. -/
inductive Move (γ ρ : Type) where
  | enqueue (t : γ) (laneKey : ExecutionLane) (request : ρ)
  | enqueueRootMaintenance (t : γ) (kind : MaintenanceKind)
  | resume (t : γ) (ok : Bool)
  | worker (lane : Nat)
  /-- A wake-up for no reason. -/
  | spurious (lane : Nat)

/-- The worker of the lane moves. -/
def Move.isWorker {γ ρ : Type} (l : Nat) : Move γ ρ → Bool
  | .worker lane => lane = l
  | _ => false

namespace ServerExecutor

variable {γ ω ρ : Type} [DecidableEq γ]

/-- `ServerExecutor.init`. -/
def init : ServerExecutor γ ω := ⟨[Lane.initRoot], [], none, fun _ => .idle⟩

/-- The thread goes on at `caller`. -/
def goto (c : ServerExecutor γ ω) (t : γ) (caller : Caller ω) : ServerExecutor γ ω :=
  { c with caller := Function.update c.caller t caller }

/-- The loops of `resolveLane`. -/
def findLane (c : ServerExecutor γ ω) (laneKey : ExecutionLane) : Option Nat :=
  c.documentLanes.find? fun l => (c.lanes[l]?).any fun lane => lane.serves laneKey

/-- An action on the queue of a lane. -/
def onLane (c : ServerExecutor γ ω) (l : Nat) (a : WorkQueue.Action γ ω) :
    Option (Option (Event ω) × ServerExecutor γ ω) :=
  match c.lanes[l]? with
  | none => none
  | some lane => (lane.work.act a).map fun r =>
    (r.1.map (.noted l), { c with lanes := c.lanes.set l { lane with work := r.2 } })

/-- The next statement of `ServerExecutor.enqueue`. -/
def resume (c : ServerExecutor γ ω) (t : γ) (ok : Bool) :
    Option (Option (Event ω) × ServerExecutor γ ω) :=
  match c.caller t with
  | .idle => none
  | .resolving .root queued => some (none, c.goto t (.calling .root 0 queued))
  | .resolving laneKey queued =>
    if c.lanesMutex = none then
      some (none, { c.goto t (.searching laneKey queued) with lanesMutex := some t })
    else none
  | .searching laneKey queued =>
    match c.findLane laneKey with
    | some l => some (none, c.goto t (.leaving laneKey (some l) queued))
    | none => some (none, c.goto t (.creating laneKey queued))
  | .creating laneKey queued =>
    if ok then
      some (none, { c.goto t (.appending laneKey c.lanes.length queued) with
        lanes := c.lanes ++ [Lane.ofKey laneKey] })
    else some (none, c.goto t (.leaving laneKey none queued))
  | .appending laneKey l queued =>
    if ok then
      some (none, { c.goto t (.leaving laneKey (some l) queued) with
        documentLanes := c.documentLanes ++ [l] })
    else some (some (.abandoned l), c.goto t (.leaving laneKey none queued))
  | .leaving laneKey (some l) queued =>
    some (none, { c.goto t (.calling laneKey l queued) with lanesMutex := none })
  | .leaving _ none _ => some (none, { c.goto t .idle with lanesMutex := none })
  | .calling laneKey l queued => (c.goto t (.inLane laneKey l queued)).onLane l (.lock t)
  | .inLane _ l queued =>
    if ok then (c.goto t (.unlocking l)).onLane l (.append t queued)
    else some (none, c.goto t (.unlocking l))
  | .unlocking l => (c.goto t .idle).onLane l (.unlock t)

/-- One step. -/
def step (m : Move γ ρ) (c : ServerExecutor γ (QueuedWork ρ)) :
    Option (Option (Event (QueuedWork ρ)) × ServerExecutor γ (QueuedWork ρ)) :=
  match m with
  | .enqueue t laneKey request =>
    match c.caller t with
    | .idle => some (none, c.goto t (.resolving laneKey (.request request)))
    | _ => none
  | .enqueueRootMaintenance t kind =>
    match c.caller t with
    | .idle => some (none, c.goto t (.calling .root 0 (.maintenance kind)))
    | _ => none
  | .resume t ok => c.resume t ok
  | .worker l => c.onLane l .work
  | .spurious l => c.onLane l .wake

/-! ## What a step does -/

/-- What the next statement of `ServerExecutor.enqueue` does. -/
inductive Resumes (c : ServerExecutor γ ω) (t : γ) :
    Option (Event ω) → ServerExecutor γ ω → Prop
  | root {queued : ω} : c.caller t = .resolving .root queued →
      Resumes c t none (c.goto t (.calling .root 0 queued))
  | lock {laneKey : ExecutionLane} {queued : ω} : c.caller t = .resolving laneKey queued →
      laneKey ≠ .root → c.lanesMutex = none →
      Resumes c t none { c.goto t (.searching laneKey queued) with lanesMutex := some t }
  | found {laneKey : ExecutionLane} {queued : ω} {l : Nat} :
      c.caller t = .searching laneKey queued → c.findLane laneKey = some l →
      Resumes c t none (c.goto t (.leaving laneKey (some l) queued))
  | missing {laneKey : ExecutionLane} {queued : ω} : c.caller t = .searching laneKey queued →
      c.findLane laneKey = none → Resumes c t none (c.goto t (.creating laneKey queued))
  | created {laneKey : ExecutionLane} {queued : ω} : c.caller t = .creating laneKey queued →
      Resumes c t none { c.goto t (.appending laneKey c.lanes.length queued) with
        lanes := c.lanes ++ [Lane.ofKey laneKey] }
  | notCreated {laneKey : ExecutionLane} {queued : ω} : c.caller t = .creating laneKey queued →
      Resumes c t none (c.goto t (.leaving laneKey none queued))
  | appended {laneKey : ExecutionLane} {l : Nat} {queued : ω} :
      c.caller t = .appending laneKey l queued →
      Resumes c t none { c.goto t (.leaving laneKey (some l) queued) with
        documentLanes := c.documentLanes ++ [l] }
  | abandoned {laneKey : ExecutionLane} {l : Nat} {queued : ω} :
      c.caller t = .appending laneKey l queued →
      Resumes c t (some (.abandoned l)) (c.goto t (.leaving laneKey none queued))
  | resolved {laneKey : ExecutionLane} {l : Nat} {queued : ω} :
      c.caller t = .leaving laneKey (some l) queued →
      Resumes c t none { c.goto t (.calling laneKey l queued) with lanesMutex := none }
  | failed {laneKey : ExecutionLane} {queued : ω} : c.caller t = .leaving laneKey none queued →
      Resumes c t none { c.goto t .idle with lanesMutex := none }
  | entered {laneKey : ExecutionLane} {l : Nat} {queued : ω} {e : Option (Event ω)}
      {c' : ServerExecutor γ ω} : c.caller t = .calling laneKey l queued →
      (c.goto t (.inLane laneKey l queued)).onLane l (.lock t) = some (e, c') → Resumes c t e c'
  | enqueued {laneKey : ExecutionLane} {l : Nat} {queued : ω} {e : Option (Event ω)}
      {c' : ServerExecutor γ ω} : c.caller t = .inLane laneKey l queued →
      (c.goto t (.unlocking l)).onLane l (.append t queued) = some (e, c') → Resumes c t e c'
  | notEnqueued {laneKey : ExecutionLane} {l : Nat} {queued : ω} :
      c.caller t = .inLane laneKey l queued → Resumes c t none (c.goto t (.unlocking l))
  | left {l : Nat} {e : Option (Event ω)} {c' : ServerExecutor γ ω} :
      c.caller t = .unlocking l → (c.goto t .idle).onLane l (.unlock t) = some (e, c') →
      Resumes c t e c'

variable {c c' : ServerExecutor γ ω} {e : Option (Event ω)} {log : List (Event ω)}

theorem Resumes.of_resume {t : γ} {ok : Bool} (h : c.resume t ok = some (e, c')) :
    Resumes c t e c' := by
  unfold resume at h
  cases hcaller : c.caller t with
  | idle =>
      rw [hcaller] at h
      cases h
  | resolving laneKey queued =>
      rw [hcaller] at h
      cases laneKey with
      | root =>
          cases h
          exact .root hcaller
      | documentCoordinator _ | documentDomain _ _ =>
          simp only [Option.ite_none_right_eq_some, Option.some.injEq, Prod.mk.injEq] at h
          obtain ⟨hfree, rfl, rfl⟩ := h
          exact .lock hcaller (by simp) hfree
  | searching laneKey queued =>
      simp only [hcaller] at h
      split at h
      · rename_i l hfound
        cases h
        exact .found hcaller hfound
      · rename_i hmissing
        cases h
        exact .missing hcaller hmissing
  | creating laneKey queued =>
      simp only [hcaller] at h
      split at h
      · cases h
        exact .created hcaller
      · cases h
        exact .notCreated hcaller
  | appending laneKey l queued =>
      simp only [hcaller] at h
      split at h
      · cases h
        exact .appended hcaller
      · cases h
        exact .abandoned hcaller
  | leaving laneKey lane queued =>
      rw [hcaller] at h
      cases lane with
      | none =>
          cases h
          exact .failed hcaller
      | some l =>
          cases h
          exact .resolved hcaller
  | calling laneKey l queued =>
      rw [hcaller] at h
      exact .entered hcaller h
  | inLane laneKey l queued =>
      simp only [hcaller] at h
      split at h
      · exact .enqueued hcaller h
      · cases h
        exact .notEnqueued hcaller
  | unlocking l =>
      rw [hcaller] at h
      exact .left hcaller h

theorem onLane_eq_some {l : Nat} {a : WorkQueue.Action γ ω} :
    c.onLane l a = some (e, c') ↔ ∃ lane note work, c.lanes[l]? = some lane ∧
      lane.work.act a = some (note, work) ∧ e = note.map (.noted l) ∧
      c' = { c with lanes := c.lanes.set l { lane with work := work } } := by
  unfold onLane
  constructor
  · intro h
    split at h
    · cases h
    · rename_i lane hlane
      obtain ⟨⟨note, work⟩, hact, heq⟩ := Option.map_eq_some_iff.mp h
      cases heq
      exact ⟨lane, note, work, hlane, hact, rfl, rfl⟩
  · rintro ⟨lane, note, work, hlane, hact, rfl, rfl⟩
    rw [hlane]
    exact Option.map_eq_some_iff.mpr ⟨(note, work), hact, rfl⟩

/-- A step of the system: a call begins, goes on, or a worker or a sleeper of a lane moves. -/
theorem step_cases {c c' : ServerExecutor γ (QueuedWork ρ)} {e : Option (Event (QueuedWork ρ))}
    {m : Move γ ρ} (h : step m c = some (e, c')) :
    (∃ t laneKey queued, c.caller t = .idle ∧ e = none ∧
      c' = c.goto t (.resolving laneKey queued)) ∨
    (∃ t queued, c.caller t = .idle ∧ e = none ∧ c' = c.goto t (.calling .root 0 queued)) ∨
    (∃ t, Resumes c t e c') ∨
    (∃ l, m = .worker l ∧ c.onLane l .work = some (e, c')) ∨
    ∃ l, c.onLane l .wake = some (e, c') := by
  cases m with
  | enqueue t laneKey request =>
      simp only [step] at h
      split at h
      · rename_i hcaller
        cases h
        exact .inl ⟨t, laneKey, _, hcaller, rfl, rfl⟩
      · cases h
  | enqueueRootMaintenance t kind =>
      simp only [step] at h
      split at h
      · rename_i hcaller
        cases h
        exact .inr (.inl ⟨t, _, hcaller, rfl, rfl⟩)
      · cases h
  | resume t ok => exact .inr (.inr (.inl ⟨t, .of_resume h⟩))
  | worker l => exact .inr (.inr (.inr (.inl ⟨l, rfl, h⟩)))
  | spurious l => exact .inr (.inr (.inr (.inr ⟨l, h⟩)))

end ServerExecutor

end Muxly.Server.Lanes
