/-
# Muxly.Bridge.Streams -- the tasks of the H2 server of the bridge

`handle_h2_connection`, `start_h2_stream` and `finish_server_h2_stream`, as one task for every
accepted stream. A task checks the path, reads the body behind a gate that lets the tasks in by accept
sequence, takes the lane of its request and forwards it. What a task holds is a guard that its end
drops, whatever ended it; a task may also be dropped where it waits.

`Server.step` is one step of one task. `Acts` lists what such a step can do.
-/
import Mathlib.Data.Finset.Basic
import Mathlib.Logic.Function.Basic
import Muxly.Core.Types
import Muxly.Sync.Transitions

namespace Muxly.Bridge

open Muxly.Core Muxly.Sync

/-! ## The gate and the lanes -/

/-- `OrderedSequenceGateState`. -/
structure OrderedSequenceGate where
  busy : Bool
  nextSequence : Nat
  deriving DecidableEq

namespace OrderedSequenceGate

/-- `default`. -/
def init : OrderedSequenceGate := ⟨false, 1⟩

/-- One turn of the loop in `acquire`. -/
def acquire (gate : OrderedSequenceGate) (sequence : Nat) : Option OrderedSequenceGate :=
  if gate.busy = false ∧ gate.nextSequence = sequence then some { gate with busy := true } else none

/-- `release`. -/
def release (gate : OrderedSequenceGate) : OrderedSequenceGate where
  busy := false
  nextSequence := gate.nextSequence + 1

end OrderedSequenceGate

/-- `LaneQueueState`. -/
structure LaneQueue where
  busy : Bool
  waitingSequences : Finset Nat
  deriving DecidableEq

namespace LaneQueue

/-- `default`. -/
def init : LaneQueue := ⟨false, ∅⟩

/-- The first section of `acquire`. -/
def enter (queue : LaneQueue) (sequence : Nat) : LaneQueue :=
  { queue with waitingSequences := insert sequence queue.waitingSequences }

/-- `waiting_sequences.first()` is the sequence. -/
def IsFirst (queue : LaneQueue) (sequence : Nat) : Prop :=
  sequence ∈ queue.waitingSequences ∧ ∀ other ∈ queue.waitingSequences, sequence ≤ other

instance (queue : LaneQueue) (sequence : Nat) : Decidable (queue.IsFirst sequence) :=
  inferInstanceAs (Decidable (_ ∧ _))

/-- One turn of the loop in `acquire`. -/
def acquire (queue : LaneQueue) (sequence : Nat) : Option LaneQueue :=
  if queue.busy = false ∧ queue.IsFirst sequence then
    some ⟨true, queue.waitingSequences.erase sequence⟩
  else none

/-- `release`. -/
def release (queue : LaneQueue) : LaneQueue := { queue with busy := false }

end LaneQueue

/-! ## Tasks -/

/-- Where the task of a stream stands, with what it has read. -/
inductive Stage where
  /-- Spawned, with the path of its request. -/
  | accepted (path : Bytes)
  /-- In `body_read_queue.acquire`. -/
  | waitsForGate
  /-- In `read_h2_request_body`, with the guard of the gate. -/
  | readsBody
  /-- The guard is dropped, the lane map not asked yet. -/
  | leftGate (request : Bytes)
  /-- Out of the lane map, with the queue of its lane. -/
  | foundLane (request : Bytes)
  /-- In `lane_queue.acquire`, among the waiting sequences. -/
  | waitsForLane (request : Bytes)
  /-- With the guard of its lane, nothing sent upstream. -/
  | holdsLane (request : Bytes)
  /-- The request is written upstream. -/
  | forwarded (request : Bytes)
  /-- In `finish_server_h2_stream`, with the guard of its lane. -/
  | answers (request : Bytes)
  /-- In `finish_server_h2_stream`, without a guard. -/
  | streams
  | finished
  deriving DecidableEq

/-- The request in whose lane the task is, while it holds it. -/
def Stage.holds : Stage → Option Bytes
  | .holdsLane request | .forwarded request | .answers request => some request
  | _ => none

/-- What becomes of the write of a request. -/
inductive Delivery where
  /-- The upstream cannot be reached. -/
  | unreachable
  /-- The write fails after some of it. -/
  | broken
  | sent
  deriving DecidableEq

/-- What a task does next. -/
inductive Action where
  /-- Compare the path. -/
  | start
  | takeGate
  /-- Read the body, or fail to, and drop the guard. -/
  | readBody (request : Option Bytes)
  | findLane
  | enterLane
  | takeLane
  | forward (delivery : Delivery)
  /-- Send the head of the response. -/
  | respond (ok : Bool)
  /-- Come to the end of the response, or fail to. -/
  | finish
  /-- The task is dropped. -/
  | drop
  deriving DecidableEq

/-- What the tasks share, and what came in upstream so far, with the accept sequences. -/
structure Shared (Key : Type) where
  gate : OrderedSequenceGate
  lanes : Key → LaneQueue
  upstream : List (Nat × Bytes)

/-- The server and its tasks by accept sequence. -/
structure State (Key : Type) extends Shared Key where
  nextAcceptSequence : Nat
  tasks : Nat → Option Stage

/-- A step of the server. -/
inductive Move where
  /-- A connection accepts a stream. -/
  | accept (path : Bytes)
  /-- The task of a stream goes on. -/
  | act (sequence : Nat) (action : Action)
  deriving DecidableEq

variable {Key : Type} [DecidableEq Key]

/-- Before the first stream. -/
def State.init : State Key where
  gate := .init
  lanes := fun _ => .init
  upstream := []
  nextAcceptSequence := 1
  tasks := fun _ => none

/-- What the server is started with, and how it reads a request. -/
structure Server (Key : Type) where
  expectedPath : Bytes
  /-- `classify_upstream_lane_key`. -/
  laneKey : Bytes → Key
  /-- `request_is_stream_open`. -/
  isStreamOpen : Bytes → Bool

namespace Shared

/-- The queue of one lane is replaced. -/
def setLane (s : Shared Key) (key : Key) (queue : LaneQueue) : Shared Key :=
  { s with lanes := Function.update s.lanes key queue }

/-- The guard of a lane is dropped. -/
def releaseLane (s : Shared Key) (key : Key) : Shared Key := s.setLane key (s.lanes key).release

/-- The guard of the gate is dropped. -/
def releaseGate (s : Shared Key) : Shared Key := { s with gate := s.gate.release }

/-- A request came in upstream. -/
def record (s : Shared Key) (sequence : Nat) (request : Bytes) : Shared Key :=
  { s with upstream := s.upstream ++ [(sequence, request)] }

end Shared

namespace Server

variable (server : Server Key)

/-- What one task does: its next stage and what it leaves of the shared state. -/
def act (sequence : Nat) (s : Shared Key) : Stage → Action → Option (Stage × Shared Key)
  | .accepted path, .start =>
    if path ≠ server.expectedPath then some (.finished, s) else some (.waitsForGate, s)
  | .waitsForGate, .takeGate =>
    (s.gate.acquire sequence).map fun gate => (.readsBody, { s with gate := gate })
  | .readsBody, .readBody (some request) => some (.leftGate request, s.releaseGate)
  | .readsBody, .readBody none => some (.finished, s.releaseGate)
  | .leftGate request, .findLane => some (.foundLane request, s)
  | .foundLane request, .enterLane =>
    let key := server.laneKey request
    some (.waitsForLane request, s.setLane key ((s.lanes key).enter sequence))
  | .waitsForLane request, .takeLane =>
    let key := server.laneKey request
    ((s.lanes key).acquire sequence).map fun queue => (.holdsLane request, s.setLane key queue)
  | .holdsLane request, .forward .unreachable =>
    some (.finished, s.releaseLane (server.laneKey request))
  | .holdsLane request, .forward .broken =>
    some (.finished, (s.record sequence request).releaseLane (server.laneKey request))
  | .holdsLane request, .forward .sent => some (.forwarded request, s.record sequence request)
  | .forwarded request, .respond ok =>
    if ok = false then some (.finished, s.releaseLane (server.laneKey request))
    else if server.isStreamOpen request then
      some (.streams, s.releaseLane (server.laneKey request))
    else some (.answers request, s)
  | .answers request, .finish => some (.finished, s.releaseLane (server.laneKey request))
  | .streams, .finish => some (.finished, s)
  | .readsBody, .drop => some (.finished, s.releaseGate)
  | .holdsLane request, .drop | .forwarded request, .drop | .answers request, .drop =>
    some (.finished, s.releaseLane (server.laneKey request))
  | .accepted _, .drop | .waitsForGate, .drop | .leftGate _, .drop | .foundLane _, .drop
  | .waitsForLane _, .drop | .streams, .drop => some (.finished, s)
  | _, _ => none

/-- One step. -/
def step : Move → State Key → Option (State Key)
  | .accept path, b => some { b with
      nextAcceptSequence := b.nextAcceptSequence + 1
      tasks := Function.update b.tasks b.nextAcceptSequence (some (.accepted path)) }
  | .act sequence action, b => do
    let stage ← b.tasks sequence
    let (stage', shared) ← server.act sequence b.toShared stage action
    return { b with
      toShared := shared
      tasks := Function.update b.tasks sequence (some stage') }

/-- What a task can do, guards included. -/
inductive Acts (sequence : Nat) : Stage → Shared Key → Stage → Shared Key → Prop
  | reject {path : Bytes} {s : Shared Key} (hpath : path ≠ server.expectedPath) :
      Acts sequence (.accepted path) s .finished s
  | start {s : Shared Key} : Acts sequence (.accepted server.expectedPath) s .waitsForGate s
  | takeGate {s : Shared Key} (hidle : s.gate.busy = false)
      (hnext : s.gate.nextSequence = sequence) :
      Acts sequence .waitsForGate s .readsBody { s with gate := { s.gate with busy := true } }
  | readBody {request : Bytes} {s : Shared Key} :
      Acts sequence .readsBody s (.leftGate request) s.releaseGate
  | stopReading {s : Shared Key} : Acts sequence .readsBody s .finished s.releaseGate
  | findLane {request : Bytes} {s : Shared Key} :
      Acts sequence (.leftGate request) s (.foundLane request) s
  | enterLane {request : Bytes} {s : Shared Key} :
      Acts sequence (.foundLane request) s (.waitsForLane request)
        (s.setLane (server.laneKey request) ((s.lanes (server.laneKey request)).enter sequence))
  | takeLane {request : Bytes} {s : Shared Key}
      (hidle : (s.lanes (server.laneKey request)).busy = false)
      (hfirst : (s.lanes (server.laneKey request)).IsFirst sequence) :
      Acts sequence (.waitsForLane request) s (.holdsLane request)
        (s.setLane (server.laneKey request)
          ⟨true, (s.lanes (server.laneKey request)).waitingSequences.erase sequence⟩)
  | forward {request : Bytes} {s : Shared Key} :
      Acts sequence (.holdsLane request) s (.forwarded request) (s.record sequence request)
  | breakOff {request : Bytes} {s : Shared Key} :
      Acts sequence (.holdsLane request) s .finished
        ((s.record sequence request).releaseLane (server.laneKey request))
  | answer {request : Bytes} {s : Shared Key} :
      Acts sequence (.forwarded request) s (.answers request) s
  | leaveLane {stage stage' : Stage} {request : Bytes} {s : Shared Key}
      (hholds : stage.holds = some request) (hend : stage' = .streams ∨ stage' = .finished) :
      Acts sequence stage s stage' (s.releaseLane (server.laneKey request))
  | stop {stage : Stage} {s : Shared Key} (hholds : stage.holds = none) (hgate : stage ≠ .readsBody)
      (hend : stage ≠ .finished) : Acts sequence stage s .finished s

variable {server}

theorem acts_of_act {sequence : Nat} {s s' : Shared Key} {stage stage' : Stage} {action : Action}
    (h : server.act sequence s stage action = some (stage', s')) :
    server.Acts sequence stage s stage' s' := by
  unfold act at h
  split at h
  case h_1 path =>
    split at h
    · rename_i hpath
      cases h
      exact .reject hpath
    · rename_i hpath
      cases h
      exact not_not.mp hpath ▸ .start
  case h_2 =>
    obtain ⟨gate, hgate, heq⟩ := Option.map_eq_some_iff.mp h
    unfold OrderedSequenceGate.acquire at hgate
    split at hgate
    · rename_i hfree
      cases hgate
      cases heq
      exact .takeGate hfree.1 hfree.2
    · cases hgate
  case h_3 =>
    cases h
    exact .readBody
  case h_4 =>
    cases h
    exact .stopReading
  case h_5 =>
    cases h
    exact .findLane
  case h_6 =>
    cases h
    exact .enterLane
  case h_7 =>
    obtain ⟨queue, hqueue, heq⟩ := Option.map_eq_some_iff.mp h
    unfold LaneQueue.acquire at hqueue
    split at hqueue
    · rename_i hfree
      cases hqueue
      cases heq
      exact .takeLane hfree.1 hfree.2
    · cases hqueue
  case h_8 =>
    cases h
    exact .leaveLane rfl (.inr rfl)
  case h_9 =>
    cases h
    exact .breakOff
  case h_10 =>
    cases h
    exact .forward
  case h_11 =>
    split at h
    · cases h
      exact .leaveLane rfl (.inr rfl)
    · split at h
      · cases h
        exact .leaveLane rfl (.inl rfl)
      · cases h
        exact .answer
  case h_14 =>
    cases h
    exact .stopReading
  case h_12 | h_15 | h_16 | h_17 =>
    cases h
    exact .leaveLane rfl (.inr rfl)
  case h_13 | h_18 | h_19 | h_20 | h_21 | h_22 | h_23 =>
    cases h
    exact .stop rfl nofun nofun
  case h_24 => cases h

/-- What one step does. -/
theorem step_cases {m : Move} {b b' : State Key} (h : server.step m b = some b') :
    (∃ path, m = .accept path ∧ b' = { b with
      nextAcceptSequence := b.nextAcceptSequence + 1
      tasks := Function.update b.tasks b.nextAcceptSequence (some (.accepted path)) }) ∨
    ∃ sequence action stage stage' shared, m = .act sequence action ∧
      b.tasks sequence = some stage ∧
      server.act sequence b.toShared stage action = some (stage', shared) ∧
      server.Acts sequence stage b.toShared stage' shared ∧
      b' = { b with
        toShared := shared
        tasks := Function.update b.tasks sequence (some stage') } := by
  cases m with
  | accept path =>
      obtain rfl := Option.some.inj h
      exact .inl ⟨path, rfl, rfl⟩
  | act sequence action =>
      right
      simp only [step, Option.bind_eq_bind, Option.bind_eq_some_iff] at h
      obtain ⟨stage, hstage, ⟨stage', shared⟩, hact, heq⟩ := h
      obtain rfl := Option.some.inj heq
      exact ⟨sequence, action, stage, stage', shared, rfl, hstage, hact, acts_of_act hact, rfl⟩

end Server

end Muxly.Bridge
