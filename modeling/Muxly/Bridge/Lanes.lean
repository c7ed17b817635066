/-
# Muxly.Bridge.Lanes -- the order in which the requests of a lane go upstream

A lane is held by one task at a time, whatever the tasks do. That its requests go upstream as they were
accepted rests on the tasks coming to the lane in that order: between the gate and the waiting set of
its lane a task takes two steps, and another task of the same lane may overtake it there.

`Punctual` is the condition that none does; the order follows from it.
-/
import Muxly.Bridge.Gate

namespace Muxly.Bridge

open Muxly.Core Muxly.Sync

variable {Key : Type} [DecidableEq Key] {server : Server Key}

/-! ## Who holds a lane -/

/-- The request of a task that is past the gate and has not come to its lane. -/
def Stage.underway : Stage → Option Bytes
  | .leftGate request | .foundLane request => some request
  | _ => none

/-- The request of a task that waits for its lane. -/
def Stage.awaits : Stage → Option Bytes
  | .waitsForLane request => some request
  | _ => none

/-- The request of a task that is past the gate and has not taken its lane. -/
def Stage.queues : Stage → Option Bytes
  | .leftGate request | .foundLane request | .waitsForLane request => some request
  | _ => none

/-- The request of a task that has not sent it upstream. -/
def Stage.owes : Stage → Option Bytes
  | .leftGate request | .foundLane request | .waitsForLane request | .holdsLane request => some request
  | _ => none

/-- What owes its request queues or holds its lane. -/
theorem Stage.queues_or_holds {stage : Stage} {request : Bytes} (h : stage.owes = some request) :
    stage.queues = some request ∨ stage = .holdsLane request := by
  cases stage with
  | leftGate | foundLane | waitsForLane => exact .inl h
  | holdsLane => exact .inr (congrArg _ (Option.some.inj h))
  | _ => cases h

/-- The task holds the lane of its request. -/
def Holds (server : Server Key) (b : State Key) (k : Nat) (key : Key) : Prop :=
  ∃ stage request, b.tasks k = some stage ∧ stage.holds = some request ∧ server.laneKey request = key

/-- No two tasks hold one lane. -/
def Exclusive (server : Server Key) (b : State Key) : Prop :=
  ∀ key j k, Holds server b j key → Holds server b k key → j = k

/-- The requests of one lane came in upstream in the order of their accept sequences. -/
def InOrder (server : Server Key) (upstream : List (Nat × Bytes)) : Prop :=
  upstream.Pairwise fun first second =>
    server.laneKey first.2 = server.laneKey second.2 → first.1 < second.1

/-! ## One step of one task -/

section Steps

variable {k : Nat} {s s' : Shared Key} {stage stage' : Stage}

/-- A task comes to owe a request when it has read it. -/
theorem Server.Acts.owes (h : server.Acts k stage s stage' s') {request : Bytes}
    (howes : stage'.owes = some request) : stage.owes = some request ∨ stage = .readsBody := by
  cases h with
  | readBody => exact .inr rfl
  | findLane | enterLane | takeLane => exact .inl howes
  | leaveLane _ hend => rcases hend with rfl | rfl <;> cases howes
  | _ => cases howes

theorem Server.Acts.queues (h : server.Acts k stage s stage' s') {request : Bytes}
    (hqueues : stage'.queues = some request) :
    stage.queues = some request ∨ stage = .readsBody := by
  cases h with
  | readBody => exact .inr rfl
  | findLane | enterLane => exact .inl hqueues
  | leaveLane _ hend => rcases hend with rfl | rfl <;> cases hqueues
  | _ => cases hqueues

/-- A task comes to hold its lane when the lane is free and the task is the first that waits. -/
theorem Server.Acts.holds (h : server.Acts k stage s stage' s') {request : Bytes}
    (hholds : stage'.holds = some request) : stage.holds = some request ∨
      (stage = .waitsForLane request ∧ stage' = .holdsLane request ∧
        (s.lanes (server.laneKey request)).busy = false ∧
        (s.lanes (server.laneKey request)).IsFirst k) := by
  cases h with
  | takeLane hidle hfirst =>
      obtain rfl := Option.some.inj hholds
      exact .inr ⟨rfl, rfl, hidle, hfirst⟩
  | forward | answer => exact .inl hholds
  | leaveLane _ hend => rcases hend with rfl | rfl <;> cases hholds
  | _ => cases hholds

/-- A request comes in upstream from the task that holds its lane and owes it. -/
theorem Server.Acts.upstream (h : server.Acts k stage s stage' s') : s'.upstream = s.upstream ∨
    ∃ request, stage = .holdsLane request ∧ stage'.owes = none ∧
      s'.upstream = s.upstream ++ [(k, request)] := by
  cases h with
  | forward | breakOff => exact .inr ⟨_, rfl, rfl, rfl⟩
  | _ => exact .inl rfl

theorem lanes_setLane (s : Shared Key) (key key' : Key) (queue : LaneQueue) :
    (s.setLane key queue).lanes key' = if key' = key then queue else s.lanes key' :=
  Function.update_apply ..

theorem busy_releaseLane {key key' : Key} (hne : key' ≠ key) :
    ((s.releaseLane key).lanes key').busy = (s.lanes key').busy := by
  rw [Shared.releaseLane, lanes_setLane, if_neg hne]

theorem waitingSequences_releaseLane (key key' : Key) :
    ((s.releaseLane key).lanes key').waitingSequences = (s.lanes key').waitingSequences := by
  rw [Shared.releaseLane, lanes_setLane]
  split
  · rename_i heq
    rw [heq]
    rfl
  · rfl

/-- A lane that the task does not hold stays busy. -/
theorem Server.Acts.busy (h : server.Acts k stage s stage' s') {key : Key}
    (hbusy : (s.lanes key).busy = true)
    (hother : ∀ request, stage.holds = some request → server.laneKey request ≠ key) :
    (s'.lanes key).busy = true := by
  cases h with
  | @enterLane request s =>
      rw [lanes_setLane]
      split
      · rename_i heq
        subst heq
        exact hbusy
      · exact hbusy
  | takeLane =>
      rw [lanes_setLane]
      split
      · rfl
      · exact hbusy
  | breakOff =>
      rw [busy_releaseLane (hother _ rfl).symm]
      exact hbusy
  | leaveLane hholds =>
      rw [busy_releaseLane (hother _ hholds).symm]
      exact hbusy
  | _ => exact hbusy

/-- The lane that a task holds is busy. -/
theorem Server.Acts.busy_self (h : server.Acts k stage s stage' s') {request : Bytes}
    (hbusy : stage.holds = some request → (s.lanes (server.laneKey request)).busy = true)
    (hholds : stage'.holds = some request) :
    (s'.lanes (server.laneKey request)).busy = true := by
  cases h with
  | takeLane =>
      obtain rfl := Option.some.inj hholds
      rw [lanes_setLane, if_pos rfl]
  | forward | answer => exact hbusy hholds
  | leaveLane _ hend => rcases hend with rfl | rfl <;> cases hholds
  | _ => cases hholds

/-- The other tasks stay where they wait. -/
theorem Server.Acts.waiting (h : server.Acts k stage s stage' s') {j : Nat} (hne : j ≠ k) {key : Key}
    (hwaits : j ∈ (s.lanes key).waitingSequences) : j ∈ (s'.lanes key).waitingSequences := by
  cases h with
  | enterLane =>
      rw [lanes_setLane]
      split
      · rename_i heq
        subst heq
        exact Finset.mem_insert_of_mem hwaits
      · exact hwaits
  | takeLane =>
      rw [lanes_setLane]
      split
      · rename_i heq
        subst heq
        exact Finset.mem_erase.mpr ⟨hne, hwaits⟩
      · exact hwaits
  | breakOff =>
      rw [waitingSequences_releaseLane]
      exact hwaits
  | leaveLane =>
      rw [waitingSequences_releaseLane]
      exact hwaits
  | _ => exact hwaits

/-- A task that waits for its lane is among the waiting sequences. -/
theorem Server.Acts.waiting_self (h : server.Acts k stage s stage' s') {request : Bytes}
    (hwaits : stage' = .waitsForLane request) :
    k ∈ (s'.lanes (server.laneKey request)).waitingSequences := by
  cases h with
  | enterLane =>
      cases hwaits
      rw [lanes_setLane, if_pos rfl]
      exact Finset.mem_insert_self ..
  | leaveLane _ hend => rcases hend with rfl | rfl <;> cases hwaits
  | _ => cases hwaits

end Steps

/-! ## A lane is held by one task -/

/-- What the lanes know of their tasks. -/
structure Laned (server : Server Key) (b : State Key) : Prop where
  busy : ∀ k key, Holds server b k key → (b.lanes key).busy = true
  exclusive : Exclusive server b
  waiting : ∀ k request, b.tasks k = some (.waitsForLane request) →
    k ∈ (b.lanes (server.laneKey request)).waitingSequences

omit [DecidableEq Key] in
theorem laned_init : Laned server (State.init : State Key) where
  busy := by
    rintro k key ⟨stage, request, hstage, -⟩
    cases hstage
  exclusive := by
    rintro key j k ⟨stage, request, hstage, -⟩
    cases hstage
  waiting _ _ h := nomatch h

/-- Who holds a lane after a step held it before, or has just taken it. -/
theorem holds_step {b : State Key} {k j : Nat} {stage stage' : Stage} {shared : Shared Key} {key : Key}
    (hstage : b.tasks k = some stage) (hacts : server.Acts k stage b.toShared stage' shared)
    (h : Holds server { b with
      toShared := shared
      tasks := Function.update b.tasks k (some stage') } j key) :
    Holds server b j key ∨ j = k ∧ ∃ request, stage = .waitsForLane request ∧
      stage' = .holdsLane request ∧ server.laneKey request = key ∧
      (b.lanes key).busy = false ∧ (b.lanes key).IsFirst k := by
  obtain ⟨other, request, hother, hholds, rfl⟩ := h
  rcases tasks_update hother with ⟨rfl, rfl⟩ | ⟨-, hother⟩
  · rcases hacts.holds hholds with hbefore | ⟨rfl, rfl, hidle, hfirst⟩
    · exact .inl ⟨stage, request, hstage, hbefore, rfl⟩
    · exact .inr ⟨rfl, request, rfl, rfl, rfl, hidle, hfirst⟩
  · exact .inl ⟨other, request, hother, hholds, rfl⟩

theorem Laned.step {m : Move} {b b' : State Key} (h : Laned server b)
    (hstep : server.step m b = some b') : Laned server b' := by
  rcases Server.step_cases hstep with ⟨path, -, rfl⟩ |
    ⟨k, action, stage, stage', shared, -, hstage, -, hacts, rfl⟩
  · have hold : ∀ j key, Holds server { b with
        nextAcceptSequence := b.nextAcceptSequence + 1
        tasks := Function.update b.tasks b.nextAcceptSequence (some (.accepted path)) } j key →
        Holds server b j key := by
      rintro j key ⟨other, request, hother, hholds, hkey⟩
      rcases tasks_update hother with ⟨-, rfl⟩ | ⟨-, hother⟩
      · cases hholds
      · exact ⟨other, request, hother, hholds, hkey⟩
    refine ⟨fun j key hj => h.busy j key (hold j key hj),
      fun key i j hi hj => h.exclusive key i j (hold i key hi) (hold j key hj), fun j request hj => ?_⟩
    rcases tasks_update hj with ⟨-, hj⟩ | ⟨-, hj⟩
    · cases hj
    · exact h.waiting j request hj
  · refine ⟨fun j key hj => ?_, fun key i j hi hj => ?_, fun j request hj => ?_⟩
    · show (shared.lanes key).busy = true
      obtain ⟨other, request, hother, hholds, rfl⟩ := hj
      rcases tasks_update hother with ⟨rfl, rfl⟩ | ⟨hne, hother⟩
      · exact hacts.busy_self (fun hbefore => h.busy j _ ⟨stage, request, hstage, hbefore, rfl⟩) hholds
      · have hbefore : Holds server b j (server.laneKey request) :=
          ⟨other, request, hother, hholds, rfl⟩
        refine hacts.busy (h.busy j _ hbefore) fun request' hholds' heq => ?_
        exact hne (h.exclusive _ j k hbefore ⟨stage, request', hstage, hholds', heq⟩)
    · -- the task that has just taken the lane found it free, so nobody else holds it
      have hfree : ∀ i, Holds server b i key → (b.lanes key).busy ≠ false := by
        intro i hi
        rw [h.busy i key hi]
        exact Bool.noConfusion
      rcases holds_step hstage hacts hi with hi | ⟨rfl, -, -, -, -, hidle, -⟩
      · rcases holds_step hstage hacts hj with hj | ⟨-, -, -, -, -, hidle, -⟩
        · exact h.exclusive key i j hi hj
        · exact absurd hidle (hfree i hi)
      · rcases holds_step hstage hacts hj with hj | ⟨rfl, -⟩
        · exact absurd hidle (hfree j hj)
        · rfl
    · show j ∈ (shared.lanes (server.laneKey request)).waitingSequences
      rcases tasks_update hj with ⟨rfl, heq⟩ | ⟨hne, hj⟩
      · exact hacts.waiting_self heq.symm
      · exact hacts.waiting hne (h.waiting j request hj)

/-- In every run, no two tasks hold one lane. -/
theorem laned_of_runs {cond : State Key → Move → Prop} {b : State Key}
    (h : Runs server.step cond .init b) : Laned server b :=
  h.invariant laned_init fun _ _ _ hlaned _ hstep => hlaned.step hstep

/-! ## The order of a lane -/

/-- The lane that a task is on its way to. -/
def Server.laneAhead (server : Server Key) (b : State Key) (k : Nat) : Option Key :=
  ((b.tasks k).bind Stage.underway).map server.laneKey

/-- The lane that a task waits for. -/
def Server.laneAwaited (server : Server Key) (b : State Key) (k : Nat) : Option Key :=
  ((b.tasks k).bind Stage.awaits).map server.laneKey

/-- A task that takes its lane leaves no earlier task of the lane behind that is on its way to it. -/
def Server.Punctual (server : Server Key) (b : State Key) : Move → Prop
  | .act k .takeLane => ∀ j < k, ∀ key ∈ server.laneAhead b j, key ∉ server.laneAwaited b k
  | _ => True

instance (b : State Key) (m : Move) : Decidable (server.Punctual b m) := by
  unfold Server.Punctual
  split <;> infer_instance

/-- What came in upstream is behind what is still to come. -/
structure Ordered (server : Server Key) (b : State Key) : Prop where
  past : ∀ entry ∈ b.upstream, entry.1 < b.gate.nextSequence
  logged : ∀ entry ∈ b.upstream, ∀ j stage request, b.tasks j = some stage →
    stage.owes = some request → server.laneKey request = server.laneKey entry.2 → entry.1 < j
  ahead : ∀ k key, Holds server b k key → ∀ j stage request, b.tasks j = some stage →
    stage.queues = some request → server.laneKey request = key → k < j
  order : InOrder server b.upstream

omit [DecidableEq Key] in
theorem ordered_init : Ordered server (State.init : State Key) where
  past _ h := nomatch h
  logged _ h := nomatch h
  ahead := by
    rintro k key ⟨stage, request, hstage, -⟩
    cases hstage
  order := List.Pairwise.nil

theorem Stage.Gated.of_owes {gate : OrderedSequenceGate} {sequence : Nat} {stage : Stage}
    {request : Bytes} (h : stage.Gated gate sequence) (howes : stage.owes = some request) :
    sequence < gate.nextSequence := by
  cases stage with
  | leftGate | foundLane | waitsForLane | holdsLane => exact h
  | _ => cases howes

/-- A task that waits for its lane takes it in one way. -/
theorem act_takeLane {k : Nat} {s s' : Shared Key} {request : Bytes} {action : Action}
    (h : server.act k s (.waitsForLane request) action = some (.holdsLane request, s')) :
    action = .takeLane := by
  cases action with
  | takeLane => rfl
  | _ => cases h

section OrderStep

variable {b : State Key} {k : Nat} {action : Action} {stage stage' : Stage} {shared : Shared Key}

omit [DecidableEq Key] in
/-- A task that has just taken its lane is ahead of all that queue for it. -/
theorem Laned.first_ahead (h : Laned server b) {request : Bytes}
    (hpunctual : server.Punctual b (.act k .takeLane))
    (hstage : b.tasks k = some (.waitsForLane request))
    (hfirst : (b.lanes (server.laneKey request)).IsFirst k) {j : Nat} {other : Stage}
    {request' : Bytes} (hne : j ≠ k) (hother : b.tasks j = some other)
    (hqueues : other.queues = some request') (hkey : server.laneKey request' = server.laneKey request) :
    k < j := by
  have hlate : other.underway = some request' → k < j := by
    intro hunderway
    by_contra hle
    refine hpunctual j (by omega) (server.laneKey request') ?_ ?_
    · rw [Server.laneAhead, hother, Option.bind_some, hunderway]
      rfl
    · rw [Server.laneAwaited, hstage, hkey]
      rfl
  cases other with
  | leftGate => exact hlate hqueues
  | foundLane => exact hlate hqueues
  | waitsForLane =>
      obtain rfl := Option.some.inj hqueues
      have hwaits := h.waiting j _ hother
      rw [hkey] at hwaits
      have hle := hfirst.2 j hwaits
      omega
  | _ => cases hqueues

theorem Ordered.act (h : Ordered server b) (hgated : Gated b) (hlaned : Laned server b)
    (hpunctual : server.Punctual b (.act k action)) (hstage : b.tasks k = some stage)
    (hact : server.act k b.toShared stage action = some (stage', shared))
    (hacts : server.Acts k stage b.toShared stage' shared) : Ordered server { b with
      toShared := shared
      tasks := Function.update b.tasks k (some stage') } := by
  have hk := hgated.gated k stage hstage
  have hnext : b.gate.nextSequence ≤ shared.gate.nextSequence := by
    rcases (hacts.gate hk).2.2 with hgate | ⟨-, hgate⟩
    · exact Nat.le_of_eq hgate.symm
    · rw [hgate]
      exact Nat.le_succ _
  have hread : stage = .readsBody → k = b.gate.nextSequence := by
    rintro rfl
    exact hk.1
  -- what came in before the step
  have hlogged : ∀ entry ∈ b.upstream, ∀ j other request,
      Function.update b.tasks k (some stage') j = some other → other.owes = some request →
        server.laneKey request = server.laneKey entry.2 → entry.1 < j := by
    intro entry hentry j other request hother howes hkey
    rcases tasks_update hother with ⟨rfl, rfl⟩ | ⟨-, hother⟩
    · rcases hacts.owes howes with hbefore | hreads
      · exact h.logged entry hentry j stage request hstage hbefore hkey
      · rw [hread hreads]
        exact h.past entry hentry
    · exact h.logged entry hentry j other request hother howes hkey
  refine ⟨fun entry hentry => ?_, fun entry hentry j other request hother howes hkey => ?_,
    fun i key hi j other request hother hqueues hkey => ?_, ?_⟩
  · rcases hacts.upstream with hsame | ⟨request, rfl, -, hrecord⟩
    · exact Nat.lt_of_lt_of_le (h.past entry (hsame ▸ hentry)) hnext
    · rcases List.mem_append.mp (hrecord ▸ hentry) with hentry | hentry
      · exact Nat.lt_of_lt_of_le (h.past entry hentry) hnext
      · obtain rfl := List.mem_singleton.mp hentry
        exact Nat.lt_of_lt_of_le (hk.of_owes rfl) hnext
  · rcases hacts.upstream with hsame | ⟨sent, rfl, hnone, hrecord⟩
    · exact hlogged entry (hsame ▸ hentry) j other request hother howes hkey
    · rcases List.mem_append.mp (hrecord ▸ hentry) with hentry | hentry
      · exact hlogged entry hentry j other request hother howes hkey
      · -- the request that was sent last: its task holds the lane, so the others queue behind it
        obtain rfl := List.mem_singleton.mp hentry
        have hholds : Holds server b k (server.laneKey sent) := ⟨_, sent, hstage, rfl, rfl⟩
        rcases tasks_update hother with ⟨-, rfl⟩ | ⟨hne, hother⟩
        · rw [hnone] at howes
          cases howes
        · rcases Stage.queues_or_holds howes with hqueues | rfl
          · exact h.ahead k _ hholds j other request hother hqueues hkey
          · exact absurd (hlaned.exclusive _ j k ⟨_, request, hother, rfl, hkey⟩ hholds) hne
  · rcases holds_step hstage hacts hi with hheld | ⟨rfl, sent, rfl, rfl, rfl, -, hfirst⟩
    · rcases tasks_update hother with ⟨rfl, rfl⟩ | ⟨-, hother⟩
      · rcases hacts.queues hqueues with hbefore | hreads
        · exact h.ahead i key hheld j stage request hstage hbefore hkey
        · obtain ⟨holder, held, hholder, hholds, -⟩ := hheld
          rw [hread hreads]
          exact (hgated.gated i holder hholder).of_holds hholds
      · exact h.ahead i key hheld j other request hother hqueues hkey
    · obtain rfl := act_takeLane hact
      rcases tasks_update hother with ⟨-, rfl⟩ | ⟨hne, hother⟩
      · cases hqueues
      · exact hlaned.first_ahead hpunctual hstage hfirst hne hother hqueues hkey
  · show InOrder server shared.upstream
    rcases hacts.upstream with hsame | ⟨sent, rfl, -, hrecord⟩
    · rw [hsame]
      exact h.order
    · rw [hrecord]
      refine List.pairwise_append.mpr ⟨h.order, List.pairwise_singleton .., ?_⟩
      intro entry hentry last hlast hkey
      obtain rfl := List.mem_singleton.mp hlast
      exact h.logged entry hentry k _ sent hstage rfl hkey.symm

end OrderStep

theorem Ordered.step {m : Move} {b b' : State Key} (h : Ordered server b) (hgated : Gated b)
    (hlaned : Laned server b) (hpunctual : server.Punctual b m)
    (hstep : server.step m b = some b') : Ordered server b' := by
  rcases Server.step_cases hstep with ⟨path, -, rfl⟩ |
    ⟨k, action, stage, stage', shared, rfl, hstage, hact, hacts, rfl⟩
  · refine ⟨h.past, fun entry hentry j other request hother howes hkey => ?_,
      fun i key hi j other request hother hqueues hkey => ?_, h.order⟩
    · rcases tasks_update hother with ⟨-, rfl⟩ | ⟨-, hother⟩
      · cases howes
      · exact h.logged entry hentry j other request hother howes hkey
    · obtain ⟨holder, held, hholder, hheld, hheldKey⟩ := hi
      rcases tasks_update hother with ⟨-, rfl⟩ | ⟨-, hother⟩
      · cases hqueues
      rcases tasks_update hholder with ⟨-, rfl⟩ | ⟨-, hholder⟩
      · cases hheld
      exact h.ahead i key ⟨holder, held, hholder, hheld, hheldKey⟩ j other request hother hqueues hkey
  · exact h.act hgated hlaned hpunctual hstage hact hacts

/-- While no task overtakes another between the gate and their lane, the requests of a lane go
upstream as they were accepted; and no two tasks hold one lane. -/
theorem lane_in_order {b : State Key} (h : Runs server.step server.Punctual .init b) :
    InOrder server b.upstream ∧ Exclusive server b := by
  have hinv : (Gated b ∧ Laned server b) ∧ Ordered server b := by
    refine h.invariant (I := fun b => (Gated b ∧ Laned server b) ∧ Ordered server b)
      ⟨⟨gated_init, laned_init⟩, ordered_init⟩ ?_
    rintro b m b' ⟨⟨hgated, hlaned⟩, hordered⟩ hpunctual hstep
    exact ⟨⟨hgated.step hstep, hlaned.step hstep⟩, hordered.step hgated hlaned hpunctual hstep⟩
  exact ⟨hinv.2.order, hinv.1.2.exclusive⟩

theorem lane_in_order_forwarded : ∃ b, Runs rpcServer.step rpcServer.Punctual .init b ∧
    (InOrder rpcServer b.upstream ∧ Exclusive rpcServer b) ∧
      b.upstream = [(1, ascii "a"), (2, ascii "b")] := by
  obtain ⟨b, hb, htest⟩ := Runs.exists_of_follow rpcServer.step rpcServer.Punctual .init
    [.accept (ascii "/rpc"), .accept (ascii "/rpc"), .act 1 .start, .act 2 .start,
      .act 1 .takeGate, .act 1 (.readBody (some (ascii "a"))),
      .act 2 .takeGate, .act 2 (.readBody (some (ascii "b"))),
      .act 1 .findLane, .act 2 .findLane, .act 1 .enterLane, .act 2 .enterLane,
      .act 1 .takeLane, .act 1 (.forward .sent), .act 1 (.respond true), .act 1 .finish,
      .act 2 .takeLane, .act 2 (.forward .sent)]
    (fun b => b.upstream = [(1, ascii "a"), (2, ascii "b")]) (by decide +kernel)
  exact ⟨b, hb, lane_in_order hb, of_decide_eq_true htest⟩

/-- All streams are on the expected path, all bodies can be read, and no task is dropped. -/
def Server.Readable (server : Server Key) (_ : State Key) : Move → Prop
  | .accept path => path = server.expectedPath
  | .act _ (.readBody none) | .act _ .drop => False
  | .act _ _ => True

instance (b : State Unit) (m : Move) : Decidable (rpcServer.Readable b m) := by
  unfold Server.Readable
  split <;> infer_instance

/-- The second stream comes to the lane while the first is between the gate and the lane. -/
theorem overtaking_between_gate_and_lane :
    ∃ b, Runs rpcServer.step rpcServer.Readable .init b ∧ ¬ InOrder rpcServer b.upstream := by
  obtain ⟨b, hb, htest⟩ := Runs.exists_of_follow rpcServer.step rpcServer.Readable .init
    [.accept (ascii "/rpc"), .accept (ascii "/rpc"), .act 1 .start, .act 2 .start,
      .act 1 .takeGate, .act 1 (.readBody (some (ascii "a"))),
      .act 2 .takeGate, .act 2 (.readBody (some (ascii "b"))),
      .act 2 .findLane, .act 2 .enterLane, .act 2 .takeLane, .act 2 (.forward .sent),
      .act 2 (.respond true), .act 2 .finish,
      .act 1 .findLane, .act 1 .enterLane, .act 1 .takeLane, .act 1 (.forward .sent)]
    (fun b => b.upstream = [(2, ascii "b"), (1, ascii "a")]) (by decide +kernel)
  refine ⟨b, hb, fun horder => ?_⟩
  rw [of_decide_eq_true htest] at horder
  exact absurd (List.rel_of_pairwise_cons horder (List.mem_singleton_self _) rfl) (by decide)

end Muxly.Bridge
