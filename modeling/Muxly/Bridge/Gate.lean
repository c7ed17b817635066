/-
# Muxly.Bridge.Gate -- when the body gate can always go on

The gate lets the tasks in by accept sequence, so every sequence number has to go through it once. A
task whose path is wrong, and one that is dropped before its turn, never comes to the gate: the gate
waits for its number from then on, and nothing that was accepted later is read.

As long as no task ends before the gate, there is always a task that has the next number.
-/
import Muxly.Bridge.Streams

namespace Muxly.Bridge

open Muxly.Core Muxly.Sync

variable {Key : Type} [DecidableEq Key] {server : Server Key}

/-! ## What the gate knows of a task -/

/-- A task that lives is before the gate, in it or past it, as its number says. -/
def Stage.Gated (gate : OrderedSequenceGate) (sequence : Nat) : Stage → Prop
  | .accepted _ | .waitsForGate => gate.nextSequence ≤ sequence
  | .readsBody => sequence = gate.nextSequence ∧ gate.busy = true
  | .finished => True
  | _ => sequence < gate.nextSequence

theorem Stage.Gated.of_holds {gate : OrderedSequenceGate} {sequence : Nat} {stage : Stage}
    {request : Bytes} (h : stage.Gated gate sequence) (hholds : stage.holds = some request) :
    sequence < gate.nextSequence := by
  cases stage with
  | holdsLane | forwarded | answers => exact h
  | _ => cases hholds

/-- The gate takes a task in: what it knew of the others still holds. -/
theorem Stage.Gated.acquire {gate : OrderedSequenceGate} {sequence : Nat} {stage : Stage}
    (h : stage.Gated gate sequence) : stage.Gated { gate with busy := true } sequence := by
  cases stage with
  | readsBody => exact ⟨h.1, rfl⟩
  | _ => exact h

/-- The gate goes on to the next number: what it knew of the others still holds. -/
theorem Stage.Gated.release {gate : OrderedSequenceGate} {sequence : Nat} {stage : Stage}
    (h : stage.Gated gate sequence) (hne : sequence ≠ gate.nextSequence) :
    stage.Gated gate.release sequence := by
  cases stage with
  | accepted path =>
      have hle : gate.nextSequence ≤ sequence := h
      show gate.nextSequence + 1 ≤ sequence
      omega
  | waitsForGate =>
      have hle : gate.nextSequence ≤ sequence := h
      show gate.nextSequence + 1 ≤ sequence
      omega
  | readsBody => exact absurd h.1 hne
  | finished => trivial
  | _ => exact Nat.lt_succ_of_lt h

/-- A step moves the gate by one number, when the task that has it has read, or not at all. -/
theorem Server.Acts.gate {k : Nat} {s s' : Shared Key} {stage stage' : Stage}
    (h : server.Acts k stage s stage' s') (hgated : stage.Gated s.gate k) :
    stage'.Gated s'.gate k ∧
      (∀ j, j ≠ k → ∀ other : Stage, other.Gated s.gate j → other.Gated s'.gate j) ∧
      (s'.gate.nextSequence = s.gate.nextSequence ∨
        stage = .readsBody ∧ s'.gate = s.gate.release) := by
  cases h with
  | reject => exact ⟨trivial, fun _ _ _ h => h, .inl rfl⟩
  | start => exact ⟨hgated, fun _ _ _ h => h, .inl rfl⟩
  | takeGate hidle hnext =>
      refine ⟨⟨hnext.symm, rfl⟩, fun _ _ _ h => h.acquire, .inl rfl⟩
  | readBody =>
      obtain ⟨rfl, -⟩ := hgated
      exact ⟨Nat.lt_succ_self _, fun _ hne _ h => h.release hne, .inr ⟨rfl, rfl⟩⟩
  | stopReading =>
      obtain ⟨rfl, -⟩ := hgated
      exact ⟨trivial, fun _ hne _ h => h.release hne, .inr ⟨rfl, rfl⟩⟩
  | findLane => exact ⟨hgated, fun _ _ _ h => h, .inl rfl⟩
  | enterLane => exact ⟨hgated, fun _ _ _ h => h, .inl rfl⟩
  | takeLane => exact ⟨hgated, fun _ _ _ h => h, .inl rfl⟩
  | forward => exact ⟨hgated, fun _ _ _ h => h, .inl rfl⟩
  | breakOff => exact ⟨trivial, fun _ _ _ h => h, .inl rfl⟩
  | answer => exact ⟨hgated, fun _ _ _ h => h, .inl rfl⟩
  | leaveLane hholds hend =>
      rcases hend with rfl | rfl
      · exact ⟨hgated.of_holds hholds, fun _ _ _ h => h, .inl rfl⟩
      · exact ⟨trivial, fun _ _ _ h => h, .inl rfl⟩
  | stop => exact ⟨trivial, fun _ _ _ h => h, .inl rfl⟩

/-! ## Every state -/

/-- A task for every number that was given out, and the gate knows where it is. -/
structure Gated (b : State Key) : Prop where
  pos : 0 < b.gate.nextSequence
  next_le : b.gate.nextSequence ≤ b.nextAcceptSequence
  known : ∀ k, (∃ stage, b.tasks k = some stage) ↔ 0 < k ∧ k < b.nextAcceptSequence
  gated : ∀ k stage, b.tasks k = some stage → stage.Gated b.gate k

omit [DecidableEq Key] in
theorem gated_init : Gated (State.init : State Key) where
  pos := Nat.one_pos
  next_le := Nat.le_refl 1
  known k := by
    constructor
    · rintro ⟨stage, hstage⟩
      cases hstage
    · rintro ⟨hpos, hlt⟩
      have hlt' : k < 1 := hlt
      omega
  gated _ _ h := nomatch h

/-- The tasks after one of them was given a stage. -/
theorem tasks_update {tasks : Nat → Option Stage} {k j : Nat} {stage other : Stage}
    (h : Function.update tasks k (some stage) j = some other) :
    j = k ∧ other = stage ∨ j ≠ k ∧ tasks j = some other :=
  (update_eq_some h).imp_left fun ⟨hj, hstage⟩ => ⟨hj, (Option.some.inj hstage).symm⟩

theorem Gated.step {m : Move} {b b' : State Key} (h : Gated b) (hstep : server.step m b = some b') :
    Gated b' := by
  rcases Server.step_cases hstep with ⟨path, -, rfl⟩ |
    ⟨k, action, stage, stage', shared, -, hstage, -, hacts, rfl⟩
  · refine ⟨h.pos, Nat.le_succ_of_le h.next_le, fun k => ?_, fun k stage hk => ?_⟩
    · show (∃ stage, Function.update b.tasks b.nextAcceptSequence _ k = some stage) ↔
        0 < k ∧ k < b.nextAcceptSequence + 1
      by_cases hk : k = b.nextAcceptSequence
      · subst hk
        have hpos : 0 < b.nextAcceptSequence := Nat.lt_of_lt_of_le h.pos h.next_le
        simp [hpos]
      · rw [Function.update_of_ne hk, h.known]
        omega
    · rcases tasks_update hk with ⟨rfl, rfl⟩ | ⟨-, hk⟩
      · exact h.next_le
      · exact h.gated k stage hk
  · obtain ⟨hself, hothers, hgate⟩ := hacts.gate (h.gated k stage hstage)
    have hk : 0 < k ∧ k < b.nextAcceptSequence := (h.known k).mp ⟨stage, hstage⟩
    refine ⟨?_, ?_, fun j => ?_, fun j other hj => ?_⟩
    · show 0 < shared.gate.nextSequence
      rcases hgate with hgate | ⟨-, hgate⟩
      · rw [hgate]
        exact h.pos
      · rw [hgate]
        exact Nat.succ_pos _
    · show shared.gate.nextSequence ≤ b.nextAcceptSequence
      rcases hgate with hgate | ⟨rfl, hgate⟩
      · rw [hgate]
        exact h.next_le
      · have hnext : k = b.gate.nextSequence := (h.gated k _ hstage).1
        rw [hgate]
        show b.gate.nextSequence + 1 ≤ b.nextAcceptSequence
        omega
    · show (∃ stage, Function.update b.tasks k (some stage') j = some stage) ↔
        0 < j ∧ j < b.nextAcceptSequence
      by_cases hj : j = k
      · subst hj
        simp [hk]
      · rw [Function.update_of_ne hj, h.known]
    · rcases tasks_update hj with ⟨rfl, rfl⟩ | ⟨hne, hj⟩
      · exact hself
      · exact hothers j hne other (h.gated j other hj)

theorem gated_of_runs {cond : State Key → Move → Prop} {b : State Key}
    (h : Runs server.step cond .init b) : Gated b :=
  h.invariant gated_init fun _ _ _ hgated _ hstep => hgated.step hstep

/-! ## Runs in which every number goes through the gate -/

/-- The step does not end a task that is before the gate: no path is wrong, and no task is dropped
before its turn. -/
def Server.KeepsTurn (server : Server Key) (b : State Key) : Move → Prop
  | .accept _ => True
  | .act sequence .start => ∀ path, b.tasks sequence = some (.accepted path) →
      path = server.expectedPath
  | .act sequence .drop => b.tasks sequence ≠ some .waitsForGate ∧
      ∀ path, b.tasks sequence ≠ some (.accepted path)
  | .act _ _ => True

/-- A task that has finished has had its turn. -/
def Consumed (b : State Key) : Prop :=
  ∀ k, b.tasks k = some .finished → k < b.gate.nextSequence

/-- A task that ends has had its turn, or was before the gate. -/
theorem Server.Acts.finished {k : Nat} {s s' : Shared Key} {stage : Stage}
    (h : server.Acts k stage s .finished s') (hgated : stage.Gated s.gate k) :
    k < s'.gate.nextSequence ∨ stage = .waitsForGate ∨ ∃ path, stage = .accepted path := by
  cases h with
  | reject => exact .inr (.inr ⟨_, rfl⟩)
  | stopReading =>
      obtain ⟨rfl, -⟩ := hgated
      exact .inl (Nat.lt_succ_self _)
  | breakOff => exact .inl hgated
  | leaveLane hholds => exact .inl (hgated.of_holds hholds)
  | stop hholds hgate hend =>
      cases stage with
      | accepted path => exact .inr (.inr ⟨path, rfl⟩)
      | waitsForGate => exact .inr (.inl rfl)
      | readsBody => exact absurd rfl hgate
      | finished => exact absurd rfl hend
      | _ => exact .inl hgated

/-- A step that keeps the turn of its task does not end it before the gate. -/
theorem Server.KeepsTurn.ne_finished {b : State Key} {k : Nat} {action : Action} {stage stage' : Stage}
    {shared : Shared Key} (h : server.KeepsTurn b (.act k action)) (hstage : b.tasks k = some stage)
    (hact : server.act k b.toShared stage action = some (stage', shared))
    (hbefore : stage = .waitsForGate ∨ ∃ path, stage = .accepted path) : stage' ≠ .finished := by
  rintro rfl
  rcases hbefore with rfl | ⟨path, rfl⟩
  · cases action with
    | takeGate =>
        obtain ⟨gate, -, heq⟩ := Option.map_eq_some_iff.mp hact
        cases heq
    | drop => exact h.1 hstage
    | _ => cases hact
  · cases action with
    | start =>
        rw [Server.act, if_neg (not_not.mpr (h path hstage))] at hact
        cases hact
    | drop => exact h.2 path hstage
    | _ => cases hact

theorem Consumed.step {m : Move} {b b' : State Key} (h : Consumed b) (hgated : Gated b)
    (hturn : server.KeepsTurn b m) (hstep : server.step m b = some b') : Consumed b' := by
  rcases Server.step_cases hstep with ⟨path, -, rfl⟩ |
    ⟨k, action, stage, stage', shared, rfl, hstage, hact, hacts, rfl⟩
  · intro j hj
    rcases tasks_update hj with ⟨-, hj⟩ | ⟨-, hj⟩
    · cases hj
    · exact h j hj
  · intro j hj
    show j < shared.gate.nextSequence
    rcases tasks_update hj with ⟨rfl, rfl⟩ | ⟨-, hj⟩
    · rcases hacts.finished (hgated.gated j stage hstage) with hlt | hbefore
      · exact hlt
      · exact absurd rfl (hturn.ne_finished hstage hact hbefore)
    · have hlt := h j hj
      rcases (hacts.gate (hgated.gated k stage hstage)).2.2 with hgate | ⟨-, hgate⟩
      · rw [hgate]
        exact hlt
      · rw [hgate]
        exact Nat.lt_succ_of_lt hlt

/-- If the gate is idle and a task waits for it, a task that has not finished has the next number. -/
def CanAdvance (b : State Key) : Prop :=
  b.gate.busy = false → (∃ k, b.tasks k = some .waitsForGate) →
    ∃ stage, b.tasks b.gate.nextSequence = some stage ∧ stage ≠ .finished

/-- While every number goes through the gate, the gate can advance. -/
theorem gate_never_stuck {b : State Key} (h : Runs server.step server.KeepsTurn .init b) :
    CanAdvance b := by
  have hinv : Gated b ∧ Consumed b := by
    refine h.invariant (I := fun b => Gated b ∧ Consumed b) ⟨gated_init, fun _ hk => nomatch hk⟩ ?_
    exact fun b m b' hb hturn hstep => ⟨hb.1.step hstep, hb.2.step hb.1 hturn hstep⟩
  obtain ⟨hgated, hconsumed⟩ := hinv
  rintro - ⟨k, hk⟩
  have hle : b.gate.nextSequence ≤ k := hgated.gated k _ hk
  have hlt := ((hgated.known k).mp ⟨_, hk⟩).2
  obtain ⟨stage, hstage⟩ := (hgated.known b.gate.nextSequence).mpr ⟨hgated.pos, by omega⟩
  refine ⟨stage, hstage, ?_⟩
  rintro rfl
  exact absurd (hconsumed _ hstage) (Nat.lt_irrefl _)

/-- A server on the path `/rpc` that takes all requests into one lane. -/
def rpcServer : Server Unit := ⟨ascii "/rpc", fun _ => (), fun _ => false⟩

theorem gate_never_stuck_waiting :
    ∃ b, Runs rpcServer.step rpcServer.KeepsTurn .init b ∧ CanAdvance b ∧
      b.tasks 1 = some .waitsForGate := by
  obtain ⟨b, hb, hwaits⟩ : ∃ b, Runs rpcServer.step rpcServer.KeepsTurn .init b ∧
      b.tasks 1 = some .waitsForGate := by
    have haccept : Runs rpcServer.step rpcServer.KeepsTurn .init _ :=
      .step (m := .accept (ascii "/rpc")) .refl trivial rfl
    refine ⟨_, haccept.step (m := .act 1 .start) ?_ rfl, rfl⟩
    intro path hpath
    cases hpath
    rfl
  exact ⟨b, hb, gate_never_stuck hb, hwaits⟩

/-- The stream of a wrong path has finished, and the next one waits for its number. -/
theorem rejected_stream_blocks_gate :
    ∃ b, Runs rpcServer.step unrestricted .init b ∧ ¬ CanAdvance b := by
  obtain ⟨b, hb, htest⟩ := Runs.exists_of_follow rpcServer.step unrestricted .init
    [.accept (ascii "/other"), .accept (ascii "/rpc"), .act 1 .start, .act 2 .start]
    (fun b => b.gate = .init && b.tasks 1 = some .finished && b.tasks 2 = some .waitsForGate)
    (by decide +kernel)
  simp only [Bool.and_eq_true, decide_eq_true_eq] at htest
  obtain ⟨⟨hgate, hone⟩, htwo⟩ := htest
  refine ⟨b, hb, fun hadvance => ?_⟩
  obtain ⟨stage, hstage, hne⟩ := hadvance (by rw [hgate]; rfl) ⟨2, htwo⟩
  rw [hgate, show OrderedSequenceGate.init.nextSequence = 1 from rfl, hone] at hstage
  exact hne (Option.some.inj hstage).symm

/-! ## A number that never goes through -/

/-- A task that ended before its turn holds the gate at its number, whatever happens then. -/
theorem skipped_number_blocks {b b' : State Key} {cond : State Key → Move → Prop} {k : Nat}
    (hgated : Gated b) (hk : b.tasks k = some .finished) (hle : b.gate.nextSequence ≤ k)
    (h : Runs server.step cond b b') : b'.gate.nextSequence ≤ k := by
  have hinv : Gated b' ∧ b'.tasks k = some .finished ∧ b'.gate.nextSequence ≤ k := by
    refine h.invariant (I := fun b => Gated b ∧ b.tasks k = some .finished ∧ b.gate.nextSequence ≤ k)
      ⟨hgated, hk, hle⟩ ?_
    rintro b m b' ⟨hgated, hk, hle⟩ - hstep
    refine ⟨hgated.step hstep, ?_⟩
    rcases Server.step_cases hstep with ⟨path, -, rfl⟩ |
      ⟨j, action, stage, stage', shared, -, hstage, -, hacts, rfl⟩
    · have hne : k ≠ b.nextAcceptSequence := Nat.ne_of_lt ((hgated.known k).mp ⟨_, hk⟩).2
      exact ⟨(Function.update_of_ne hne ..).trans hk, hle⟩
    · -- the task that moves is another one, for this one has finished
      have hne : k ≠ j := by
        rintro rfl
        obtain rfl := Option.some.inj (hk.symm.trans hstage)
        cases hacts with
        | leaveLane hholds => cases hholds
        | stop _ _ hend => exact hend rfl
      refine ⟨(Function.update_of_ne hne ..).trans hk, ?_⟩
      show shared.gate.nextSequence ≤ k
      have hj := hgated.gated j stage hstage
      rcases (hacts.gate hj).2.2 with hgate | ⟨rfl, hgate⟩
      · rw [hgate]
        exact hle
      · have hnext : j = b.gate.nextSequence := hj.1
        rw [hgate]
        show b.gate.nextSequence + 1 ≤ k
        omega
  exact hinv.2.2

end Muxly.Bridge
