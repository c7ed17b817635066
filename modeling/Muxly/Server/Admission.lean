/-
# Muxly.Server.Admission -- the pending slots of a session, and the requests that hold them

A connection thread reserves a slot for every ordinary request and for every stream that it serves
itself. It gives the slot of a stream back when the stream ends, and hands the slot of an ordinary
request over to the lane with the request; the worker gives it back. When the request cannot be
queued, the connection thread gives the slot back. When its lane cannot be told, the thread leaves
without giving it back.

`Admission` keeps the accounts of all slots over the runs in which every classification succeeds;
`pending_slots` reads off what they say about `pending_requests`.
-/
import Muxly.Server.References
import Muxly.Sync.Reservations

namespace Muxly.Server

open Muxly.Core Muxly.Daemon Muxly.Sync

/-! ## Who holds a slot -/

/-- The connection thread has a slot for line `l`: it serves its stream, or hands the request to its
lane. -/
def Phase.Admits (φ : Phase) (l : LineId) : Prop := φ.At l ∧ φ.slot = true

instance (φ : Phase) (l : LineId) : Decidable (φ.Admits l) := inferInstanceAs (Decidable (_ ∧ _))

/-- The worker has taken up the request of line `l` and is not done with it. -/
def Executing (c : Machine.Config Party Op State Phase) (l : LineId) : Prop :=
  (c.phase (.worker l)).stage ≠ .fresh ∧ (c.next (.worker l)).isSome = true

instance (c : Machine.Config Party Op State Phase) (l : LineId) : Decidable (Executing c l) :=
  inferInstanceAs (Decidable (_ ∧ _))

/-- The request of line `l` is queued or being executed, or its connection thread serves it with a
slot. -/
def Holds (c : Machine.Config Party Op State Phase) (l : LineId) : Prop :=
  l ∈ c.state.queued ∨ Executing c l ∨ (c.phase (.connection l.session)).Admits l

instance (c : Machine.Config Party Op State Phase) : DecidablePred (Holds c) :=
  fun _ => inferInstanceAs (Decidable (_ ∨ _))

/-- The requests of session `s` that hold a slot, among the lines that have been read. -/
def holders (c : Machine.Config Party Op State Phase) (s : Nat) : Finset LineId :=
  ((Finset.range (c.state.read s)).image (LineId.mk s)).filter (Holds c)

/-- A call that asks for the lane of a request. -/
def Op.isClassification : Op → Bool
  | .consult .classifyExecutionLane => true
  | _ => false

/-- The classification of a request succeeds. -/
def Classifies (_ : Party) (o : Op) (b : Bool) (_ : State) : Prop :=
  o.isClassification = true → b = true

instance (p : Party) (o : Op) (b : Bool) (st : State) : Decidable (Classifies p o b st) :=
  inferInstanceAs (Decidable (_ → _))

/-- What a call does to a slot, and to the slot of which request: a connection serves the line that
it has read last. -/
def slotEvent (p : Party) (o : Op) (b : Bool) (st : State) : Option (SlotEvent LineId) :=
  match p, o with
  | .connection s, .tryReservePendingSlot _ =>
    if b then some (.reserved ⟨s, st.read s - 1⟩) else none
  | .connection s, .finishPendingRequest _ => some (.released ⟨s, st.read s - 1⟩)
  | .worker l, .finishPendingRequest _ => some (.released l)
  | _, _ => none

/-! ## Calls -/

/-- A call that takes a slot or gives one back, hands a slot over, or goes on to another line. -/
def Op.MovesSlots : Op → Prop
  | .init _ | .tryReservePendingSlot _ | .finishPendingRequest _ | .readMessageLine _
  | .enqueue _ | .dequeue _ => True
  | _ => False

section Calls

variable {st st' : State} {o : Op} {choice : Choice} {b : Bool}

@[simp] theorem ConnectionSession.touch_pendingRequests (session : ConnectionSession) :
    session.touch.pendingRequests = session.pendingRequests := rfl

@[simp] theorem ConnectionSession.release_pendingRequests (session : ConnectionSession) :
    session.release.pendingRequests = session.pendingRequests := by
  unfold ConnectionSession.release
  split <;> rfl

/-- What a call on a session does to the slots. -/
theorem onSession_pendingRequests (st : State) (t : Nat)
    {f : ConnectionSession → ConnectionSession}
    (hf : ∀ session, (f session).pendingRequests = session.pendingRequests) (s : Nat) :
    ((st.onSession t f).session s).pendingRequests = (st.session s).pendingRequests := by
  rw [State.onSession_session]
  split
  · rename_i hs
    rw [hf, hs, ConnectionSession.touch_pendingRequests]
  · rfl

/-- From `st` to `st'` no slot is taken, given back or handed over, and no line is read. -/
structure KeepsSlots (st st' : State) : Prop where
  queued : st'.queued = st.queued
  read : st'.read = st.read
  pending : ∀ s, (st'.session s).pendingRequests = (st.session s).pendingRequests

theorem KeepsSlots.of_eq (hqueued : st'.queued = st.queued) (hread : st'.read = st.read)
    (hsession : st'.session = st.session) : KeepsSlots st st' :=
  ⟨hqueued, hread, fun s => by rw [hsession]⟩

theorem KeepsSlots.trans {st'' : State} (h : KeepsSlots st st') (h' : KeepsSlots st' st'') :
    KeepsSlots st st'' :=
  ⟨h'.queued.trans h.queued, h'.read.trans h.read, fun s => (h'.pending s).trans (h.pending s)⟩

theorem KeepsSlots.onSession (st : State) (s : Nat) {f : ConnectionSession → ConnectionSession}
    (hf : ∀ session, (f session).pendingRequests = session.pendingRequests) :
    KeepsSlots st (st.onSession s f) :=
  ⟨rfl, rfl, onSession_pendingRequests st s hf⟩

theorem KeepsSlots.writeFrame (st : State) (origin : LineId) (role : Role) (frame : Frame)
    (succeeds : Bool) : KeepsSlots st (st.writeFrame origin role frame succeeds).2 := by
  unfold State.writeFrame
  split
  · exact .onSession st origin.session (f := id) fun _ => rfl
  · split
    · exact .onSession st origin.session (f := fun session => { session with broken := true })
        fun _ => rfl
    · exact (KeepsSlots.onSession st origin.session (f := id) fun _ => rfl).trans
        (.of_eq rfl rfl rfl)

theorem KeepsSlots.projectionDeinit (st : State) (h : LineId) :
    KeepsSlots st (st.projectionDeinit h) := by
  unfold State.projectionDeinit
  refine KeepsSlots.trans ?_ (.onSession _ h.session ConnectionSession.release_pendingRequests)
  exact .of_eq rfl rfl rfl

theorem Exits.keepsSlots (h : Exits st st') : KeepsSlots st st' := by
  induction h with
  | refl => exact .of_eq rfl rfl rfl
  | write role frame succeeds _ _ ih => exact ih.trans (.writeFrame ..)
  | @drop st' before rest l _ _ ih =>
      have hleft : KeepsSlots st' { st' with projectionStreams := before ++ rest } :=
        .of_eq rfl rfl rfl
      exact ih.trans (hleft.trans (.projectionDeinit _ l))

theorem exec_keepsSlots (ho : ¬o.MovesSlots) (h : exec choice st o = some (b, st')) :
    KeepsSlots st st' := by
  cases o <;> simp only [Op.MovesSlots, not_true_eq_false] at ho <;> simp only [exec] at h
  case retain s =>
    cases h
    exact .onSession st s (f := (·.retain)) fun _ => rfl
  case release s =>
    cases h
    exact .onSession st s ConnectionSession.release_pendingRequests
  case isClosed s =>
    cases h
    exact .onSession st s (f := id) fun _ => rfl
  case markClosed s =>
    cases h
    exact .onSession st s (f := (·.markClosed)) fun _ => rfl
  case writeFrame origin role frame =>
    obtain rfl : (st.writeFrame origin role frame choice.succeeds).2 = st' :=
      congrArg Prod.snd (Option.some.inj h)
    exact .writeFrame ..
  case projectionInit l conversationId target =>
    cases h
    exact (KeepsSlots.onSession st l.session (f := (·.retain)) fun _ => rfl).trans
      (.of_eq rfl rfl rfl)
  case projectionDeinit l =>
    cases h
    exact .projectionDeinit st l
  case projectionUnregister s conversationId =>
    obtain rfl : (st.projectionUnregister conversationId).2 = st' :=
      congrArg Prod.snd (Option.some.inj h)
    exact (Exits.refl.projectionUnregister conversationId).keepsSlots
  case closeSession s =>
    cases h
    exact (exits_closeSession st s).keepsSlots
  case broadcast =>
    cases h
    exact (exits_broadcast st choice).keepsSlots
  case ttyRegistryRequestClose s conversationId =>
    simp only [State.ttyRegistryRequestClose] at h
    split at h <;> cases h <;> exact .of_eq rfl rfl rfl
  -- What is left does not act on sessions.
  all_goals
    repeat' split at h
    all_goals cases h <;> exact .of_eq rfl rfl rfl

end Calls

/-! ## Phases -/

/-- What the phase of a connection says about its slot while every classification succeeds. -/
structure Phase.Regular (φ : Phase) : Prop where
  unread : φ.stage = .fresh → φ.read = 0
  reading : φ.duty = .owed ∨ φ.slot = true → 0 < φ.read
  outside : φ.stage ≠ .held → φ.slot = false
  classified : φ.duty ≠ .unclassified

/-- What the phase of a worker says about its slot. -/
structure Phase.Staffed (φ : Phase) : Prop where
  fresh : φ.stage = .fresh → φ.slot = false
  held : φ.stage = .held → φ.slot = true

/-- The connection has not come to reserving a slot for line `l`. -/
def Phase.Before (φ : Phase) (l : LineId) : Prop :=
  φ.read ≤ l.line ∨ φ.At l ∧ φ.duty = .owed ∧ φ.slot = false

section Phases

variable {inputs : Inputs} {s : Nat} {l : LineId} {φ φ' : Phase} {o : Op} {b : Bool}

/-- A connection that is done with a line has no slot. -/
theorem Phase.Regular.spent (h : φ.Regular) (hspent : φ.Spent) : φ.slot = false := by
  by_contra hslot
  exact h.classified (hspent.slot (by simpa using hslot))

theorem Phase.consulted_of_classifies {what : Consulted}
    (hcond : (Op.consult what).isClassification = true → b = true) : φ.consulted what b = φ := by
  rw [Phase.consulted, if_neg]
  rintro ⟨rfl, hb⟩
  rw [hcond rfl] at hb
  cases hb

/-- A call of a connection that moves no slot leaves the slot and the line at hand. -/
theorem Phase.Regular.keeps (h : φ.Regular) (hafter : connectionAfter inputs s φ o b = some φ')
    (hcond : o.isClassification = true → b = true) (ho : ¬o.MovesSlots) :
    φ'.read = φ.read ∧ φ'.slot = φ.slot ∧ (φ'.duty = .owed → φ.duty = .owed) ∧
      φ'.duty ≠ .unclassified ∧ φ'.stage ≠ .fresh ∧
      (φ'.stage = φ.stage ∨ φ'.stage ≠ .held ∧ φ.slot = false) := by
  have hclassified := h.classified
  cases o <;> simp only [Op.MovesSlots, not_true_eq_false] at ho <;>
    simp only [connectionAfter, permit_eq_some, reduceCtorEq] at hafter
  case consult what =>
    obtain ⟨hpermit, rfl⟩ := hafter
    rw [Phase.consulted_of_classifies hcond]
    exact ⟨rfl, rfl, id, hclassified, by simp [hpermit.1], .inl rfl⟩
  case writeFrame l role frame =>
    split at hafter
    · cases role <;> simp only [connectionWrites, permit_eq_some] at hafter <;>
        obtain ⟨hpermit, rfl⟩ := hafter <;> cases b <;>
        simp_all [Phase.At, Phase.wrote]
    · cases hafter
  case release t =>
    split at hafter <;> obtain ⟨hpermit, rfl⟩ := permit_eq_some.mp hafter
    · exact ⟨rfl, rfl, id, hclassified, by simp [hpermit.2.1], .inl rfl⟩
    · exact ⟨rfl, rfl, id, hclassified, by simp, .inr ⟨by simp, h.outside (by simp [hpermit.2])⟩⟩
  case closeSession t =>
    obtain ⟨⟨-, hspent⟩, rfl⟩ := hafter
    exact ⟨rfl, rfl, id, hclassified, by simp, .inr ⟨by simp, h.spent hspent⟩⟩
  case endOfStream t =>
    obtain ⟨⟨-, hidle⟩, rfl⟩ := hafter
    exact ⟨rfl, rfl, id, hclassified, by simp [hidle.held], .inl rfl⟩
  all_goals
    obtain ⟨hpermit, rfl⟩ := hafter
    simp_all [Phase.At]

/-- A step of a connection keeps its phase regular. -/
theorem Phase.Regular.after (h : φ.Regular) (hafter : connectionAfter inputs s φ o b = some φ')
    (hcond : o.isClassification = true → b = true) : φ'.Regular ∧ φ'.stage ≠ .fresh := by
  by_cases ho : o.MovesSlots
  · have hclassified := h.classified
    cases o <;> simp only [Op.MovesSlots] at ho <;>
      simp only [connectionAfter, permit_eq_some, reduceCtorEq] at hafter <;>
      obtain ⟨hpermit, rfl⟩ := hafter
    case init t =>
      have hslot := h.outside (by simp [hpermit.2])
      exact ⟨⟨by simp, h.reading, by simp, hclassified⟩, by simp⟩
    case tryReservePendingSlot t =>
      have hread := h.reading (.inl hpermit.2.2.1)
      exact ⟨⟨by simp [hpermit], fun _ => hread, by simp [hpermit], hclassified⟩, by simp [hpermit]⟩
    case finishPendingRequest t =>
      have hread := h.reading (.inr hpermit.2.2.2)
      exact ⟨⟨by simp [hpermit], fun _ => hread, by simp, hclassified⟩, by simp [hpermit]⟩
    case readMessageLine t =>
      have hheld := hpermit.2.held
      cases b
      · exact ⟨h, by simp [hheld]⟩
      · refine ⟨⟨by simp [hheld], fun _ => Nat.succ_pos _, by simp [hheld], ?_⟩, by simp [hheld]⟩
        show inputs.duty _ ≠ _
        unfold Inputs.duty
        split <;> simp
    case enqueue l =>
      obtain ⟨-, ⟨hheld, hread⟩, -⟩ := hpermit
      have hpos : 0 < φ.read := hread ▸ Nat.succ_pos _
      cases b <;> exact ⟨⟨by simp [hheld], fun _ => hpos, by simp [hheld], by simp⟩, by simp [hheld]⟩
  · obtain ⟨hread, hslot, hduty, hclassified, hfresh, hstage⟩ := h.keeps hafter hcond ho
    refine ⟨⟨fun hf => absurd hf hfresh, ?_, fun hout => ?_, hclassified⟩, hfresh⟩
    · rw [hread, hslot]
      exact fun howed => h.reading (howed.imp_left hduty)
    · rw [hslot]
      exact hstage.elim (fun hstage => h.outside (hstage ▸ hout)) And.right

/-- A step of a worker keeps what its phase says about its slot. -/
theorem Phase.Staffed.after (h : φ.Staffed) (hafter : workerAfter inputs l φ o b = some φ') :
    φ'.Staffed := by
  have hheld := h.held
  cases o <;> simp only [workerAfter, permit_eq_some, reduceCtorEq] at hafter <;>
    obtain ⟨hpermit, rfl⟩ := hafter <;> constructor <;> cases b <;> simp_all [Phase.wrote]

/-- The lines for which a connection has not come to reserving a slot become fewer. -/
theorem Phase.Before.of_after (h : φ'.Before l) (hφ : φ.Regular)
    (hafter : connectionAfter inputs s φ o b = some φ')
    (hcond : o.isClassification = true → b = true) : φ.Before l := by
  by_cases ho : o.MovesSlots
  · cases o <;> simp only [Op.MovesSlots] at ho <;>
      simp only [connectionAfter, permit_eq_some, reduceCtorEq] at hafter <;>
      obtain ⟨hpermit, rfl⟩ := hafter
    case init t =>
      have hzero := hφ.unread hpermit.2
      exact .inl (by omega)
    case tryReservePendingSlot t =>
      obtain hread | ⟨hat, howed, -⟩ := h
      · exact .inl hread
      · exact .inr ⟨hat, howed, hpermit.2.2.2⟩
    case finishPendingRequest t =>
      obtain hread | ⟨-, howed, -⟩ := h
      · exact .inl hread
      · exact absurd howed hpermit.2.2.1
    case readMessageLine t =>
      cases b
      · exact h
      · obtain hread | ⟨⟨-, hread⟩, -⟩ := h
        · exact .inl (by simp only [if_true] at hread; omega)
        · exact .inl (by simp only [if_true] at hread; omega)
    case enqueue l =>
      obtain hread | ⟨-, howed, -⟩ := h
      · cases b <;> exact .inl hread
      · cases b <;> cases howed
  · obtain ⟨hread, hslot, hduty, -, -, hstage⟩ := hφ.keeps hafter hcond ho
    obtain hunread | ⟨⟨hheld, hat⟩, howed, hfree⟩ := h
    · exact .inl (hread ▸ hunread)
    · have hstage := hstage.resolve_right fun hout => hout.1 hheld
      exact .inr ⟨⟨hstage ▸ hheld, hread ▸ hat⟩, hduty howed, hslot ▸ hfree⟩

/-- A call of a worker that moves no slot leaves its slot. -/
theorem workerAfter_slot (hafter : workerAfter inputs l φ o b = some φ') (ho : ¬o.MovesSlots) :
    φ'.slot = φ.slot := by
  cases o <;> simp only [workerAfter, permit_eq_some, reduceCtorEq] at hafter <;>
    simp only [Op.MovesSlots, not_true_eq_false] at ho <;> obtain ⟨-, rfl⟩ := hafter <;>
    cases b <;> rfl

/-- A worker that has started and can go on has its slot. -/
theorem Phase.Staffed.slot_of_after (h : φ.Staffed) (hafter : workerAfter inputs l φ o b = some φ')
    (hstage : φ.stage ≠ .fresh) : φ.slot = true := by
  have hheld := h.held
  cases o <;> simp only [workerAfter, permit_eq_some, reduceCtorEq] at hafter <;>
    obtain ⟨hpermit, -⟩ := hafter <;> simp_all

/-- Only connections and workers move slots. -/
theorem Op.MovesSlots.party {p : Party} (ho : o.MovesSlots) (hafter : after inputs p φ o b = some φ') :
    (∃ s, p = .connection s) ∨ ∃ l, p = .worker l := by
  cases p with
  | connection s => exact .inl ⟨s, rfl⟩
  | worker l => exact .inr ⟨l, rfl⟩
  | reader l => cases o <;> simp_all [Server.after, readerAfter, Op.MovesSlots]
  | client s thread => cases o <;> simp_all [Server.after, clientAfter, Op.MovesSlots]
  | maintenance => cases o <;> simp_all [Server.after, Op.MovesSlots]

end Phases

/-! ## The accounts -/

/-- `pending_requests` of a session. -/
def State.pending (st : State) (s : Nat) : Nat := (st.session s).pendingRequests

/-- How many slots a connection has for line `l`. -/
def Phase.admitted (φ : Phase) (l : LineId) : Nat := if φ.Admits l then 1 else 0

/-- How many slots are held for line `l`, by its lane, its worker and its connection. -/
def slots (st : State) (phase : Party → Phase) (l : LineId) : Nat :=
  st.queued.count l + (phase (.worker l)).slot.toNat + (phase (.connection l.session)).admitted l

/-- The slots of all sessions, over the runs in which every classification succeeds. -/
structure Admission (log : List (SlotEvent LineId)) (st : State) (phase : Party → Phase) :
    Prop where
  accounts : Accounts LineId.session log (slots st phase) st.pending
  bounded : ∀ s, st.pending s ≤ maxPendingRequestsPerConnection
  read : ∀ s, st.read s = (phase (.connection s)).read
  regular : ∀ s, (phase (.connection s)).Regular
  fresh : ∀ s, (phase (.connection s)).stage = .fresh → st.pending s = 0
  staffed : ∀ l, (phase (.worker l)).Staffed
  unreserved : ∀ l, (phase (.connection l.session)).Before l → log.count (.reserved l) = 0

section Steps

variable {inputs : Inputs} {log : List (SlotEvent LineId)} {st st' : State}
  {phase : Party → Phase} {p : Party} {o : Op} {choice : Choice} {b : Bool} {φ' : Phase}

/-- A call gives no session another slot unless it reserves one that is free. -/
theorem exec_pending (s : Nat) (h : exec choice st o = some (b, st')) :
    st'.pending s ≤ st.pending s ∨ o = .tryReservePendingSlot s ∧
      st.pending s < maxPendingRequestsPerConnection ∧ st'.pending s = st.pending s + 1 := by
  by_cases ho : o.MovesSlots
  · cases o <;> simp only [Op.MovesSlots] at ho <;> simp only [exec] at h
    case init t =>
      cases h
      refine .inl ?_
      unfold State.pending
      by_cases hs : s = t
      · subst hs
        simp [ConnectionSession.absent]
      · simp [hs]
    case tryReservePendingSlot t =>
      split at h <;> cases h
      · exact .inl (onSession_pendingRequests st t (f := id) (fun _ => rfl) s).le
      · rename_i hfree
        simp only [Bool.or_eq_true, decide_eq_true_eq, not_or, not_le] at hfree
        by_cases hs : s = t
        · subst hs
          exact .inr ⟨rfl, hfree.2, by simp [State.pending]⟩
        · exact .inl (by simp [State.pending, hs])
    case finishPendingRequest t =>
      cases h
      refine .inl ?_
      unfold State.pending
      rw [State.onSession_session]
      split
      · rename_i hs
        subst hs
        exact Nat.sub_le ..
      · exact le_rfl
    all_goals
      repeat' split at h
      all_goals cases h <;> exact .inl le_rfl
  · exact .inl ((exec_keepsSlots ho h).pending s).le

/-- A call that reads no line leaves the count of the lines read. -/
theorem exec_read (ho : ∀ s, o ≠ .readMessageLine s) (h : exec choice st o = some (b, st')) :
    st'.read = st.read := by
  by_cases hmoves : o.MovesSlots
  · cases o <;> simp only [Op.MovesSlots] at hmoves <;> simp only [exec] at h
    case readMessageLine s => exact absurd rfl (ho s)
    all_goals
      repeat' split at h
      all_goals cases h <;> rfl
  · exact (exec_keepsSlots hmoves h).read

/-! ### Connections -/

section Connection

variable {s : Nat}

theorem slots_connection (st : State) (phase : Party → Phase) (φ' : Phase) (i : Nat) :
    slots st (Function.update phase (.connection s) φ') ⟨s, i⟩ =
      st.queued.count ⟨s, i⟩ + (phase (.worker ⟨s, i⟩)).slot.toNat + φ'.admitted ⟨s, i⟩ := by
  simp [slots]

theorem slots_connection_of_ne {l : LineId} (hcount : st'.queued.count l = st.queued.count l)
    (φ' : Phase) (hl : l.session ≠ s) :
    slots st' (Function.update phase (.connection s) φ') l = slots st phase l := by
  simp [slots, hl, hcount]

/-- A step of a connection that concerns its own slot for one line. -/
theorem slots_connection_at (phase : Party → Phase) (hqueued : st'.queued = st.queued) (i : Nat)
    (hothers : ∀ j, j ≠ i → φ'.admitted ⟨s, j⟩ = (phase (.connection s)).admitted ⟨s, j⟩) :
    slots st' (Function.update phase (.connection s) φ') ⟨s, i⟩ +
        (phase (.connection s)).admitted ⟨s, i⟩ =
      slots st phase ⟨s, i⟩ + φ'.admitted ⟨s, i⟩ ∧
    ∀ l, l ≠ ⟨s, i⟩ →
      slots st' (Function.update phase (.connection s) φ') l = slots st phase l := by
  constructor
  · rw [slots_connection, hqueued]
    simp only [slots]
    omega
  · intro l hl
    by_cases hs : l.session = s
    · rcases l with ⟨t, j⟩
      obtain rfl : t = s := hs
      rw [slots_connection, hqueued, hothers j fun hj => hl (by rw [hj]), slots]
    · exact slots_connection_of_ne (by rw [hqueued]) φ' hs

/-- A step of a connection that moves no slot. -/
theorem moves_connection_none (hqueued : st'.queued = st.queued)
    (hpending : ∀ t, st'.pending t = st.pending t)
    (hadmitted : ∀ i, φ'.admitted ⟨s, i⟩ = (phase (.connection s)).admitted ⟨s, i⟩) :
    Moves LineId.session (slots st phase) (slots st' (Function.update phase (.connection s) φ'))
      st.pending st'.pending none := by
  refine ⟨funext fun l => ?_, funext hpending⟩
  by_cases hl : l.session = s
  · rcases l with ⟨t, i⟩
    obtain rfl : t = s := hl
    rw [slots_connection, hqueued, hadmitted, slots]
  · exact slots_connection_of_ne (by rw [hqueued]) φ' hl

theorem Phase.admitted_of_slot {φ : Phase} (hslot : φ.slot = false) (l : LineId) :
    φ.admitted l = 0 := by
  simp [Phase.admitted, Phase.Admits, hslot]

/-- The slot of a connection is the one of the line at hand. -/
theorem Phase.admitted_of_held {φ : Phase} (hheld : φ.stage = .held) (hread : 0 < φ.read)
    (hslot : φ.slot = true) (i : Nat) :
    φ.admitted ⟨s, i⟩ = if i = φ.read - 1 then 1 else 0 := by
  have hat : φ.At ⟨s, i⟩ ↔ i = φ.read - 1 := by
    simp only [Phase.At, hheld, true_and]
    omega
  simp only [Phase.admitted, Phase.Admits, hat, hslot, and_true]

/-- A connection reserves a slot for the line at hand. -/
theorem Admission.tryReserve (h : Admission log st phase)
    (hexec : exec choice st (.tryReservePendingSlot s) = some (b, st'))
    (hafter : connectionAfter inputs s (phase (.connection s)) (.tryReservePendingSlot s) b =
      some φ') :
    Moves LineId.session (slots st phase) (slots st' (Function.update phase (.connection s) φ'))
      st.pending st'.pending (slotEvent (.connection s) (.tryReservePendingSlot s) b st) := by
  obtain ⟨⟨-, hheld, howed, hslot⟩, rfl⟩ := permit_eq_some.mp hafter
  have hread := (h.regular s).reading (.inl howed)
  have hbefore := Phase.admitted_of_slot hslot
  simp only [exec] at hexec
  split at hexec <;> cases hexec
  · refine moves_connection_none rfl ?_ fun i => ?_
    · exact onSession_pendingRequests st s (f := id) fun _ => rfl
    · rw [hbefore]
      exact Phase.admitted_of_slot rfl _
  · have hthen := @Phase.admitted_of_held s { phase (.connection s) with slot := true } hheld hread rfl
    have hqueued : (st.onSession s fun session =>
        { session with pendingRequests := session.pendingRequests + 1 }).queued = st.queued := rfl
    obtain ⟨hself, hothers⟩ := slots_connection_at phase hqueued
      ((phase (.connection s)).read - 1) fun j hj => by rw [hthen, if_neg hj, hbefore]
    rw [hthen, hbefore, if_pos rfl] at hself
    rw [slotEvent, if_pos rfl, h.read s]
    refine ⟨hself, hothers, ?_, fun t ht => ?_⟩
    · simp [State.pending]
    · simp [State.pending, ht]

/-- A connection gives back the slot of the line at hand. -/
theorem Admission.finishPendingRequest (h : Admission log st phase)
    (hexec : exec choice st (.finishPendingRequest s) = some (b, st'))
    (hafter : connectionAfter inputs s (phase (.connection s)) (.finishPendingRequest s) b =
      some φ') :
    Moves LineId.session (slots st phase) (slots st' (Function.update phase (.connection s) φ'))
      st.pending st'.pending (slotEvent (.connection s) (.finishPendingRequest s) b st) := by
  obtain ⟨⟨-, hheld, -, hslot⟩, rfl⟩ := permit_eq_some.mp hafter
  have hread := (h.regular s).reading (.inr hslot)
  have hbefore := @Phase.admitted_of_held s _ hheld hread hslot
  have hthen := @Phase.admitted_of_slot { phase (.connection s) with slot := false } rfl
  cases hexec
  have hqueued : (st.onSession s (·.finishPendingRequest)).queued = st.queued := rfl
  obtain ⟨hself, hothers⟩ := slots_connection_at phase hqueued
    ((phase (.connection s)).read - 1) fun j hj => by rw [hthen, hbefore, if_neg hj]
  rw [hthen, hbefore, if_pos rfl] at hself
  rw [slotEvent, h.read s]
  refine ⟨hself, hothers, ?_, fun t ht => ?_⟩
  · simp [State.pending, ConnectionSession.finishPendingRequest]
  · simp [State.pending, ht]

/-- A request that is queued takes its slot along. -/
theorem moves_enqueue {l : LineId} (hexec : exec choice st (.enqueue l) = some (b, st'))
    (hafter : connectionAfter inputs s (phase (.connection s)) (.enqueue l) b = some φ') :
    Moves LineId.session (slots st phase) (slots st' (Function.update phase (.connection s) φ'))
      st.pending st'.pending none := by
  obtain ⟨⟨hl, ⟨hheld, hread⟩, -, hslot, -⟩, rfl⟩ := permit_eq_some.mp hafter
  rcases l with ⟨t, i⟩
  obtain rfl : t = s := hl
  have hat : (phase (.connection t)).read = i + 1 := hread
  have hbefore := @Phase.admitted_of_held t _ hheld (by omega) hslot
  simp only [exec] at hexec
  split at hexec <;> cases hexec
  · refine ⟨funext fun l => ?_, rfl⟩
    by_cases hs : l.session = t
    · rcases l with ⟨u, j⟩
      obtain rfl : u = t := hs
      have hnone := Phase.admitted_of_slot (φ := { phase (.connection u) with
        duty := .delegated, slot := false, extra := false }) rfl ⟨u, j⟩
      rw [slots_connection, if_pos rfl, hnone, slots, hbefore, hat]
      by_cases hj : j = i
      · subst hj
        simp
        omega
      · simp [hj, Ne.symm hj]
    · refine slots_connection_of_ne ?_ _ hs
      have hne : (⟨t, i⟩ : LineId) ≠ l := fun heq => hs (by rw [← heq])
      simp [hne]
  · refine moves_connection_none rfl (fun _ => rfl) fun _ => ?_
    rfl

/-- What a step of a connection does to the slots. -/
theorem Admission.moves_connection (h : Admission log st phase)
    (hexec : exec choice st o = some (b, st'))
    (hafter : connectionAfter inputs s (phase (.connection s)) o b = some φ')
    (hcond : o.isClassification = true → b = true) :
    Moves LineId.session (slots st phase) (slots st' (Function.update phase (.connection s) φ'))
      st.pending st'.pending (slotEvent (.connection s) o b st) := by
  by_cases ho : o.MovesSlots
  · cases o <;> simp only [Op.MovesSlots] at ho
    case init t =>
      obtain ⟨⟨rfl, hfresh⟩, rfl⟩ := permit_eq_some.mp hafter
      have hslot := (h.regular t).outside (by simp [hfresh])
      have hpending := h.fresh t hfresh
      cases hexec
      refine moves_connection_none rfl (fun u => ?_) fun i => ?_
      · by_cases hu : u = t
        · subst hu
          rw [hpending]
          simp [State.pending, ConnectionSession.absent]
        · simp [State.pending, hu]
      · rw [Phase.admitted_of_slot hslot]
        exact Phase.admitted_of_slot (by exact hslot) _
    case tryReservePendingSlot t =>
      obtain rfl : t = s := (permit_eq_some.mp hafter).1.1
      exact h.tryReserve hexec hafter
    case finishPendingRequest t =>
      obtain rfl : t = s := (permit_eq_some.mp hafter).1.1
      exact h.finishPendingRequest hexec hafter
    case readMessageLine t =>
      obtain ⟨⟨-, hidle⟩, rfl⟩ := permit_eq_some.mp hafter
      have hqueued : st'.queued = st.queued ∧ st'.session = st.session := by
        simp only [exec] at hexec
        repeat' split at hexec
        all_goals cases hexec <;> exact ⟨rfl, rfl⟩
      refine moves_connection_none hqueued.1 (fun u => ?_) fun i => ?_
      · rw [State.pending, State.pending, hqueued.2]
      · rw [Phase.admitted_of_slot hidle.slot_eq]
        exact Phase.admitted_of_slot (by cases b <;> exact hidle.slot_eq) _
    case enqueue l => exact moves_enqueue hexec hafter
    case dequeue l => cases hafter
  · have hkeeps := exec_keepsSlots ho hexec
    obtain ⟨hread, hslot, -, -, -, hstage⟩ := (h.regular s).keeps hafter hcond ho
    have hevent : slotEvent (.connection s) o b st = none := by
      cases o <;> first
        | rfl
        | exact absurd trivial ho
    rw [hevent]
    refine moves_connection_none hkeeps.queued hkeeps.pending fun i => ?_
    obtain hstage | ⟨-, hnone⟩ := hstage
    · have hadmits : φ'.Admits ⟨s, i⟩ ↔ (phase (.connection s)).Admits ⟨s, i⟩ := by
        simp only [Phase.Admits, Phase.At, hread, hslot, hstage]
      simp only [Phase.admitted, hadmits]
    · rw [Phase.admitted_of_slot hnone, Phase.admitted_of_slot (hslot.trans hnone)]

end Connection

/-! ### Workers -/

section Worker

variable {l : LineId}

theorem slots_worker (st : State) (phase : Party → Phase) (φ' : Phase) (l : LineId) :
    slots st (Function.update phase (.worker l) φ') l =
      st.queued.count l + φ'.slot.toNat + (phase (.connection l.session)).admitted l := by
  simp [slots]

theorem slots_worker_of_ne {l' : LineId} (hcount : st'.queued.count l' = st.queued.count l')
    (φ' : Phase) (hl : l' ≠ l) :
    slots st' (Function.update phase (.worker l) φ') l' = slots st phase l' := by
  simp [slots, hl, hcount]

/-- What a step of a worker does to the slots. -/
theorem Admission.moves_worker (h : Admission log st phase)
    (hexec : exec choice st o = some (b, st'))
    (hafter : workerAfter inputs l (phase (.worker l)) o b = some φ') :
    Moves LineId.session (slots st phase) (slots st' (Function.update phase (.worker l) φ'))
      st.pending st'.pending (slotEvent (.worker l) o b st) := by
  by_cases ho : o.MovesSlots
  · cases o <;> simp only [Op.MovesSlots] at ho
    case dequeue l' =>
      obtain ⟨⟨rfl, hfresh⟩, rfl⟩ := permit_eq_some.mp hafter
      have hslot := (h.staffed l').fresh hfresh
      simp only [exec] at hexec
      split at hexec <;> cases hexec
      rename_i hmem
      have hpos := List.count_pos_iff.mpr hmem
      refine ⟨funext fun l => ?_, rfl⟩
      by_cases hl : l = l'
      · subst hl
        rw [slots_worker, slots, hslot, List.count_erase_self]
        simp only [Bool.toNat_true, Bool.toNat_false]
        omega
      · exact slots_worker_of_ne (List.count_erase_of_ne hl) _ hl
    case finishPendingRequest t =>
      obtain ⟨⟨rfl, -, hslot⟩, rfl⟩ := permit_eq_some.mp hafter
      cases hexec
      refine ⟨?_, fun l' hl => slots_worker_of_ne rfl _ hl, ?_, fun t ht => ?_⟩
      · rw [slots_worker, slots, hslot]
        simp only [Bool.toNat_true, Bool.toNat_false, State.onSession_queued]
        omega
      · simp [State.pending, ConnectionSession.finishPendingRequest]
      · simp [State.pending, ht]
    all_goals cases hafter
  · have hkeeps := exec_keepsSlots ho hexec
    have hslot := workerAfter_slot hafter ho
    have hevent : slotEvent (.worker l) o b st = none := by
      cases o <;> first
        | rfl
        | exact absurd trivial ho
    rw [hevent]
    refine ⟨funext fun l' => ?_, funext hkeeps.pending⟩
    by_cases hl : l' = l
    · subst hl
      rw [slots_worker, hkeeps.queued, hslot, slots]
    · exact slots_worker_of_ne (by rw [hkeeps.queued]) _ hl

end Worker

/-! ### Every party -/

/-- What a step does to the slots. -/
theorem Admission.moves (h : Admission log st phase) (hexec : exec choice st o = some (b, st'))
    (hafter : after inputs p (phase p) o b = some φ') (hcond : Classifies p o b st) :
    Moves LineId.session (slots st phase) (slots st' (Function.update phase p φ')) st.pending
      st'.pending (slotEvent p o b st) := by
  by_cases hp : (∃ s, p = .connection s) ∨ ∃ l, p = .worker l
  · obtain ⟨s, rfl⟩ | ⟨l, rfl⟩ := hp
    · exact h.moves_connection hexec hafter hcond
    · exact h.moves_worker hexec hafter
  · have hkeeps := exec_keepsSlots (fun ho => hp (ho.party hafter)) hexec
    have hconnection (s : Nat) : Party.connection s ≠ p := fun heq => hp (.inl ⟨s, heq.symm⟩)
    have hworker (l : LineId) : Party.worker l ≠ p := fun heq => hp (.inr ⟨l, heq.symm⟩)
    have hevent : slotEvent p o b st = none := by
      cases p with
      | connection s => exact absurd rfl (hconnection s)
      | worker l => exact absurd rfl (hworker l)
      | _ => rfl
    rw [hevent]
    refine ⟨funext fun l => ?_, funext hkeeps.pending⟩
    simp only [slots, Function.update_of_ne (hconnection _), Function.update_of_ne (hworker _),
      hkeeps.queued]

/-- Only the connection of a session reserves slots, each for the line at hand. -/
theorem slotEvent_reserved {l : LineId} (hafter : after inputs p (phase p) o b = some φ')
    (hevent : slotEvent p o b st = some (.reserved l)) :
    ∃ s, p = .connection s ∧ o = .tryReservePendingSlot s ∧ b = true ∧ l = ⟨s, st.read s - 1⟩ := by
  cases p with
  | connection s =>
      cases o <;> simp only [slotEvent, reduceCtorEq, Option.some.injEq] at hevent
      case tryReservePendingSlot t =>
        obtain rfl : t = s := (permit_eq_some.mp hafter).1.1
        split at hevent <;> simp_all
  | worker l => cases o <;> simp [slotEvent] at hevent
  | _ => simp [slotEvent] at hevent

/-- A slot is reserved for a line once. -/
theorem Admission.reserved (h : Admission log st phase) {l : LineId}
    (hafter : after inputs p (phase p) o b = some φ')
    (hevent : slotEvent p o b st = some (.reserved l)) :
    log.count (.reserved l) = 0 ∧ ¬(Function.update phase p φ' (.connection l.session)).Before l := by
  obtain ⟨s, rfl, rfl, rfl, rfl⟩ := slotEvent_reserved hafter hevent
  obtain ⟨⟨-, hheld, howed, hslot⟩, rfl⟩ := permit_eq_some.mp hafter
  have hread := (h.regular s).reading (.inl howed)
  refine ⟨h.unreserved _ (.inr ⟨⟨hheld, ?_⟩, howed, hslot⟩), ?_⟩
  · simp only [h.read s]
    omega
  · simp only [Function.update_self, Phase.Before, h.read s]
    rintro (hle | ⟨-, -, hslot⟩)
    · omega
    · cases hslot

theorem eq_connection_of_tryReserve {s : Nat} {φ : Phase}
    (hafter : after inputs p φ (.tryReservePendingSlot s) b = some φ') : p = .connection s := by
  cases p with
  | connection t => rw [(permit_eq_some.mp hafter).1.1]
  | _ => cases hafter

/-- A connection that reads no line stays at its line. -/
theorem Admission.read_connection (h : Admission log st phase) {s : Nat}
    (ho : ∀ t, o ≠ .readMessageLine t)
    (hafter : connectionAfter inputs s (phase (.connection s)) o b = some φ')
    (hcond : o.isClassification = true → b = true) :
    φ'.read = (phase (.connection s)).read := by
  by_cases hmoves : o.MovesSlots
  · cases o <;> simp only [Op.MovesSlots] at hmoves <;>
      simp only [connectionAfter, permit_eq_some, reduceCtorEq] at hafter <;>
      obtain ⟨-, rfl⟩ := hafter
    case readMessageLine t => exact absurd rfl (ho t)
    case enqueue l => cases b <;> rfl
    all_goals rfl
  · exact ((h.regular s).keeps hafter hcond hmoves).1

/-- The connections and the shared state agree on the lines that have been read. -/
theorem Admission.step_read (h : Admission log st phase) (hexec : exec choice st o = some (b, st'))
    (hafter : after inputs p (phase p) o b = some φ') (hcond : Classifies p o b st) (s : Nat) :
    st'.read s = (Function.update phase p φ' (.connection s)).read := by
  have hread := h.read s
  by_cases ho : ∃ t, o = .readMessageLine t
  · obtain ⟨t, rfl⟩ := ho
    obtain rfl : p = .connection t := by
      cases p with
      | connection u => rw [(permit_eq_some.mp hafter).1.1]
      | _ => cases hafter
    obtain ⟨-, rfl⟩ := permit_eq_some.mp hafter
    rw [update_connection]
    simp only [exec] at hexec
    split at hexec
    · split at hexec <;> cases hexec
      by_cases hs : s = t
      · subst hs
        simp [hread]
      · simp [hs, hread]
    · cases hexec
      by_cases hs : s = t
      · subst hs
        simpa using hread
      · simp [hs, hread]
  · simp only [not_exists] at ho
    rw [exec_read ho hexec, hread]
    by_cases hp : p = .connection s
    · subst hp
      rw [Function.update_self, h.read_connection ho hafter hcond]
    · rw [Function.update_of_ne (Ne.symm hp)]

/-- Every step keeps the accounts. -/
theorem Admission.step (h : Admission log st phase) (hexec : exec choice st o = some (b, st'))
    (hafter : after inputs p (phase p) o b = some φ') (hcond : Classifies p o b st) :
    Admission (log ++ (slotEvent p o b st).toList) st' (Function.update phase p φ') := by
  constructor
  case accounts =>
    exact h.accounts.step (h.moves hexec hafter hcond) fun l hl => (h.reserved hafter hl).1
  case bounded =>
    intro s
    have hle := h.bounded s
    obtain hpending | ⟨-, hfree, hpending⟩ := exec_pending s hexec <;> omega
  case read => exact h.step_read hexec hafter hcond
  case regular =>
    intro s
    by_cases hp : p = .connection s
    · subst hp
      rw [Function.update_self]
      exact ((h.regular s).after hafter hcond).1
    · rw [Function.update_of_ne (Ne.symm hp)]
      exact h.regular s
  case fresh =>
    intro s
    by_cases hp : p = .connection s
    · subst hp
      rw [Function.update_self]
      exact fun hfresh => absurd hfresh ((h.regular s).after hafter hcond).2
    · rw [Function.update_of_ne (Ne.symm hp)]
      intro hfresh
      have hzero := h.fresh s hfresh
      obtain hpending | ⟨rfl, -, -⟩ := exec_pending s hexec
      · omega
      · exact absurd (eq_connection_of_tryReserve hafter) hp
  case staffed =>
    intro l
    by_cases hp : p = .worker l
    · subst hp
      rw [Function.update_self]
      exact (h.staffed l).after hafter
    · rw [Function.update_of_ne (Ne.symm hp)]
      exact h.staffed l
  case unreserved =>
    intro l hbefore
    have hold : (phase (.connection l.session)).Before l := by
      by_cases hp : p = .connection l.session
      · subst hp
        rw [Function.update_self] at hbefore
        exact hbefore.of_after (h.regular _) hafter hcond
      · rwa [Function.update_of_ne (Ne.symm hp)] at hbefore
    have hnot : slotEvent p o b st ≠ some (.reserved l) := fun hevent =>
      (h.reserved hafter hevent).2 hbefore
    rw [List.count_append, h.unreserved l hold, List.count_eq_zero.mpr]
    simpa using hnot

end Steps

/-! ## Runs -/

theorem admission_start : Admission [] .start fun _ => .start := by
  have hslots : slots .start (fun _ => Phase.start) = fun _ => 0 := by
    funext l
    simp [slots, State.start, Phase.start, Phase.admitted, Phase.Admits, Phase.At]
  constructor
  case accounts =>
    rw [hslots]
    exact .start
  case bounded => exact fun _ => Nat.zero_le _
  case read => exact fun _ => rfl
  case regular => exact fun _ => ⟨fun _ => rfl, by simp [Phase.start], fun _ => rfl, by simp [Phase.start]⟩
  case fresh => exact fun _ _ => rfl
  case staffed => exact fun _ => ⟨fun _ => rfl, by simp [Phase.start]⟩
  case unreserved => exact fun _ _ => rfl

section Runs

variable {inputs : Inputs} {log : List (SlotEvent LineId)}
  {c : Machine.Config Party Op State Phase}

theorem recorded_admission
    (h : (machine inputs).Recorded Classifies slotEvent inputs.start log c) :
    Admission log c.state c.phase :=
  h.invariant (scripts_follow inputs) admission_start
    fun _ _ _ _ _ _ _ _ _ hi hexec hafter hcond => hi.step hexec hafter hcond

/-- A worker that has taken up a request has its slot exactly until it is done. -/
theorem Admission.executing_iff (h : Admission log c.state c.phase)
    (hconforms : (machine inputs).Conforms (Ends inputs) c) (l : LineId) :
    Executing c l ↔ (c.phase (.worker l)).slot = true := by
  have hstaffed := h.staffed l
  have hworker := hconforms (.worker l)
  unfold Executing Machine.Config.next
  cases hscript : c.script (.worker l) with
  | done r =>
      rw [hscript] at hworker
      have hslot : (c.phase (.worker l)).slot = false := by
        simp only [Machine.follows_done, Ends] at hworker
        split at hworker
        · exact hworker.2.1
        · rw [hworker]
          rfl
      simp [hslot]
  | op o rest =>
      rw [hscript] at hworker
      obtain ⟨φ', hafter, -⟩ := hworker true
      constructor
      · exact fun hexecuting => hstaffed.slot_of_after hafter hexecuting.1
      · intro hslot
        refine ⟨fun hfresh => ?_, rfl⟩
        rw [hstaffed.fresh hfresh] at hslot
        cases hslot

/-- The requests that hold a slot are those of the accounts. -/
theorem Admission.holds_iff (h : Admission log c.state c.phase)
    (hconforms : (machine inputs).Conforms (Ends inputs) c) (l : LineId) :
    Holds c l ↔ 0 < slots c.state c.phase l := by
  rw [Holds, h.executing_iff hconforms, slots, Phase.admitted, ← List.count_pos_iff]
  cases (c.phase (.worker l)).slot <;> by_cases ha : (c.phase (.connection l.session)).Admits l <;>
    simp [ha]

/-- A request that holds a slot is one of a line that has been read. -/
theorem Admission.mem_holders (h : Admission log c.state c.phase)
    (hconforms : (machine inputs).Conforms (Ends inputs) c) {s : Nat} {l : LineId} :
    l ∈ holders c s ↔ l.session = s ∧ Holds c l := by
  rcases l with ⟨t, i⟩
  simp only [holders, Finset.mem_filter, Finset.mem_image, Finset.mem_range, LineId.mk.injEq]
  constructor
  · rintro ⟨⟨j, -, rfl, rfl⟩, hholds⟩
    exact ⟨rfl, hholds⟩
  · rintro ⟨rfl, hholds⟩
    refine ⟨⟨i, ?_, rfl, rfl⟩, hholds⟩
    by_contra hunread
    rw [h.read] at hunread
    have hnone := h.unreserved ⟨t, i⟩ (.inl (not_lt.mp hunread))
    have hpos := (h.holds_iff hconforms _).mp hholds
    have hbalance := h.accounts.balance ⟨t, i⟩
    omega

/-- A thread that is about to give back a slot has one. -/
theorem Admission.pending_pos (h : Admission log c.state c.phase)
    (hconforms : (machine inputs).Conforms (Ends inputs) c) {s : Nat} {p : Party}
    (hnext : c.next p = some (.finishPendingRequest s)) : 0 < c.state.pending s := by
  have hp := hconforms p
  unfold Machine.Config.next at hnext
  split at hnext
  · cases hnext
  · rename_i o rest hscript
    cases hnext
    rw [hscript] at hp
    obtain ⟨φ', hafter, -⟩ := hp true
    cases p with
    | connection t =>
        obtain ⟨rfl, hheld, -, hslot⟩ := (permit_eq_some.mp hafter).1
        have hread := (h.regular s).reading (.inr hslot)
        have hadmitted := Phase.admitted_of_held (s := s) hheld hread hslot
          ((c.phase (.connection s)).read - 1)
        refine h.accounts.used_pos (i := ⟨s, (c.phase (.connection s)).read - 1⟩) ?_
        rw [slots, hadmitted, if_pos rfl]
        exact Nat.succ_pos _
    | worker l =>
        obtain ⟨rfl, -, hslot⟩ := (permit_eq_some.mp hafter).1
        refine h.accounts.used_pos (i := l) ?_
        rw [slots, hslot, Bool.toNat_true]
        omega
    | _ => cases hafter

/-- In the runs in which every classification of a request succeeds: `pending_requests` of a session
is the number of its requests that hold a slot, at most the bound; a request reserves a slot once at
most, and gives it back once and only once, unless it still holds it; and a thread that is about to
give back a slot finds one to give back, in a session that is in memory if the run keeps the
references of the sessions. -/
theorem pending_slots
    (h : (machine inputs).Recorded Classifies slotEvent inputs.start log c) (s : Nat) :
    ((c.state.session s).pendingRequests = (holders c s).card ∧
      ∀ l, l ∈ holders c s ↔ l.session = s ∧ Holds c l) ∧
    (c.state.session s).pendingRequests ≤ maxPendingRequestsPerConnection ∧
    (∀ l, log.count (.reserved l) ≤ 1 ∧
      log.count (.released l) + (if Holds c l then 1 else 0) = log.count (.reserved l)) ∧
    ∀ p, c.next p = some (.finishPendingRequest s) →
      0 < (c.state.session s).pendingRequests ∧
        ((machine inputs).Reaches KeepsReferences inputs.start c → (c.state.session s).Alive) := by
  have hadmission := recorded_admission h
  have hconforms := h.reaches.conforms (scripts_follow inputs)
  have hmem (l : LineId) : l ∈ holders c s ↔ l.session = s ∧ Holds c l :=
    hadmission.mem_holders hconforms
  refine ⟨⟨?_, hmem⟩, hadmission.bounded s, fun l => ⟨hadmission.accounts.once l, ?_⟩,
    fun p hnext => ?_⟩
  · exact hadmission.accounts.used_eq fun l => by rw [hmem, hadmission.holds_iff hconforms]
  · have hbalance := hadmission.accounts.balance l
    have hle := hadmission.accounts.held_le l
    have hholds := hadmission.holds_iff hconforms l
    split
    · rename_i hl
      have hpos := hholds.mp hl
      omega
    · rename_i hl
      have hzero := mt hholds.mpr hl
      omega
  · have hpos : 0 < (c.state.session s).pendingRequests := hadmission.pending_pos hconforms hnext
    refine ⟨hpos, fun hreaches => ?_⟩
    obtain ⟨held, slots, hcounted⟩ := reaches_allCounted hreaches s
    exact hcounted.alive (.inr hpos)

end Runs

/-- A request for the document `/doc`. -/
def getDocument (requestId : String) : Line :=
  .compatibility ⟨some (ascii requestId),
    some ⟨true, some ⟨some (ascii "/doc"), none, none⟩, .documentGet, none⟩⟩

/-- One connection that reads two requests. -/
def twoGets : Inputs := .ofLines fun s => if s = 0 then [getDocument "1", getDocument "2"] else []

/-- The connection queues both requests, and the worker of the first is done with it. -/
def getsQueued : List (Party × Choice) :=
  steps (.client 0 0) 2 ++ steps (.connection 0) 11 ++ steps (.worker ⟨0, 0⟩) 7

theorem pending_slots_gets :
    ∃ log c, (machine twoGets).Recorded Classifies slotEvent twoGets.start log c ∧
      (c.state.session 0).pendingRequests = 1 ∧ (holders c 0).card = 1 ∧
      log.count (.reserved ⟨0, 1⟩) = 1 ∧ log.count (.released ⟨0, 1⟩) = 0 := by
  obtain ⟨c, hc, htest⟩ := Machine.Reaches.exists_of_follow (M := machine twoGets)
    Classifies twoGets.start getsQueued
    (fun c => (c.state.session 0).pendingRequests = 1 ∧ Holds c ⟨0, 1⟩) (by decide +kernel)
  obtain ⟨hone, hholds⟩ := of_decide_eq_true htest
  obtain ⟨log, hlog⟩ := hc.recorded slotEvent
  obtain ⟨⟨hcard, -⟩, -, hledger, -⟩ := pending_slots hlog 0
  obtain ⟨honce, hbalance⟩ := hledger ⟨0, 1⟩
  rw [if_pos hholds] at hbalance
  exact ⟨log, c, hlog, hone, hcard.symm.trans hone, by omega, by omega⟩

/-- The connection queues the first request, cannot tell the lane of the second, and ends. -/
def getUnclassified : List (Party × Choice) :=
  steps (.client 0 0) 2 ++ steps (.connection 0) 8 ++
    [(.connection 0, { Choice.fine with succeeds := false })] ++ steps (.connection 0) 2

theorem unclassified_keeps_slot :
    ∃ c, (machine twoGets).Reaches Machine.anyStep twoGets.start c ∧
      (c.next (.connection 0)).isNone = true ∧
      (c.state.session 0).pendingRequests = 2 ∧ (holders c 0).card = 1 := by
  obtain ⟨c, hc, htest⟩ := Machine.Reaches.exists_of_follow (M := machine twoGets)
    Machine.anyStep twoGets.start getUnclassified
    (fun c => (c.next (.connection 0)).isNone ∧ (c.state.session 0).pendingRequests = 2 ∧
      (holders c 0).card = 1) (by decide +kernel)
  exact ⟨c, hc, of_decide_eq_true htest⟩

end Muxly.Server
