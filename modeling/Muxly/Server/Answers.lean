/-
# Muxly.Server.Answers -- every dispatched request and its final response

The final response to a request is owed from the moment its line is read: first by the connection
thread, then, when the request is queued for a lane, by the lane, and then by the worker. Every write
of an answer pays for one. A write that fails, and a session that a worker finds closed, leave the
response unwritten, on a session that cannot be written any more. The one way to leave a request
unanswered on a writable session is to lose it between its connection and its lane, when the lane
cannot be told or cannot take the request.
-/
import Muxly.Server.Admission
import Muxly.Server.Identity

namespace Muxly.Server

open Muxly.Core Muxly.Daemon Muxly.Sync

/-! ## What has been answered -/

/-- The final responses to a line that have been written. -/
def State.answers (st : State) (l : LineId) : List Output :=
  st.output.filter fun out => out.origin = l ∧ out.role.IsAnswer

/-- A call that may write an answer, or makes a session writable. -/
def Op.Answers : Op → Prop
  | .writeFrame _ role _ => role.IsAnswer
  | .init _ => True
  | _ => False

section Calls

variable {st st' : State} {o : Op} {choice : Choice} {b : Bool}

/-- From `st` to `st'` no answer is written, and no session becomes writable. -/
structure KeepsAnswers (st st' : State) : Prop where
  answers : ∀ l, st'.answers l = st.answers l
  writable : ∀ s, (st'.session s).Writable → (st.session s).Writable

namespace KeepsAnswers

theorem of_eq (houtput : st'.output = st.output) (hsession : st'.session = st.session) :
    KeepsAnswers st st' :=
  ⟨fun l => by rw [State.answers, State.answers, houtput], fun s => by rw [hsession]; exact id⟩

theorem trans {st'' : State} (h : KeepsAnswers st st') (h' : KeepsAnswers st' st'') :
    KeepsAnswers st st'' :=
  ⟨fun l => (h'.answers l).trans (h.answers l), fun s hs => h.writable s (h'.writable s hs)⟩

/-- A call on a session that does not reopen it. -/
theorem onSession (st : State) (t : Nat) {f : ConnectionSession → ConnectionSession}
    (hf : ∀ session, (f session).Writable → session.Writable) : KeepsAnswers st (st.onSession t f) := by
  refine ⟨fun l => rfl, fun s hs => ?_⟩
  rw [State.onSession_session] at hs
  split at hs
  · rename_i heq
    rw [heq]
    exact (hf _ hs : (st.session t).touch.Writable)
  · exact hs

theorem release (st : State) (t : Nat) : KeepsAnswers st (st.onSession t (·.release)) := by
  refine onSession st t fun session hw => ?_
  unfold ConnectionSession.release at hw
  split at hw
  · cases hw.1
  · exact hw

theorem projectionDeinit (st : State) (h : LineId) : KeepsAnswers st (st.projectionDeinit h) := by
  unfold State.projectionDeinit
  refine KeepsAnswers.trans ?_ (release _ h.session)
  exact of_eq rfl rfl

theorem projectionUnregister (st : State) (conversationId : Bytes) :
    KeepsAnswers st (st.projectionUnregister conversationId).2 := by
  unfold State.projectionUnregister
  split
  · rename_i h _
    refine KeepsAnswers.trans ?_ (projectionDeinit _ h)
    exact of_eq rfl rfl
  · exact of_eq rfl rfl

/-- A loop of such calls. -/
theorem foldl {α : Type} {f : State → α → State} (hf : ∀ st x, KeepsAnswers st (f st x))
    (xs : List α) (st : State) : KeepsAnswers st (xs.foldl f st) := by
  induction xs generalizing st with
  | nil => exact of_eq rfl rfl
  | cons x rest ih => exact (hf st x).trans (ih _)

theorem dropStream (st : State) (h : LineId) : KeepsAnswers st (st.dropStream h) := by
  unfold State.dropStream
  refine KeepsAnswers.trans ?_ (projectionDeinit _ h)
  exact of_eq rfl rfl

theorem closeSession (st : State) (s : Nat) : KeepsAnswers st (st.closeSession s) :=
  foldl dropStream _ st

end KeepsAnswers

/-- What a write does to the answers and to the session. -/
theorem writeFrame_cases (st : State) (origin : LineId) (role : Role) (frame : Frame)
    (succeeds : Bool) :
    (∀ s, ((st.writeFrame origin role frame succeeds).2.session s).Writable →
      (st.session s).Writable) ∧
    ((st.writeFrame origin role frame succeeds).1 = true ∧
        (st.writeFrame origin role frame succeeds).2.output = st.output ++ [⟨origin, role, frame⟩] ∨
      (st.writeFrame origin role frame succeeds).1 = false ∧
        (st.writeFrame origin role frame succeeds).2.output = st.output ∧
        ¬ ((st.writeFrame origin role frame succeeds).2.session origin.session).Writable) := by
  have houtput := writeFrame_output st origin role frame succeeds
  unfold State.writeFrame at houtput ⊢
  split at houtput
  · rename_i hclosed
    rw [if_pos hclosed]
    refine ⟨(KeepsAnswers.onSession st origin.session fun _ => id).writable, .inr ⟨rfl, rfl, ?_⟩⟩
    rintro ⟨hopen, -⟩
    simp [ConnectionSession.touch, hclosed] at hopen
  · rename_i hclosed
    rw [if_neg hclosed]
    split at houtput
    · rename_i hbroken
      rw [if_pos hbroken]
      refine ⟨(KeepsAnswers.onSession st origin.session
        (f := fun session => { session with broken := true }) fun session hw => ?_).writable,
        .inr ⟨rfl, rfl, ?_⟩⟩
      · cases hw.2
      · rintro ⟨-, hwhole⟩
        simp at hwhole
    · rename_i hwhole
      rw [if_neg hwhole]
      exact ⟨(KeepsAnswers.onSession st origin.session fun _ => id).writable, .inl ⟨rfl, rfl⟩⟩

/-- A write of stream data. -/
theorem KeepsAnswers.writeFrame (st : State) (origin : LineId) {role : Role} (hrole : ¬ role.IsAnswer)
    (frame : Frame) (succeeds : Bool) :
    KeepsAnswers st (st.writeFrame origin role frame succeeds).2 := by
  obtain ⟨hwritable, hcases⟩ := writeFrame_cases st origin role frame succeeds
  refine ⟨fun l => ?_, hwritable⟩
  unfold State.answers
  rcases hcases with ⟨-, houtput⟩ | ⟨-, houtput, -⟩
  · rw [houtput, List.filter_append]
    simp [hrole]
  · rw [houtput]

theorem KeepsAnswers.sendEvents (choice : Choice) (hs : List LineId) (acc : State × List Bytes) :
    KeepsAnswers acc.1 (hs.foldl (State.sendEvent choice) acc).1 := by
  induction hs generalizing acc with
  | nil => exact .of_eq rfl rfl
  | cons h rest ih =>
      refine KeepsAnswers.trans ?_ (ih _)
      unfold State.sendEvent
      split
      · exact .writeFrame _ _ (by decide) _ _
      · exact .of_eq rfl rfl

theorem KeepsAnswers.broadcast (st : State) (choice : Choice) :
    KeepsAnswers st (st.broadcast choice) := by
  have hsent := KeepsAnswers.sendEvents choice st.projectionStreams (st, [])
  exact hsent.trans (.foldl (fun st conversationId => .projectionUnregister st conversationId) _ _)

theorem exec_keepsAnswers (ho : ¬ o.Answers) (h : exec choice st o = some (b, st')) :
    KeepsAnswers st st' := by
  cases o <;> simp only [Op.Answers, not_true_eq_false] at ho <;> simp only [exec] at h
  case retain s =>
    cases h
    exact .onSession st s fun _ => id
  case release s =>
    cases h
    exact .release st s
  case tryReservePendingSlot s =>
    split at h <;> cases h
    · exact .onSession st s fun _ => id
    · exact .onSession st s fun _ => id
  case finishPendingRequest s =>
    cases h
    exact .onSession st s fun _ => id
  case isClosed s =>
    cases h
    exact .onSession st s fun _ => id
  case markClosed s =>
    cases h
    refine .onSession st s fun session hw => ?_
    cases hw.1
  case writeFrame origin role frame =>
    obtain rfl : (st.writeFrame origin role frame choice.succeeds).2 = st' :=
      congrArg Prod.snd (Option.some.inj h)
    exact .writeFrame st origin ho frame _
  case projectionInit l conversationId target =>
    cases h
    exact (KeepsAnswers.onSession st l.session (f := (·.retain)) fun _ => id).trans (.of_eq rfl rfl)
  case projectionDeinit l =>
    cases h
    exact .projectionDeinit st l
  case projectionUnregister s conversationId =>
    obtain rfl : (st.projectionUnregister conversationId).2 = st' :=
      congrArg Prod.snd (Option.some.inj h)
    exact .projectionUnregister st conversationId
  case closeSession s =>
    cases h
    exact .closeSession st s
  case broadcast =>
    cases h
    exact .broadcast st choice
  case ttyRegistryRequestClose s conversationId =>
    simp only [State.ttyRegistryRequestClose] at h
    split at h <;> cases h <;> exact .of_eq rfl rfl
  -- What is left does not act on sessions.
  all_goals
    repeat' split at h
    all_goals cases h <;> exact .of_eq rfl rfl

/-- Only a dispatch queues a request, and only a worker takes one out. -/
theorem exec_queued (hin : ∀ l, o ≠ .enqueue l) (hout : ∀ l, o ≠ .dequeue l)
    (h : exec choice st o = some (b, st')) : st'.queued = st.queued := by
  by_cases hmoves : o.MovesSlots
  · cases o <;> simp only [Op.MovesSlots] at hmoves <;> simp only [exec] at h
    case enqueue l => exact absurd rfl (hin l)
    case dequeue l => exact absurd rfl (hout l)
    all_goals
      repeat' split at h
      all_goals cases h <;> rfl
  · exact (exec_keepsSlots hmoves h).queued

/-- The call is about line `l`, or makes its session. -/
def Op.Concerns (l : LineId) : Op → Prop
  | .writeFrame l' role _ => l' = l ∧ role.IsAnswer
  | .enqueue l' | .dequeue l' => l' = l
  | .init s => l.session = s
  | _ => False

/-- A call that is not about line `l`. -/
theorem exec_apart {l : LineId} (ho : ¬ o.Concerns l) (h : exec choice st o = some (b, st')) :
    st'.answers l = st.answers l ∧ st'.queued.count l = st.queued.count l ∧
      ((st'.session l.session).Writable → (st.session l.session).Writable) := by
  by_cases hanswers : o.Answers
  · have hqueued : st'.queued = st.queued :=
      exec_queued (fun l heq => by rw [heq] at hanswers; exact hanswers)
        (fun l heq => by rw [heq] at hanswers; exact hanswers) h
    suffices hrest : st'.answers l = st.answers l ∧
        ((st'.session l.session).Writable → (st.session l.session).Writable) from
      ⟨hrest.1, by rw [hqueued], hrest.2⟩
    cases o <;> simp only [Op.Answers] at hanswers <;> simp only [exec] at h
    case init s =>
      cases h
      exact ⟨rfl, by simp [Function.update_of_ne (show l.session ≠ s from fun heq => ho heq)]⟩
    case writeFrame origin role frame =>
      obtain ⟨rfl, rfl⟩ := Prod.ext_iff.mp (Option.some.inj h)
      obtain ⟨hwritable, hcases⟩ := writeFrame_cases st origin role frame choice.succeeds
      refine ⟨?_, hwritable l.session⟩
      have hne : origin ≠ l := fun heq => ho ⟨heq, hanswers⟩
      unfold State.answers
      rcases hcases with ⟨-, houtput⟩ | ⟨-, houtput, -⟩
      · rw [houtput, List.filter_append]
        simp [hne]
      · rw [houtput]
  · have hkeeps := exec_keepsAnswers hanswers h
    refine ⟨hkeeps.answers l, ?_, hkeeps.writable l.session⟩
    by_cases hmoves : (∃ l', o = .enqueue l') ∨ ∃ l', o = .dequeue l'
    · rcases hmoves with ⟨l', rfl⟩ | ⟨l', rfl⟩
      · have hne : l' ≠ l := ho
        simp only [exec] at h
        split at h <;> cases h
        · simp [hne]
        · rfl
      · have hne : l ≠ l' := Ne.symm ho
        simp only [exec] at h
        split at h <;> cases h
        exact List.count_erase_of_ne hne
    · rw [not_or, not_exists, not_exists] at hmoves
      rw [exec_queued hmoves.1 hmoves.2 h]

end Calls

/-! ## Who owes an answer -/

/-- A connection owes the answer to line `l`. -/
def Phase.OwesAt (φ : Phase) (l : LineId) : Prop := φ.At l ∧ φ.duty = .owed

/-- A worker owes the answer to its line. -/
def Phase.OwesHeld (φ : Phase) : Prop := φ.stage = .held ∧ φ.duty = .owed

/-- A connection has lost the request of line `l` on its way to a lane. -/
def Phase.Lost (φ : Phase) (l : LineId) : Prop :=
  φ.read = l.line + 1 ∧ (φ.duty = .dropped ∨ φ.duty = .unclassified)

instance (φ : Phase) (l : LineId) : Decidable (φ.OwesAt l) := inferInstanceAs (Decidable (_ ∧ _))

instance (φ : Phase) (l : LineId) : Decidable (φ.Lost l) := inferInstanceAs (Decidable (_ ∧ _))

instance (φ : Phase) : Decidable φ.OwesHeld := inferInstanceAs (Decidable (_ ∧ _))

/-- How many answers to line `l` are owed, by its lane, its worker and its connection. -/
def owed (st : State) (phase : Party → Phase) (l : LineId) : Nat :=
  st.queued.count l + (if (phase (.worker l)).OwesHeld then 1 else 0) +
    if (phase (.connection l.session)).OwesAt l then 1 else 0

/-- How many answers to line `l` are written or owed. -/
def replies (st : State) (phase : Party → Phase) (l : LineId) : Nat :=
  (st.answers l).length + owed st phase l

/-- In how many places the request of line `l` has still to be: before its connection, in its lane,
or with its worker. -/
def places (st : State) (phase : Party → Phase) (l : LineId) : Nat :=
  (if (phase (.connection l.session)).read ≤ l.line ∨ (phase (.connection l.session)).OwesAt l
    then 1 else 0) + st.queued.count l + if (phase (.worker l)).stage = .fresh then 0 else 1

/-- The account of line `l`: one answer is written or owed, unless the session cannot be written any
more or the request is lost. -/
structure Accounted (inputs : Inputs) (st : State) (phase : Party → Phase) (l : LineId) : Prop where
  unread : (phase (.connection l.session)).read ≤ l.line → replies st phase l = 0
  once : replies st phase l ≤ 1
  settled : l.line < (phase (.connection l.session)).read → (inputs.request l).isSome = true →
    (st.session l.session).Writable → ¬ (phase (.connection l.session)).Lost l →
    replies st phase l = 1
  lost : (phase (.connection l.session)).Lost l → replies st phase l = 0
  place : places st phase l ≤ 1
  lane : l ∈ st.queued → (inputs.laneRequest l).isSome = true

/-- What `φ` says of line `l`, `φ'` says too. -/
structure Phase.SameFor (l : LineId) (φ φ' : Phase) : Prop where
  unread : φ'.read ≤ l.line ↔ φ.read ≤ l.line
  owes : φ'.OwesAt l ↔ φ.OwesAt l
  lost : φ'.Lost l ↔ φ.Lost l

theorem Phase.SameFor.refl (l : LineId) (φ : Phase) : φ.SameFor l φ := ⟨Iff.rfl, Iff.rfl, Iff.rfl⟩

section Steps

variable {inputs : Inputs} {st st' : State} {phase phase' : Party → Phase} {p : Party} {o : Op}
  {choice : Choice} {b : Bool} {φ φ' : Phase} {l : LineId}

/-- A step that does not concern line `l`. -/
theorem Accounted.keep (h : Accounted inputs st phase l)
    (hsame : (phase (.connection l.session)).SameFor l (phase' (.connection l.session)))
    (hheld : (phase' (.worker l)).OwesHeld ↔ (phase (.worker l)).OwesHeld)
    (hfresh : (phase' (.worker l)).stage = .fresh ↔ (phase (.worker l)).stage = .fresh)
    (hqueued : st'.queued.count l = st.queued.count l) (hanswers : st'.answers l = st.answers l)
    (hwritable : (st'.session l.session).Writable → (st.session l.session).Writable) :
    Accounted inputs st' phase' l := by
  have hreplies : replies st' phase' l = replies st phase l := by
    simp only [replies, owed, hsame.owes, hheld, hqueued, hanswers]
  have hplaces : places st' phase' l = places st phase l := by
    simp only [places, hsame.unread, hsame.owes, hfresh, hqueued]
  refine ⟨fun hread => ?_, ?_, fun hread hrequest hw hlost => ?_, fun hlost => ?_, ?_, fun hmem => ?_⟩
  · rw [hreplies, h.unread (hsame.unread.mp hread)]
  · rw [hreplies]
    exact h.once
  · rw [hreplies]
    exact h.settled (not_le.mp fun hle => not_le.mpr hread (hsame.unread.mpr hle)) hrequest
      (hwritable hw) fun h => hlost (hsame.lost.mpr h)
  · rw [hreplies, h.lost (hsame.lost.mp hlost)]
  · rw [hplaces]
    exact h.place
  · rw [← List.count_pos_iff, hqueued, List.count_pos_iff] at hmem
    exact h.lane hmem

/-- An answer that is owed is written, or left out on a session that cannot be written any more. -/
theorem Accounted.pays (h : Accounted inputs st phase l)
    (hread : (phase' (.connection l.session)).read = (phase (.connection l.session)).read)
    (hlost : ¬ (phase' (.connection l.session)).Lost l)
    (howed : owed st' phase' l + 1 = owed st phase l)
    (hplaces : places st' phase' l ≤ places st phase l) (hqueued : st'.queued.count l = st.queued.count l)
    (hpaid : (st'.answers l).length = (st.answers l).length + 1 ∧
        ((st'.session l.session).Writable → (st.session l.session).Writable) ∨
      st'.answers l = st.answers l ∧ ¬ (st'.session l.session).Writable) :
    Accounted inputs st' phase' l := by
  have hbefore : replies st phase l = (st.answers l).length + owed st phase l := rfl
  have hafter : replies st' phase' l = (st'.answers l).length + owed st' phase' l := rfl
  have hkept : ¬ (phase (.connection l.session)).Lost l := by
    intro hlost
    have hzero := h.lost hlost
    omega
  refine ⟨fun hle => ?_, ?_, fun hlt hrequest hw _ => ?_, fun h => absurd h hlost,
    hplaces.trans h.place, fun hmem => ?_⟩
  · have hzero := h.unread (hread ▸ hle)
    omega
  · have honce := h.once
    rcases hpaid with ⟨hpaid, -⟩ | ⟨hsame, -⟩
    · omega
    · rw [hsame] at hafter
      omega
  · rcases hpaid with ⟨hpaid, hwritable⟩ | ⟨-, hnone⟩
    · have hone := h.settled (hread ▸ hlt) hrequest (hwritable hw) hkept
      omega
    · exact absurd hw hnone
  · rw [← List.count_pos_iff, hqueued, List.count_pos_iff] at hmem
    exact h.lane hmem

/-- What a write of an answer does to the account of its line. -/
theorem exec_paid {role : Role} {frame : Frame} (hrole : role.IsAnswer)
    (h : exec choice st (.writeFrame l role frame) = some (b, st')) :
    st'.queued = st.queued ∧
    ((st'.answers l).length = (st.answers l).length + 1 ∧
        ((st'.session l.session).Writable → (st.session l.session).Writable) ∨
      st'.answers l = st.answers l ∧ ¬ (st'.session l.session).Writable) := by
  obtain ⟨rfl, rfl⟩ := Prod.ext_iff.mp (Option.some.inj h)
  obtain ⟨hwritable, hcases⟩ := writeFrame_cases st l role frame choice.succeeds
  refine ⟨writeFrame_queued .., ?_⟩
  unfold State.answers
  rcases hcases with ⟨-, houtput⟩ | ⟨-, houtput, hnone⟩
  · refine .inl ⟨?_, hwritable l.session⟩
    rw [houtput, List.filter_append, List.length_append]
    simp [hrole]
  · exact .inr ⟨by rw [houtput], hnone⟩

/-- A call of a connection for the line at hand says nothing of another line. -/
theorem sameFor_of_ne {l₀ : LineId} (hs : l.session = l₀.session) (hread : φ.read = l₀.line + 1)
    (hread' : φ'.read = φ.read) (hne : l₀ ≠ l) : φ.SameFor l φ' := by
  have hother : l₀.line + 1 ≠ l.line + 1 := by
    intro heq
    rcases l with ⟨t, i⟩
    rcases l₀ with ⟨u, j⟩
    obtain rfl : t = u := hs
    obtain rfl : j = i := Nat.succ_inj.mp heq
    exact hne rfl
  have hnone {ψ : Phase} (hψ : ψ.read = φ.read) : ψ.read ≠ l.line + 1 := by
    rw [hψ, hread]
    exact hother
  exact ⟨by rw [hread'], iff_of_false (fun h => hnone hread' h.1.2) fun h => hnone rfl h.1.2,
    iff_of_false (fun h => hnone hread' h.1) fun h => hnone rfl h.1⟩

theorem Party.worker_ne_connection (l : LineId) (s : Nat) : Party.worker l ≠ .connection s := by
  intro h
  cases h

/-- A call that moves what its connection owes: a line comes, an answer goes out, and a request goes to
its lane or is lost on the way. -/
def Op.Spends (b : Bool) : Op → Prop
  | .writeFrame _ role _ => role.IsAnswer
  | .readMessageLine _ => True
  | .enqueue _ => True
  | .consult .classifyExecutionLane => b = false
  | _ => False

/-- A call that moves what its worker owes. -/
def Op.Serves (b : Bool) : Op → Prop
  | .writeFrame _ role _ => role.IsAnswer
  | .dequeue _ => True
  | .isClosed _ => b = true
  | _ => False

/-- Another call of a connection leaves the line at hand, and what is owed to it. -/
theorem connection_keeps {s : Nat} (hφ : φ.stage = .fresh → φ.read = 0)
    (hafter : connectionAfter inputs s φ o b = some φ') (ho : ¬ o.Spends b) :
    ∀ l, φ.SameFor l φ' := by
  suffices hsame : φ'.read = φ.read ∧ φ'.duty = φ.duty ∧ ∀ l, φ'.OwesAt l ↔ φ.OwesAt l by
    obtain ⟨hread, hduty, howes⟩ := hsame
    exact fun l => ⟨by rw [hread], howes l, by simp only [Phase.Lost, hread, hduty]⟩
  cases o <;> simp only [connectionAfter, permit_eq_some, reduceCtorEq] at hafter
  case readMessageLine t => exact absurd trivial ho
  case enqueue l => exact absurd trivial ho
  case init t =>
    obtain ⟨hpermit, rfl⟩ := hafter
    have hzero := hφ hpermit.2
    simp [Phase.OwesAt, Phase.At, hpermit.2, hzero]
  case writeFrame l role frame =>
    split at hafter
    · cases role with
      | answer => exact absurd (.inl rfl) ho
      | projectionAck => exact absurd (.inr rfl) ho
      | _ =>
          obtain ⟨-, rfl⟩ := permit_eq_some.mp hafter
          exact ⟨rfl, rfl, fun _ => Iff.rfl⟩
    · cases hafter
  case consult what =>
    obtain ⟨-, rfl⟩ := hafter
    have hclassifies : (Op.consult what).isClassification = true → b = true := by
      intro hwhat
      cases what with
      | classifyExecutionLane => exact Bool.not_eq_false b ▸ ho
      | _ => cases hwhat
    rw [Phase.consulted_of_classifies hclassifies]
    exact ⟨rfl, rfl, fun _ => Iff.rfl⟩
  case release t =>
    split at hafter <;> obtain ⟨hpermit, rfl⟩ := permit_eq_some.mp hafter
    · exact ⟨rfl, rfl, fun _ => Iff.rfl⟩
    · simp [Phase.OwesAt, Phase.At, hpermit.2]
  case closeSession t =>
    obtain ⟨⟨-, hspent⟩, rfl⟩ := hafter
    simp [Phase.OwesAt, Phase.At, hspent.duty]
  all_goals
    obtain ⟨hpermit, rfl⟩ := hafter
    exact ⟨rfl, rfl, fun _ => Iff.rfl⟩

/-- Another call of a worker leaves what it owes. -/
theorem worker_keeps {l₀ : LineId} (hafter : workerAfter inputs l₀ φ o b = some φ')
    (ho : ¬ o.Serves b) :
    (φ'.OwesHeld ↔ φ.OwesHeld) ∧ (φ'.stage = .fresh ↔ φ.stage = .fresh) := by
  cases o <;> simp only [workerAfter, permit_eq_some, reduceCtorEq] at hafter
  case dequeue l => exact absurd trivial ho
  case writeFrame l role frame =>
    obtain ⟨⟨-, rfl, -⟩, -⟩ := hafter
    exact absurd (.inl rfl) ho
  case isClosed s =>
    obtain ⟨⟨rfl, -⟩, rfl⟩ := hafter
    rw [if_neg (show ¬ b = true from ho)]
    exact ⟨Iff.rfl, Iff.rfl⟩
  all_goals
    obtain ⟨hpermit, rfl⟩ := hafter
    simp_all [Phase.OwesHeld]

/-! ### Connections -/

section Connection

variable {s : Nat}

/-- A connection that moves is at another session, or leaves what is owed to line `l`. -/
theorem Accounted.connection_apart (h : Accounted inputs st phase l) (ho : ¬ o.Concerns l)
    (hexec : exec choice st o = some (b, st'))
    (hphase : l.session = s → (phase (.connection s)).SameFor l φ') :
    Accounted inputs st' (Function.update phase (.connection s) φ') l := by
  obtain ⟨hanswers, hqueued, hwritable⟩ := exec_apart ho hexec
  have hsame : (phase (.connection l.session)).SameFor l
      (Function.update phase (.connection s) φ' (.connection l.session)) := by
    rw [update_connection]
    split
    · rename_i hs
      rw [hs]
      exact hphase hs
    · exact .refl l _
  exact h.keep hsame (by simp) (by simp) hqueued hanswers hwritable

/-- A connection comes to line `l`: from now on it owes the answer, if the line is dispatched. -/
theorem Accounted.begins (h : Accounted inputs st phase l)
    (hunread : (phase (.connection l.session)).read ≤ l.line) (hread : l.line < φ'.read)
    (howes : φ'.OwesAt l ↔ (inputs.request l).isSome = true) (hkept : ¬ φ'.Lost l)
    (hanswers : st'.answers l = st.answers l)
    (hqueued : st'.queued.count l = st.queued.count l) :
    Accounted inputs st' (Function.update phase (.connection l.session) φ') l := by
  have hzero := h.unread hunread
  have hplace := h.place
  have hlane := h.lane
  simp only [replies, owed] at hzero
  simp only [places, hunread, true_or, if_true] at hplace
  have hreplies : replies st' (Function.update phase (.connection l.session) φ') l =
      if (inputs.request l).isSome = true then 1 else 0 := by
    simp only [replies, owed, hanswers, hqueued, Function.update_self, howes,
      Function.update_of_ne (Party.worker_ne_connection l l.session)]
    omega
  refine ⟨fun hle => ?_, ?_, fun _ hrequest _ _ => ?_, fun hlost => ?_, ?_, fun hmem => ?_⟩
  · rw [Function.update_self] at hle
    omega
  · rw [hreplies]
    split <;> omega
  · rw [hreplies, if_pos hrequest]
  · rw [Function.update_self] at hlost
    exact absurd hlost hkept
  · simp only [places, hqueued, Function.update_self,
      Function.update_of_ne (Party.worker_ne_connection l l.session)]
    have hle : (if φ'.read ≤ l.line ∨ φ'.OwesAt l then 1 else 0) ≤ 1 := by split <;> omega
    omega
  · rw [← List.count_pos_iff, hqueued, List.count_pos_iff] at hmem
    exact hlane hmem

/-- A connection reads line `l`, or another one. -/
theorem Accounted.readMessageLine (h : Accounted inputs st phase l)
    (hexec : exec choice st (.readMessageLine s) = some (b, st'))
    (hafter : connectionAfter inputs s (phase (.connection s)) (.readMessageLine s) b = some φ') :
    Accounted inputs st' (Function.update phase (.connection s) φ') l := by
  obtain ⟨⟨-, hidle⟩, rfl⟩ := permit_eq_some.mp hafter
  have hnone : ¬ (phase (.connection s)).OwesAt l := fun howes => hidle.duty howes.2
  cases b with
  | false => exact h.connection_apart id hexec fun _ => .refl l _
  | true =>
      by_cases hline : l.session = s ∧ l.line = (phase (.connection s)).read
      · obtain ⟨hanswers, hqueued, -⟩ := exec_apart (l := l) id hexec
        obtain ⟨rfl, hline⟩ := hline
        have hl : (⟨l.session, (phase (.connection l.session)).read⟩ : LineId) = l := by
          rw [← hline]
        refine h.begins hline.ge ?_ ?_ ?_ hanswers hqueued
        · simp [hline]
        · have hheld := hidle.held
          simp only [if_true, hl, Phase.OwesAt, Phase.At, Inputs.duty]
          simp [hheld, hline, Option.isSome_iff_ne_none]
        · simp only [if_true, hl, Phase.Lost, Inputs.duty]
          split <;> simp
      · refine h.connection_apart id hexec fun hs => ?_
        have hne : l.line ≠ (phase (.connection s)).read := fun heq => hline ⟨hs, heq⟩
        have hkept : ¬ (phase (.connection s)).Lost l := fun hlost =>
          hlost.2.elim hidle.dropped hidle.classified
        simp only [if_true]
        refine ⟨?_, iff_of_false (fun howes => ?_) hnone, iff_of_false (fun hlost => ?_) hkept⟩
        · show (phase (.connection s)).read + 1 ≤ l.line ↔ _
          omega
        · have hread : (phase (.connection s)).read + 1 = l.line + 1 := howes.1.2
          omega
        · have hread : (phase (.connection s)).read + 1 = l.line + 1 := hlost.1
          omega

/-- A request goes over to its lane. -/
theorem Accounted.enqueue (h : Accounted inputs st phase l) {l₀ : LineId}
    (hexec : exec choice st (.enqueue l₀) = some (true, st'))
    (hafter : connectionAfter inputs s (phase (.connection s)) (.enqueue l₀) true = some φ') :
    Accounted inputs st' (Function.update phase (.connection s) φ') l := by
  obtain ⟨⟨rfl, hat, howed, -, -, hlane⟩, rfl⟩ := permit_eq_some.mp hafter
  have hread : (phase (.connection l₀.session)).read = l₀.line + 1 := hat.2
  by_cases hl : l₀ = l
  · subst hl
    simp only [exec] at hexec
    split at hexec <;> cases hexec
    have hbefore : (phase (.connection l₀.session)).OwesAt l₀ := ⟨hat, howed⟩
    have honce := h.once
    have hsettled := h.settled (by omega)
    have hplace := h.place
    simp only [replies, owed, if_pos hbefore] at honce hsettled
    simp only [places, hbefore, or_true, if_true] at hplace
    have hunread : ¬ (phase (.connection l₀.session)).read ≤ l₀.line := by omega
    have hkept : ¬ (phase (.connection l₀.session)).Lost l₀ := by
      rintro ⟨-, hduty | hduty⟩ <;> cases howed.symm.trans hduty
    refine ⟨fun hle => absurd hle (by simpa using hunread), ?_, fun _ hrequest hw _ => ?_,
      fun hlost => ?_, ?_, fun _ => hlane⟩
    · simp [replies, owed, State.answers, Phase.OwesAt] at honce ⊢
      omega
    · have hone := hsettled hrequest hw hkept
      simp [replies, owed, State.answers, Phase.OwesAt] at hone ⊢
      omega
    · simp [Phase.Lost] at hlost
    · simp [places, Phase.OwesAt, hunread]
      omega
  · exact h.connection_apart (o := .enqueue l₀) hl hexec fun hs => sameFor_of_ne hs hread rfl hl

/-- A connection writes an answer. -/
theorem Accounted.connectionWrites (h : Accounted inputs st phase l) {l₀ : LineId} {role : Role}
    {frame : Frame} (hrole : role.IsAnswer)
    (hexec : exec choice st (.writeFrame l₀ role frame) = some (b, st'))
    (hafter : connectionAfter inputs s (phase (.connection s)) (.writeFrame l₀ role frame) b =
      some φ') : Accounted inputs st' (Function.update phase (.connection s) φ') l := by
  have hphase : l₀.session = s ∧ (phase (.connection s)).OwesAt l₀ ∧
      φ'.read = (phase (.connection s)).read ∧ (φ'.duty = .paid ∨ φ'.duty = .unwritten) := by
    simp only [connectionAfter] at hafter
    split at hafter
    · rename_i hs
      rcases hrole with rfl | rfl
      · obtain ⟨⟨hat, howed, -⟩, rfl⟩ := permit_eq_some.mp hafter
        refine ⟨hs, ⟨hat, howed⟩, rfl, ?_⟩
        cases b
        · exact .inr rfl
        · exact .inl rfl
      · obtain ⟨⟨hat, howed, -⟩, rfl⟩ := permit_eq_some.mp hafter
        refine ⟨hs, ⟨hat, howed⟩, rfl, ?_⟩
        cases b
        · exact .inr rfl
        · exact .inl rfl
    · cases hafter
  obtain ⟨rfl, hbefore, hread, hduty⟩ := hphase
  have hline : (phase (.connection l₀.session)).read = l₀.line + 1 := hbefore.1.2
  have hnone (l : LineId) : ¬ φ'.OwesAt l := by
    rintro ⟨-, howed⟩
    rcases hduty with hduty | hduty <;> cases hduty.symm.trans howed
  have hkept : ¬ φ'.Lost l := by
    rintro ⟨-, hlost⟩
    rcases hduty with hduty | hduty <;> simp [hduty] at hlost
  by_cases hl : l₀ = l
  · subst hl
    obtain ⟨hqueued, hpaid⟩ := exec_paid hrole hexec
    refine h.pays (by simpa using hread) (by simpa using hkept) ?_ ?_ (by rw [hqueued]) hpaid
    · simp [owed, hqueued, hnone, hbefore]
    · simp only [places, hqueued, Function.update_self, hnone, hbefore, or_true, if_true, or_false,
        Function.update_of_ne (Party.worker_ne_connection l₀ l₀.session)]
      split <;> omega
  · exact h.connection_apart (o := .writeFrame l₀ role frame) (fun hc => hl hc.1) hexec fun hs =>
      sameFor_of_ne hs hline hread hl

/-- A connection loses the request at hand on its way to a lane. -/
theorem Accounted.loses (h : Accounted inputs st phase l)
    (hheld : (phase (.connection s)).stage = .held) (howed : (phase (.connection s)).duty = .owed)
    (hread : φ'.read = (phase (.connection s)).read)
    (hlost : φ'.duty = .dropped ∨ φ'.duty = .unclassified) :
    Accounted inputs st (Function.update phase (.connection s) φ') l := by
  have hnone : ¬ φ'.OwesAt l := by
    rintro ⟨-, howed⟩
    rcases hlost with hlost | hlost <;> cases hlost.symm.trans howed
  have hkept : ¬ (phase (.connection s)).Lost l := by
    rintro ⟨-, hduty | hduty⟩ <;> cases howed.symm.trans hduty
  by_cases hline : l.session = s ∧ (phase (.connection s)).read = l.line + 1
  · obtain ⟨rfl, hline⟩ := hline
    have hbefore : (phase (.connection l.session)).OwesAt l := ⟨⟨hheld, hline⟩, howed⟩
    have hafter : φ'.Lost l := ⟨hread.trans hline, hlost⟩
    have honce := h.once
    have hplace := h.place
    simp only [replies, owed, hbefore, if_true] at honce
    simp only [places, hbefore, or_true, if_true] at hplace
    have hzero : replies st (Function.update phase (.connection l.session) φ') l = 0 := by
      simp only [replies, owed, Function.update_self, hnone, if_false,
        Function.update_of_ne (Party.worker_ne_connection l l.session)]
      omega
    refine ⟨fun _ => hzero, by omega, fun _ _ _ hkept => absurd ?_ hkept, fun _ => hzero, ?_, h.lane⟩
    · rw [Function.update_self]
      exact hafter
    · simp only [places, Function.update_self, hnone, or_false,
        Function.update_of_ne (Party.worker_ne_connection l l.session)]
      split <;> omega
  · have hsame : (phase (.connection l.session)).SameFor l
        (Function.update phase (.connection s) φ' (.connection l.session)) := by
      rw [update_connection]
      split
      · rename_i hs
        have hother : (phase (.connection s)).read ≠ l.line + 1 := fun heq => hline ⟨hs, heq⟩
        rw [hs]
        exact ⟨by rw [hread], iff_of_false hnone fun howes => hother howes.1.2,
          iff_of_false (fun h => hother (hread.symm.trans h.1)) hkept⟩
      · exact .refl l _
    exact h.keep hsame (by simp) (by simp) rfl rfl id

/-- A step of a connection. -/
theorem Accounted.step_connection (h : Accounted inputs st phase l)
    (hφ : (phase (.connection s)).stage = .fresh → (phase (.connection s)).read = 0)
    (hexec : exec choice st o = some (b, st'))
    (hafter : connectionAfter inputs s (phase (.connection s)) o b = some φ') :
    Accounted inputs st' (Function.update phase (.connection s) φ') l := by
  by_cases hspends : o.Spends b
  · cases o with
    | writeFrame l₀ role frame => exact h.connectionWrites hspends hexec hafter
    | readMessageLine t =>
        obtain ⟨⟨rfl, -⟩, -⟩ := permit_eq_some.mp hafter
        exact h.readMessageLine hexec hafter
    | enqueue l₀ =>
        cases b with
        | true => exact h.enqueue hexec hafter
        | false =>
            obtain ⟨⟨-, ⟨hheld, -⟩, howed, -⟩, rfl⟩ := permit_eq_some.mp hafter
            simp only [exec] at hexec
            split at hexec <;> cases hexec
            exact h.loses hheld howed rfl (.inl rfl)
    | consult what =>
        cases what with
        | classifyExecutionLane =>
            obtain rfl : b = false := hspends
            obtain ⟨⟨hheld, hclassifies⟩, rfl⟩ := permit_eq_some.mp hafter
            obtain ⟨-, rfl⟩ := Prod.ext_iff.mp (Option.some.inj hexec)
            exact h.loses hheld (hclassifies rfl).1 (Phase.consulted_read ..) (.inr rfl)
        | _ => exact hspends.elim
    | _ => exact hspends.elim
  · have hsame := connection_keeps hφ hafter hspends l
    by_cases hinit : o = .init s ∧ l.session = s
    · -- The session of the line is made; no line of it has been read.
      obtain ⟨rfl, rfl⟩ := hinit
      have hzero := hφ (permit_eq_some.mp hafter).1.2
      have hunread : (phase (.connection l.session)).read ≤ l.line := hzero ▸ Nat.zero_le _
      have hreplies : replies st' (Function.update phase (.connection l.session) φ') l =
          replies st phase l := by
        cases hexec
        simp [replies, owed, State.answers, hsame.owes]
      refine ⟨fun _ => ?_, ?_, fun hlt => ?_, fun _ => ?_, ?_, fun hmem => ?_⟩
      · rw [hreplies, h.unread hunread]
      · rw [hreplies]
        exact h.once
      · rw [Function.update_self] at hlt
        exact absurd (hsame.unread.mpr hunread) (not_le.mpr hlt)
      · rw [hreplies, h.unread hunread]
      · have hplace := h.place
        cases hexec
        simpa [places, hsame.owes, hsame.unread] using hplace
      · cases hexec
        exact h.lane hmem
    · refine h.connection_apart (fun hc => ?_) hexec fun _ => hsame
      cases o with
      | writeFrame l₀ role frame => exact hspends hc.2
      | enqueue l₀ => exact hspends trivial
      | dequeue l₀ => cases hafter
      | init t =>
          obtain ⟨⟨rfl, -⟩, -⟩ := permit_eq_some.mp hafter
          exact hinit ⟨rfl, hc⟩
      | _ => exact hc

end Connection

/-! ### Workers -/

section Worker

/-- A worker moves that has another line, or whose debt to line `l` stays. -/
theorem Accounted.worker_apart (h : Accounted inputs st phase l) {l₀ : LineId} (ho : ¬ o.Concerns l)
    (hexec : exec choice st o = some (b, st'))
    (hphase : l₀ = l → (φ'.OwesHeld ↔ (phase (.worker l₀)).OwesHeld) ∧
      (φ'.stage = .fresh ↔ (phase (.worker l₀)).stage = .fresh)) :
    Accounted inputs st' (Function.update phase (.worker l₀) φ') l := by
  obtain ⟨hanswers, hqueued, hwritable⟩ := exec_apart ho hexec
  by_cases hl : l₀ = l
  · obtain ⟨hheld, hfresh⟩ := hphase hl
    subst hl
    exact h.keep (.refl l₀ _) (by simpa using hheld) (by simpa using hfresh) hqueued hanswers
      hwritable
  · have hne : Party.worker l ≠ .worker l₀ := fun heq => hl (Party.worker.inj heq).symm
    exact h.keep (.refl l _) (by simp [hne]) (by simp [hne]) hqueued hanswers hwritable

/-- The worker of line `l` writes its answer, or finds the session closed. -/
theorem Accounted.workerPays (h : Accounted inputs st phase l)
    (hbefore : (phase (.worker l)).OwesHeld) (hheld : φ'.stage = .held) (hduty : φ'.duty ≠ .owed)
    (hqueued : st'.queued = st.queued)
    (hpaid : (st'.answers l).length = (st.answers l).length + 1 ∧
        ((st'.session l.session).Writable → (st.session l.session).Writable) ∨
      st'.answers l = st.answers l ∧ ¬ (st'.session l.session).Writable) :
    Accounted inputs st' (Function.update phase (.worker l) φ') l := by
  have hnone : ¬ φ'.OwesHeld := fun howes => hduty howes.2
  have hfresh : (phase (.worker l)).stage ≠ .fresh := by simp [hbefore.1]
  have hkept : ¬ (phase (.connection l.session)).Lost l := by
    intro hlost
    have hzero := h.lost hlost
    simp only [replies, owed, hbefore, if_true] at hzero
    omega
  refine h.pays rfl hkept ?_ ?_ (by rw [hqueued]) hpaid
  · simp only [owed, hqueued, Function.update_self, hnone, hbefore, if_true, if_false,
      Function.update_of_ne (Party.worker_ne_connection l l.session).symm]
    omega
  · simp [places, hqueued, hheld, hfresh]

/-- Nobody owes what has been written, or could not be. -/
theorem wrote_duty (φ : Phase) (b : Bool) : (φ.wrote b).duty ≠ .owed := by
  cases b <;> simp [Phase.wrote]

/-- A worker takes its request up. -/
theorem Accounted.dequeue (h : Accounted inputs st phase l)
    (hexec : exec choice st (.dequeue l) = some (b, st'))
    (hfresh : (phase (.worker l)).stage = .fresh) (hafter : φ'.OwesHeld) :
    Accounted inputs st' (Function.update phase (.worker l) φ') l := by
  simp only [exec] at hexec
  split at hexec
  · rename_i hmem
    cases hexec
    have hpos : 0 < st.queued.count l := List.count_pos_iff.mpr hmem
    have hcount : (st.queued.erase l).count l = st.queued.count l - 1 := List.count_erase_self
    have hbefore : ¬ (phase (.worker l)).OwesHeld := by simp [Phase.OwesHeld, hfresh]
    have hstarted : φ'.stage ≠ .fresh := by simp [hafter.1]
    have hreplies : replies { st with queued := st.queued.erase l }
        (Function.update phase (.worker l) φ') l = replies st phase l := by
      simp only [replies, owed, State.answers, hcount, Function.update_self, hafter, hbefore, if_true,
        if_false, Function.update_of_ne (Party.worker_ne_connection l l.session).symm]
      omega
    have hplaces : places { st with queued := st.queued.erase l }
        (Function.update phase (.worker l) φ') l = places st phase l := by
      simp only [places, hcount, Function.update_self, hstarted, hfresh, if_true, if_false,
        Function.update_of_ne (Party.worker_ne_connection l l.session).symm]
      omega
    refine ⟨fun hle => ?_, ?_, fun hlt hrequest hw hkept => ?_, fun hlost => ?_, ?_,
      fun hmem' => h.lane hmem⟩
    · rw [hreplies]
      exact h.unread (by simpa using hle)
    · rw [hreplies]
      exact h.once
    · rw [hreplies]
      exact h.settled hlt hrequest hw hkept
    · rw [hreplies]
      exact h.lost hlost
    · rw [hplaces]
      exact h.place
  · cases hexec

/-- A step of a worker. -/
theorem Accounted.step_worker (h : Accounted inputs st phase l) {l₀ : LineId}
    (hexec : exec choice st o = some (b, st'))
    (hafter : workerAfter inputs l₀ (phase (.worker l₀)) o b = some φ') :
    Accounted inputs st' (Function.update phase (.worker l₀) φ') l := by
  by_cases hserves : o.Serves b
  · cases o with
    | dequeue l' =>
        obtain ⟨⟨rfl, hfresh⟩, rfl⟩ := permit_eq_some.mp hafter
        by_cases hl : l' = l
        · subst hl
          exact h.dequeue hexec hfresh ⟨rfl, rfl⟩
        · exact h.worker_apart (o := .dequeue l') hl hexec fun heq => absurd heq hl
    | isClosed s =>
        obtain ⟨⟨rfl, hheld, howed⟩, rfl⟩ := permit_eq_some.mp hafter
        obtain rfl : b = true := hserves
        by_cases hl : l₀ = l
        · subst hl
          simp only [exec, Option.some.injEq, Prod.mk.injEq] at hexec
          obtain ⟨hclosed, rfl⟩ := hexec
          refine h.workerPays ⟨hheld, howed⟩ hheld (wrote_duty _ false) rfl (.inr ⟨rfl, fun hw => ?_⟩)
          rw [State.onSession_session, if_pos rfl] at hw
          exact Bool.false_ne_true (hw.1.symm.trans hclosed)
        · exact h.worker_apart (o := .isClosed l₀.session) id hexec fun heq => absurd heq hl
    | writeFrame l' role frame =>
        obtain ⟨⟨rfl, rfl, hheld, howed, -⟩, rfl⟩ := permit_eq_some.mp hafter
        by_cases hl : l' = l
        · subst hl
          obtain ⟨hqueued, hpaid⟩ := exec_paid (.inl rfl) hexec
          exact h.workerPays ⟨hheld, howed⟩ hheld (wrote_duty _ b) hqueued hpaid
        · exact h.worker_apart (o := .writeFrame l' .answer frame) (fun hc => hl hc.1) hexec
            fun heq => absurd heq hl
    | _ => exact hserves.elim
  · refine h.worker_apart (fun hc => ?_) hexec fun _ => worker_keeps hafter hserves
    cases o with
    | writeFrame l' role frame => exact hserves hc.2
    | dequeue l' => exact hserves trivial
    | enqueue l' => cases hafter
    | init s => cases hafter
    | _ => exact hc

end Worker

end Steps

end Muxly.Server
