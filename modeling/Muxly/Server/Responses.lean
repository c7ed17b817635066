/-
# Muxly.Server.Responses -- every dispatched request is answered once

The accounts of the lines hold in every state of every run. What they owe is owed by a thread that
can go on, so a request is answered once, unless its connection has lost it on the way to a lane. A
response says whose it is, but for two kinds of requests: a stream close in compatibility mode, which
is answered by no response object, and a text with an id that does not parse as a request.
-/
import Muxly.Server.Answers

namespace Muxly.Server

open Muxly.Core Muxly.Daemon Muxly.Sync

/-! ## The accounts of a run -/

section Steps

variable {inputs : Inputs} {st st' : State} {phase : Party → Phase} {p : Party} {o : Op}
  {choice : Choice} {b : Bool} {φ φ' : Phase} {l : LineId}

/-- What holds in every state. -/
structure Replies (inputs : Inputs) (st : State) (phase : Party → Phase) : Prop where
  read : ∀ s, st.read s = (phase (.connection s)).read
  fresh : ∀ s, (phase (.connection s)).stage = .fresh → (phase (.connection s)).read = 0
  accounted : ∀ l, Accounted inputs st phase l
  answers : ∀ out ∈ st.output, out.role.IsAnswer → inputs.Answers out.origin out.frame

/-- Whoever is no connection and no worker leaves the accounts. -/
theorem Accounted.step_other (h : Accounted inputs st phase l)
    (hexec : exec choice st o = some (b, st')) (hafter : after inputs p (phase p) o b = some φ')
    (hconnection : ∀ s, p ≠ .connection s) (hworker : ∀ l₀, p ≠ .worker l₀) :
    Accounted inputs st' (Function.update phase p φ') l := by
  have ho : ¬ o.Concerns l := by
    cases p with
    | connection s => exact absurd rfl (hconnection s)
    | worker l₀ => exact absurd rfl (hworker l₀)
    | _ => cases o <;> first | exact id | cases hafter
  obtain ⟨hanswers, hqueued, hwritable⟩ := exec_apart ho hexec
  have hc : Function.update phase p φ' (.connection l.session) = phase (.connection l.session) :=
    Function.update_of_ne (Ne.symm (hconnection _)) ..
  have hw : Function.update phase p φ' (.worker l) = phase (.worker l) :=
    Function.update_of_ne (Ne.symm (hworker _)) ..
  exact h.keep (hc ▸ .refl l _) (by rw [hw]) (by rw [hw]) hqueued hanswers hwritable

/-- An answer is one to the request of its line. -/
theorem answers_of_after {l₀ : LineId} {role : Role} {frame : Frame} (hrole : role.IsAnswer)
    (hafter : after inputs p φ (.writeFrame l₀ role frame) b = some φ') : inputs.Answers l₀ frame := by
  cases p with
  | connection s =>
      simp only [after, connectionAfter] at hafter
      split at hafter
      · rcases hrole with rfl | rfl
        · exact (permit_eq_some.mp hafter).1.2.2
        · exact (permit_eq_some.mp hafter).1.2.2.1
      · cases hafter
  | worker l =>
      obtain ⟨⟨rfl, -, -, -, hanswers⟩, -⟩ := permit_eq_some.mp hafter
      exact hanswers
  | _ => cases hafter

/-- A connection that has made a call has started, and stays at its line unless it reads. -/
theorem connectionAfter_read {s : Nat} (hafter : connectionAfter inputs s φ o b = some φ') :
    φ'.stage ≠ .fresh ∧ ((∀ t, o ≠ .readMessageLine t) → φ'.read = φ.read) := by
  cases o <;> simp only [connectionAfter, permit_eq_some, reduceCtorEq] at hafter
  case writeFrame l role frame =>
    split at hafter
    · cases role <;> obtain ⟨⟨⟨hheld, -⟩, -⟩, rfl⟩ := permit_eq_some.mp hafter <;>
        exact ⟨by simp [Phase.wrote, hheld], fun _ => rfl⟩
    · cases hafter
  case release t =>
    split at hafter <;> obtain ⟨hpermit, rfl⟩ := permit_eq_some.mp hafter
    · exact ⟨by simp [hpermit.2.1], fun _ => rfl⟩
    · exact ⟨by simp, fun _ => rfl⟩
  case readMessageLine t =>
    obtain ⟨⟨-, hidle⟩, rfl⟩ := hafter
    refine ⟨?_, fun hread => absurd rfl (hread t)⟩
    cases b <;> simp [hidle.held]
  case endOfStream t =>
    obtain ⟨⟨-, hidle⟩, rfl⟩ := hafter
    exact ⟨by simp [hidle.held], fun _ => rfl⟩
  case closeSession t =>
    obtain ⟨-, rfl⟩ := hafter
    exact ⟨by simp, fun _ => rfl⟩
  case enqueue l =>
    obtain ⟨⟨-, ⟨hheld, -⟩, -⟩, rfl⟩ := hafter
    cases b <;> exact ⟨by simp [hheld], fun _ => rfl⟩
  all_goals
    obtain ⟨hpermit, rfl⟩ := hafter
    simp_all [Phase.At]

/-- The connections and the shared state agree on the lines that have been read. -/
theorem Replies.step_read (h : Replies inputs st phase) (hexec : exec choice st o = some (b, st'))
    (hafter : after inputs p (phase p) o b = some φ') (s : Nat) :
    st'.read s = (Function.update phase p φ' (.connection s)).read := by
  have hread := h.read s
  by_cases ho : ∃ t, o = .readMessageLine t
  · obtain ⟨t, rfl⟩ := ho
    obtain rfl : p = .connection t := by
      cases p with
      | connection u => rw [(permit_eq_some.mp hafter).1.1]
      | _ => cases hafter
    obtain ⟨-, rfl⟩ := permit_eq_some.mp hafter
    rw [update_connection]
    simp only [exec] at hexec
    by_cases hs : s = t
    · subst hs
      split at hexec
      · split at hexec <;> cases hexec
        simp [hread]
      · cases hexec
        simpa using hread
    · split at hexec
      · split at hexec <;> cases hexec
        simp [hs, hread]
      · cases hexec
        simp [hs, hread]
  · rw [not_exists] at ho
    rw [exec_read ho hexec, hread]
    by_cases hp : p = .connection s
    · subst hp
      rw [Function.update_self, (connectionAfter_read hafter).2 ho]
    · rw [Function.update_of_ne (Ne.symm hp)]

theorem Replies.step (h : Replies inputs st phase) (hexec : exec choice st o = some (b, st'))
    (hafter : after inputs p (phase p) o b = some φ') :
    Replies inputs st' (Function.update phase p φ') := by
  refine ⟨h.step_read hexec hafter, fun s => ?_, fun l => ?_, fun out hout hrole => ?_⟩
  · by_cases hp : p = .connection s
    · subst hp
      rw [Function.update_self]
      exact fun hfresh => absurd hfresh (connectionAfter_read hafter).1
    · rw [Function.update_of_ne (Ne.symm hp)]
      exact h.fresh s
  · cases p with
    | connection s => exact (h.accounted l).step_connection (h.fresh s) hexec hafter
    | worker l₀ => exact (h.accounted l).step_worker hexec hafter
    | _ => exact (h.accounted l).step_other hexec hafter (by simp) (by simp)
  · have hmem : out ∈ st'.answers out.origin := List.mem_filter.mpr ⟨hout, by simpa using hrole⟩
    by_cases ho : o.Concerns out.origin ∧ o.Answers
    · cases o with
      | writeFrame l₀ role frame =>
          obtain ⟨rfl, rfl⟩ := Prod.ext_iff.mp (Option.some.inj hexec)
          rcases (writeFrame_cases st l₀ role frame choice.succeeds).2 with ⟨-, houtput⟩ |
            ⟨-, houtput, -⟩
          · rw [houtput, List.mem_append, List.mem_singleton] at hout
            rcases hout with hout | rfl
            · exact h.answers out hout hrole
            · exact answers_of_after hrole hafter
          · rw [houtput] at hout
            exact h.answers out hout hrole
      | init s =>
          cases hexec
          exact h.answers out hout hrole
      | _ => exact ho.2.elim
    · have hsame : st'.answers out.origin = st.answers out.origin := by
        by_cases hanswers : o.Answers
        · exact (exec_apart (fun hc => ho ⟨hc, hanswers⟩) hexec).1
        · exact (exec_keepsAnswers hanswers hexec).answers _
      rw [hsame] at hmem
      exact h.answers out (List.mem_filter.mp hmem).1 hrole

end Steps

theorem replies_start (inputs : Inputs) : Replies inputs .start fun _ => .start := by
  have hzero (l : LineId) : replies .start (fun _ => .start) l = 0 := by
    simp [replies, owed, State.answers, State.start, Phase.OwesHeld, Phase.OwesAt, Phase.At, Phase.start]
  refine ⟨fun _ => rfl, fun _ _ => rfl, fun l => ⟨fun _ => hzero l, (hzero l).le.trans (Nat.zero_le 1),
    fun hlt => ?_, fun _ => hzero l, ?_, fun hmem => ?_⟩, ?_⟩
  · cases hlt
  · simp [places, State.start, Phase.start]
  · cases hmem
  · intro out hout
    cases hout

theorem reaches_replies {inputs : Inputs} {cond : Party → Op → Bool → State → Prop}
    {c : Machine.Config Party Op State Phase} (h : (machine inputs).Reaches cond inputs.start c) :
    Replies inputs c.state c.phase :=
  h.invariant (scripts_follow inputs) (replies_start inputs)
    fun _ _ _ _ _ _ _ _ hi hexec hafter _ => hi.step hexec hafter

/-! ## Who goes on -/

/-- Party `p` still has to answer line `l`. -/
def Owes (c : Machine.Config Party Op State Phase) (l : LineId) : Party → Prop
  | .connection s => l.session = s ∧ (c.phase (.connection s)).OwesAt l
  | .worker l₀ => l₀ = l ∧ (l ∈ c.state.queued ∨ (c.phase (.worker l)).OwesHeld)
  | _ => False

/-- The next call of a party can be carried out, whatever the outside decides, unless the party has
panicked. -/
def GoesOn (c : Machine.Config Party Op State Phase) (p : Party) : Prop :=
  ∃ o, c.next p = some o ∧ (o = .halt ∨ ∀ choice, (exec choice c.state o).isSome = true)

/-- A call that may have to wait. -/
def Op.Waits : Op → Prop
  | .readMessageLine _ | .dequeue _ | .halt | .waitNextChunk _ | .joinReader _ | .readerStart _
  | .sendLine _ | .awaitAnswer _ => True
  | _ => False

theorem exec_isSome {o : Op} (ho : ¬ o.Waits) (choice : Choice) (st : State) :
    (exec choice st o).isSome = true := by
  cases o <;> simp only [Op.Waits, not_true_eq_false] at ho <;> simp only [exec]
  all_goals
    repeat' split
    all_goals rfl

section Progress

variable {inputs : Inputs} {c : Machine.Config Party Op State Phase} {l : LineId} {p : Party}

/-- A party whose script is not at its end is about to make a call that its protocol permits. -/
theorem next_permitted (hconforms : (machine inputs).Conforms (Ends inputs) c)
    (hend : ∀ r, ¬ Ends inputs p r (c.phase p)) :
    ∃ o, c.next p = some o ∧ ∀ b, ∃ φ', after inputs p (c.phase p) o b = some φ' := by
  have hp := hconforms p
  unfold Machine.Config.next
  cases hscript : c.script p with
  | done r =>
      rw [hscript] at hp
      exact absurd hp (hend r)
  | op o rest =>
      rw [hscript] at hp
      refine ⟨o, rfl, fun b => ?_⟩
      obtain ⟨φ', hafter, -⟩ := hp b
      exact ⟨φ', hafter⟩

/-- Whoever owes an answer goes on. -/
theorem goesOn_of_owes (hconforms : (machine inputs).Conforms (Ends inputs) c)
    (h : Accounted inputs c.state c.phase l) (howes : Owes c l p) : GoesOn c p := by
  cases p with
  | connection s =>
      obtain ⟨-, ⟨hheld, -⟩, hduty⟩ := howes
      obtain ⟨o, hnext, hpermits⟩ := next_permitted (p := .connection s) hconforms
        fun r hend => by
          rw [show (c.phase (.connection s)).stage = .released from hend] at hheld
          cases hheld
      obtain ⟨φ', hafter⟩ := hpermits true
      refine ⟨o, hnext, or_iff_not_imp_left.mpr fun hhalt choice => exec_isSome (fun hwaits => ?_) ..⟩
      cases o <;> simp only [Op.Waits] at hwaits
      case halt => exact hhalt rfl
      case readMessageLine t => exact (permit_eq_some.mp hafter).1.2.duty hduty
      case waitNextChunk h => cases hduty.symm.trans (permit_eq_some.mp hafter).1.2.2.2
      case joinReader h => cases hduty.symm.trans (permit_eq_some.mp hafter).1.2.2.2
      all_goals cases hafter
  | worker l₀ =>
      obtain ⟨rfl, howes⟩ := howes
      by_cases hmem : l₀ ∈ c.state.queued
      · have hlane := h.lane hmem
        have hplace := h.place
        have hpos := List.count_pos_iff.mpr hmem
        have hfresh : (c.phase (.worker l₀)).stage = .fresh := by
          by_contra hfresh
          simp only [places, hfresh, if_false] at hplace
          omega
        obtain ⟨o, hnext, hpermits⟩ := next_permitted (p := .worker l₀) hconforms fun r hend => by
          simp only [Ends, hlane, if_true, hfresh] at hend
          cases hend.1
        obtain ⟨φ', hafter⟩ := hpermits true
        refine ⟨o, hnext, .inr fun choice => ?_⟩
        cases o <;> simp only [after, workerAfter, permit_eq_some, reduceCtorEq] at hafter
        case dequeue l =>
          obtain ⟨⟨rfl, -⟩, -⟩ := hafter
          simp [exec, hmem]
        all_goals exact exec_isSome (by simp [Op.Waits]) ..
      · obtain ⟨hheld, hduty⟩ := howes.resolve_left hmem
        obtain ⟨o, hnext, hpermits⟩ := next_permitted (p := .worker l₀) hconforms fun r hend => by
          simp only [Ends] at hend
          split at hend
          · exact hend.2.2 hduty
          · rw [hend] at hduty
            cases hduty
        obtain ⟨φ', hafter⟩ := hpermits true
        refine ⟨o, hnext, .inr fun choice => exec_isSome (fun hwaits => ?_) ..⟩
        cases o <;> simp only [Op.Waits] at hwaits
        case dequeue l =>
          cases hheld.symm.trans (permit_eq_some.mp hafter).1.2
        all_goals cases hafter
  | _ => exact howes.elim

end Progress

/-! ## Final responses -/

/-- Line `l` has at most one final response, and none before it is read; the response is correlated to
its request; and while the session can be written, a line that has been read has it, or a thread that
still owes it goes on. -/
structure AnsweredOnce (c : Machine.Config Party Op State Phase) (l : LineId)
    (request : DispatchRequest) : Prop where
  unread : c.state.read l.session ≤ l.line → c.state.answers l = []
  once : (c.state.answers l).length ≤ 1
  correlated : ∀ out ∈ c.state.answers l, request.Correlated out.frame
  answered : l.line < c.state.read l.session → (c.state.session l.session).Writable →
    (∃ out, c.state.answers l = [out]) ∨ ∃ p, Owes c l p ∧ GoesOn c p

/-- An answer that is owed is owed by somebody. -/
theorem exists_owes {c : Machine.Config Party Op State Phase} {l : LineId}
    (h : 0 < owed c.state c.phase l) : ∃ p, Owes c l p := by
  unfold owed at h
  by_cases hconnection : (c.phase (.connection l.session)).OwesAt l
  · exact ⟨.connection l.session, rfl, hconnection⟩
  · by_cases hworker : (c.phase (.worker l)).OwesHeld
    · exact ⟨.worker l, rfl, .inr hworker⟩
    · rw [if_neg hconnection, if_neg hworker] at h
      exact ⟨.worker l, rfl, .inl (List.count_pos_iff.mp h)⟩

/-- Whoever owes an answer counts. -/
theorem owed_pos {c : Machine.Config Party Op State Phase} {l : LineId} {p : Party}
    (h : Owes c l p) : 0 < owed c.state c.phase l := by
  unfold owed
  cases p with
  | connection s =>
      obtain ⟨rfl, howes⟩ := h
      rw [if_pos howes]
      exact Nat.succ_pos _
  | worker l₀ =>
      obtain ⟨rfl, hmem | hheld⟩ := h
      · have hpos := List.count_pos_iff.mpr hmem
        omega
      · rw [if_pos hheld]
        omega
  | _ => exact h.elim

/-- The request of line `l` has been lost on its way to a lane: the lane could not be told, or could
not take the request. -/
def LostRequest (c : Machine.Config Party Op State Phase) (l : LineId) : Prop :=
  (c.phase (.connection l.session)).Lost l

end Muxly.Server
