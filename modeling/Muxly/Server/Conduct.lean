/-
# Muxly.Server.Conduct -- the phase of every thread, and the calls that it may make

Every thread carries a phase: whether it still has the reference it started with, how many lines it
has read, what it owes to the request at hand, and how far it is with the handle of a stream. `after`
moves the phase at each call and refuses a call that the code never makes in it. `scripts_follow`
walks the scripts once and shows that no call is ever refused; what the later modules prove about all
runs, they prove about single calls in the phases that permit them.
-/
import Muxly.Server.Handlers

namespace Muxly.Server

open Muxly.Core Muxly.Daemon Muxly.Sync Script

/-! ## Phases -/

/-- The reference that a thread starts with: the one of `init` for a connection, the one taken for
its request for a worker. -/
inductive Stage where
  | fresh
  | held
  /-- A connection that has closed its projection streams. -/
  | closed
  | released
  deriving DecidableEq

/-- What a thread owes to the request at hand. -/
inductive Duty where
  | none
  /-- The final response. -/
  | owed
  | paid
  /-- A worker owes it now. -/
  | delegated
  /-- The session cannot be written any more. -/
  | unwritten
  /-- The request could not be handed to its lane. -/
  | dropped
  /-- The lane of the request could not be told: its slot is never given back. -/
  | unclassified
  deriving DecidableEq

/-- The handle of the stream request at hand. -/
inductive Hand where
  | empty
  | ttyPrivate
  | ttyRegistered
  /-- Deinitialised, but not yet unregistered. -/
  | ttyDestroyed
  | ttyGone
  | projectionPrivate
  | projectionRegistered
  /-- Its acknowledgement could not be written. -/
  | projectionRefused
  /-- Deinitialised by its own request. -/
  | projectionDropped
  deriving DecidableEq

/-- The request at hand may end with the handle like this. -/
def Hand.Settled (hand : Hand) : Prop :=
  hand = .empty ∨ hand = .ttyGone ∨ hand = .projectionRegistered ∨ hand = .projectionDropped

instance (hand : Hand) : Decidable hand.Settled := inferInstanceAs (Decidable (_ ∨ _))

/-- The phase of a thread. -/
structure Phase where
  stage : Stage
  /-- How many lines a connection has read. -/
  read : Nat
  duty : Duty
  /-- The thread has reserved a pending slot and not yet given it back. -/
  slot : Bool
  /-- A connection has taken the reference of a worker that is not queued yet. -/
  extra : Bool
  hand : Hand
  deriving DecidableEq

namespace Phase

/-- Before the first call. -/
def start : Phase := ⟨.fresh, 0, .none, false, false, .empty⟩

/-- A connection at line `i`. -/
def serving (i : Nat) (duty : Duty) (slot : Bool) (hand : Hand) : Phase :=
  ⟨.held, i + 1, duty, slot, false, hand⟩

variable (φ : Phase)

/-- The connection is done with the line at hand, or with all lines. -/
@[mk_iff]
structure Spent : Prop where
  held : φ.stage = .held
  duty : φ.duty ≠ .owed
  slot : φ.slot = true → φ.duty = .unclassified
  extra : φ.extra = false
  hand : φ.hand.Settled

/-- The connection can read the next line. -/
@[mk_iff]
structure Idle : Prop extends Spent φ where
  dropped : φ.duty ≠ .dropped
  classified : φ.duty ≠ .unclassified

variable {φ} in
/-- A connection that can read the next line has no slot. -/
theorem Idle.slot_eq (h : φ.Idle) : φ.slot = false := by
  by_contra hslot
  exact h.classified (h.slot (by simpa using hslot))

instance : Decidable φ.Spent := decidable_of_iff' _ (spent_iff φ)

instance : Decidable φ.Idle := decidable_of_iff' _ (idle_iff φ)

/-- The connection holds its reference and is at line `l`. -/
def At (l : LineId) : Prop := φ.stage = .held ∧ φ.read = l.line + 1

instance (l : LineId) : Decidable (φ.At l) := inferInstanceAs (Decidable (_ ∧ _))

end Phase

/-! ## Permitted calls -/

/-- A phase under a condition. -/
def permit (condition : Prop) [Decidable condition] (φ : Phase) : Option Phase :=
  if condition then some φ else none

theorem permit_eq_some {condition : Prop} [Decidable condition] {φ φ' : Phase} :
    permit condition φ = some φ' ↔ condition ∧ φ = φ' := by
  simp [permit]

/-- The frame is one that answers the request of the line. -/
def Inputs.Answers (inputs : Inputs) (l : LineId) (frame : Frame) : Prop :=
  ∃ request, inputs.request l = some request ∧ request.Answers frame

instance (inputs : Inputs) (l : LineId) (frame : Frame) : Decidable (inputs.Answers l frame) :=
  match h : inputs.request l with
  | none => isFalse fun ⟨_, hr, _⟩ => by rw [h] at hr; cases hr
  | some request => decidable_of_iff (request.Answers frame)
      ⟨fun ha => ⟨request, h, ha⟩, fun ⟨_, hr, ha⟩ => by rw [h] at hr; cases hr; exact ha⟩

/-- The duty to a line that has just been read. -/
def Inputs.duty (inputs : Inputs) (l : LineId) : Duty :=
  if (inputs.request l).isSome then .owed else .none

/-- A write of the answer. -/
def Phase.wrote (φ : Phase) (success : Bool) : Phase :=
  { φ with duty := if success then .paid else .unwritten }

/-- A question to the store or the backend. -/
def Phase.consulted (φ : Phase) (what : Consulted) (b : Bool) : Phase :=
  if what = .classifyExecutionLane ∧ b = false then { φ with duty := .unclassified } else φ

section Consulted

variable (φ : Phase) (what : Consulted) (b : Bool)

@[simp] theorem Phase.consulted_stage : (φ.consulted what b).stage = φ.stage := by
  unfold Phase.consulted
  split <;> rfl

@[simp] theorem Phase.consulted_read : (φ.consulted what b).read = φ.read := by
  unfold Phase.consulted
  split <;> rfl

@[simp] theorem Phase.consulted_slot : (φ.consulted what b).slot = φ.slot := by
  unfold Phase.consulted
  split <;> rfl

@[simp] theorem Phase.consulted_extra : (φ.consulted what b).extra = φ.extra := by
  unfold Phase.consulted
  split <;> rfl

@[simp] theorem Phase.consulted_hand : (φ.consulted what b).hand = φ.hand := by
  unfold Phase.consulted
  split <;> rfl

end Consulted

/-- A question that does not concern the lane of a request leaves the phase as it is. -/
theorem Phase.consulted_of_ne {φ : Phase} {what : Consulted} (h : what ≠ .classifyExecutionLane)
    (b : Bool) : φ.consulted what b = φ := by
  rw [Phase.consulted, if_neg fun hc => h hc.1]

/-- A connection thread writes a frame. -/
def connectionWrites (inputs : Inputs) (φ : Phase) (l : LineId) (role : Role) (frame : Frame)
    (b : Bool) : Option Phase :=
  match role with
  | .immediate => permit (φ.At l ∧ φ.duty = .none) φ
  | .answer => permit (φ.At l ∧ φ.duty = .owed ∧ inputs.Answers l frame) (φ.wrote b)
  | .projectionAck =>
    permit (φ.At l ∧ φ.duty = .owed ∧ inputs.Answers l frame ∧ φ.hand = .projectionRegistered)
      { φ.wrote b with hand := if b then .projectionRegistered else .projectionRefused }
  | .data | .streamEnd => permit (φ.At l ∧ φ.duty = .paid) φ

/-- The calls of a connection thread. -/
def connectionAfter (inputs : Inputs) (s : Nat) (φ : Phase) (o : Op) (b : Bool) : Option Phase :=
  match o with
  | .init s' => permit (s' = s ∧ φ.stage = .fresh) { φ with stage := .held }
  | .readMessageLine s' =>
    permit (s' = s ∧ φ.Idle) <|
      if b then
        { φ with read := φ.read + 1, duty := inputs.duty ⟨s, φ.read⟩, hand := .empty }
      else φ
  | .endOfStream s' => permit (s' = s ∧ φ.Idle) φ
  | .tryReservePendingSlot s' =>
    permit (s' = s ∧ φ.stage = .held ∧ φ.duty = .owed ∧ φ.slot = false)
      { φ with slot := b }
  | .retain s' =>
    permit (s' = s ∧ φ.stage = .held ∧ φ.duty = .owed ∧ φ.slot = true ∧ φ.extra = false)
      { φ with extra := true }
  | .enqueue l =>
    permit (l.session = s ∧ φ.At l ∧ φ.duty = .owed ∧ φ.slot = true ∧ φ.extra = true ∧
        (inputs.laneRequest l).isSome) <|
      if b then { φ with duty := .delegated, slot := false, extra := false }
      else { φ with duty := .dropped }
  | .finishPendingRequest s' =>
    permit (s' = s ∧ φ.stage = .held ∧ φ.duty ≠ .owed ∧ φ.slot = true) { φ with slot := false }
  | .release s' =>
    if φ.extra then
      permit (s' = s ∧ φ.stage = .held ∧ φ.duty = .dropped) { φ with extra := false }
    else permit (s' = s ∧ φ.stage = .closed) { φ with stage := .released }
  | .markClosed s' => permit (s' = s ∧ φ.stage = .held) φ
  | .writeFrame l role frame =>
    if l.session = s then connectionWrites inputs φ l role frame b else none
  | .consult what =>
    permit (φ.stage = .held ∧
      (what = .classifyExecutionLane → φ.duty = .owed ∧ φ.slot = true ∧ φ.extra = false))
      (φ.consulted what b)
  | .broadcast | .halt => permit (φ.stage = .held) φ
  | .ttyInit l _ =>
    permit (l.session = s ∧ φ.At l ∧ φ.duty = .owed ∧ φ.hand = .empty)
      { φ with hand := .ttyPrivate }
  | .ttyRegister l =>
    permit (l.session = s ∧ φ.At l ∧ φ.hand = .ttyPrivate) { φ with hand := .ttyRegistered }
  | .ttyDeinit l =>
    permit (l.session = s ∧ φ.At l ∧ (φ.hand = .ttyRegistered ∨ φ.hand = .ttyGone))
      { φ with hand := if φ.hand = .ttyRegistered then .ttyDestroyed else .ttyGone }
  | .ttyUnregister l =>
    permit (l.session = s ∧ φ.At l ∧ φ.hand = .ttyDestroyed) { φ with hand := .ttyGone }
  | .ttyRequestClose l | .waitNextChunk l | .spawnReader l | .joinReader l =>
    permit (l.session = s ∧ φ.At l ∧ φ.hand = .ttyRegistered ∧ φ.duty = .paid) φ
  | .projectionInit l _ _ =>
    permit (l.session = s ∧ φ.At l ∧ φ.duty = .owed ∧ φ.hand = .empty)
      { φ with hand := .projectionPrivate }
  | .projectionRegister l =>
    permit (l.session = s ∧ φ.At l ∧ φ.hand = .projectionPrivate)
      { φ with hand := .projectionRegistered }
  | .projectionDeinit l =>
    permit (l.session = s ∧ φ.At l ∧ φ.hand = .projectionRefused)
      { φ with hand := .projectionDropped }
  | .ttyRegistryRequestClose s' _ | .projectionUnregister s' _ =>
    permit (s' = s ∧ φ.stage = .held ∧ φ.duty = .owed) φ
  | .closeSession s' => permit (s' = s ∧ φ.Spent) { φ with stage := .closed }
  | _ => none

/-- The calls of a worker. -/
def workerAfter (inputs : Inputs) (l : LineId) (φ : Phase) (o : Op) (b : Bool) : Option Phase :=
  match o with
  | .dequeue l' =>
    permit (l' = l ∧ φ.stage = .fresh) { φ with stage := .held, duty := .owed, slot := true }
  | .isClosed s =>
    permit (s = l.session ∧ φ.stage = .held ∧ φ.duty = .owed) (if b then φ.wrote false else φ)
  | .consult _ | .broadcast => permit (φ.stage = .held) φ
  | .writeFrame l' role frame =>
    permit (l' = l ∧ role = .answer ∧ φ.stage = .held ∧ φ.duty = .owed ∧ inputs.Answers l frame)
      (φ.wrote b)
  | .markClosed s => permit (s = l.session ∧ φ.stage = .held) φ
  | .release s =>
    permit (s = l.session ∧ φ.stage = .held ∧ φ.duty ≠ .owed) { φ with stage := .released }
  | .finishPendingRequest s =>
    permit (s = l.session ∧ φ.stage = .released ∧ φ.slot = true) { φ with slot := false }
  | _ => none

/-- The calls of the reader of a tty stream. -/
def readerAfter (l : LineId) (φ : Phase) : Op → Option Phase
  | .readerStart h | .readerClosing h | .enqueueChunk h _ | .finishReader h | .ttyRequestClose h =>
    permit (h = l) φ
  | .consult _ => some φ
  | _ => none

/-- The calls of a client thread. -/
def clientAfter (s : Nat) (φ : Phase) : Op → Option Phase
  | .sendLine l | .awaitAnswer l => permit (l.session = s) φ
  | _ => none

/-- The phase after a call, unless the code never makes the call in that phase. -/
def after (inputs : Inputs) (p : Party) (φ : Phase) (o : Op) (b : Bool) : Option Phase :=
  match p with
  | .connection s => connectionAfter inputs s φ o b
  | .worker l => workerAfter inputs l φ o b
  | .reader l => readerAfter l φ o
  | .client s _ => clientAfter s φ o
  | .maintenance =>
    match o with
    | .broadcast => some φ
    | _ => none

/-- The machine of the daemon and its clients. -/
def machine (inputs : Inputs) : Machine Party Op Choice State Phase where
  exec _ o choice st := exec choice st o
  after := after inputs

@[simp] theorem machine_exec (inputs : Inputs) (p : Party) (o : Op) (choice : Choice)
    (st : State) : (machine inputs).exec p o choice st = exec choice st o := rfl

@[simp] theorem machine_after (inputs : Inputs) : (machine inputs).after = after inputs := rfl

/-- The phase of the other connections. -/
theorem update_connection (phase : Party → Phase) {s t : Nat} (φ' : Phase) :
    Function.update phase (.connection s) φ' (.connection t) =
      if t = s then φ' else phase (.connection t) := by
  by_cases h : t = s
  · subst h
    simp
  · simp [h]

/-! ## Frames that answer -/

section Answers

variable {inputs : Inputs} {l : LineId} {request : DispatchRequest}

theorem answers_failure (hrequest : inputs.request l = some request)
    (hcloses : ¬request.ClosesStream) (message : String) :
    inputs.Answers l (request.buildFailureFrame message) := by
  refine ⟨request, hrequest, ?_⟩
  rcases request with ⟨text, _ | response⟩
  · exact ⟨rfl, hcloses⟩
  · exact ⟨rfl, rfl⟩

theorem answers_closed (hrequest : inputs.request l = some request)
    (hcloses : request.ClosesStream) (closed : Bool) :
    inputs.Answers l (request.buildSuccessFrameOwned (.closed closed)) := by
  refine ⟨request, hrequest, ?_⟩
  rcases request with ⟨text, _ | response⟩
  · exact hcloses
  · exact ⟨rfl, rfl⟩

theorem answers_routed (hrequest : inputs.request l = some request)
    (hcloses : ¬request.ClosesStream) (body : Body) :
    inputs.Answers l (request.buildSuccessFrameOwned (request.routerResponse body)) := by
  refine ⟨request, hrequest, ?_⟩
  rcases request with ⟨text, _ | response⟩
  · exact ⟨rfl, hcloses⟩
  · exact ⟨rfl, rfl⟩

theorem answers_ack (hrequest : inputs.request l = some request) {response : EnvelopeResponse}
    (hmode : request.responseMode = .envelope response) (mode : String) :
    inputs.Answers l (response.ack mode) := by
  refine ⟨request, hrequest, ?_⟩
  rcases request with ⟨text, _ | response'⟩
  · cases hmode
  · cases hmode
    exact ⟨rfl, rfl⟩

end Answers

/-! ## The scripts follow their protocols -/

section Walk

attribute [local simp] after connectionAfter connectionWrites workerAfter permit Phase.At
  Phase.serving Phase.spent_iff Phase.idle_iff Hand.Settled Phase.wrote Bool.forall_bool

variable {inputs : Inputs} {l : LineId} {request : DispatchRequest}

/-- How the handling of line `l` leaves the phase of its connection. -/
def Served (l : LineId) {α : Type} (r : Option α) (φ : Phase) : Prop :=
  φ.read = l.line + 1 ∧ φ.Spent ∧ (r.isSome → φ.Idle)

/-- The answer of the line has been written or can no longer be written; the thread still has a slot
if it took one. -/
def Replied (l : LineId) (slot : Bool) (hand : Hand) {α : Type} (_ : Option α) (φ : Phase) :
    Prop :=
  φ = .serving l.line .paid slot hand ∨ φ = .serving l.line .unwritten slot hand

theorem Replied.served {hand : Hand} (hhand : hand.Settled) {α : Type} {r : Option α} {φ : Phase}
    (h : Replied l false hand r φ) : Served l r φ := by
  obtain rfl | rfl := h <;> simp_all [Served]

theorem follows_refuse (hrequest : inputs.request l = some request)
    (hcloses : ¬request.ClosesStream) (message : String) (slot : Bool) :
    (machine inputs).Follows (.connection l.session) (.serving l.line .owed slot .empty)
      (refuse l request message) (Replied l slot .empty) := by
  have hanswers := answers_failure hrequest hcloses message
  simp [refuse, Machine.follows_attempt, hanswers, Replied]

theorem follows_castRequestId (response : EnvelopeResponse) {s : Nat} {φ : Phase}
    (hheld : φ.stage = .held) {Q : Option Unit → Phase → Prop} (hQ : Q (some ()) φ) :
    (machine inputs).Follows (.connection s) φ (castRequestId response) Q := by
  unfold castRequestId
  split
  · simp [Machine.follows_perform, hheld, hQ]
  · exact hQ

theorem follows_notify {p : Party} {φ : Phase} (hkeep : ∀ b, after inputs p φ .broadcast b = some φ)
    (count : Nat) {Q : Option Unit → Phase → Prop} (hQ : Q (some ()) φ) :
    (machine inputs).Follows p φ (notify count) Q := by
  refine Machine.follows_forEach (I := fun φ' => φ' = φ) ?_ ?_ rfl
  · rintro _ _ _ rfl b
    exact ⟨_, hkeep b, rfl⟩
  · rintro _ rfl
    exact hQ

theorem follows_writeChunks (response : EnvelopeResponse) (slot : Bool) (turns : Nat) :
    (machine inputs).Follows (.connection l.session) (.serving l.line .paid slot .ttyRegistered)
      (writeChunks l response turns) fun r φ =>
        r = some () ∧ φ = .serving l.line .paid slot .ttyRegistered := by
  induction turns with
  | zero => simp [writeChunks, Machine.follows_perform]
  | succ turns ih =>
      simp only [Phase.serving] at ih
      simp [writeChunks, ask, perform, bindResult, onValue, Machine.follows_op, ih]

theorem follows_streamTtyOutput (response : EnvelopeResponse) (slot : Bool) (chunks : Nat) :
    (machine inputs).Follows (.connection l.session) (.serving l.line .paid slot .ttyRegistered)
      (streamTtyOutput l response chunks) (Replied l slot .ttyRegistered) := by
  refine Machine.Follows.defers (R := fun _ φ => φ = .serving l.line .paid slot .ttyRegistered)
    ((follows_writeChunks response slot chunks).bind ?_ fun _ h => h.2) ?_
  · rintro _ _ ⟨-, rfl⟩
    simp [Machine.follows_perform]
  · rintro _ _ rfl
    simp [Replied]

theorem follows_attachTtyStream (hrequest : inputs.request l = some request)
    {response : EnvelopeResponse} (hmode : request.responseMode = .envelope response)
    (slot : Bool) (chunks : Nat) :
    (machine inputs).Follows (.connection l.session) (.serving l.line .owed slot .ttyRegistered)
      (attachTtyStream l response chunks) (Replied l slot .ttyRegistered) := by
  have hack := answers_ack hrequest hmode "live-only"
  rw [attachTtyStream, bind_eq, Machine.follows_bindResult]
  refine follows_castRequestId response rfl ?_
  refine Machine.Follows.attempt_bind (g := .serving l.line .paid slot .ttyRegistered)
    (by simp [hack]) ?_ (by simp [hack, Replied])
  refine Machine.Follows.attempt_bind (g := .serving l.line .paid slot .ttyRegistered)
    (by simp) ?_ (by simp [Replied])
  exact follows_streamTtyOutput response slot chunks

theorem follows_serveTtyStream (hrequest : inputs.request l = some request)
    {response : EnvelopeResponse} (hmode : request.responseMode = .envelope response)
    (slot : Bool) (chunks : Nat) :
    (machine inputs).Follows (.connection l.session) (.serving l.line .owed slot .empty)
      (serveTtyStream l response chunks) (Replied l slot .ttyGone) := by
  refine Machine.Follows.perform_bind (.serving l.line .owed slot .ttyPrivate) (by simp) ?_
  refine Machine.Follows.errdefers (R := Replied l slot .ttyGone) ?_ (fun _ _ h => h) ?_
  · refine Machine.Follows.perform_bind (.serving l.line .owed slot .ttyRegistered) (by simp) ?_
    refine ((follows_attachTtyStream hrequest hmode slot chunks).defers
      (Q := Replied l slot .ttyDestroyed) ?_).defers ?_
    · rintro r _ (rfl | rfl) <;> simp [Replied]
    · rintro r _ (rfl | rfl) <;> simp [Replied]
  · rintro _ (rfl | rfl) <;> simp [Replied]

theorem follows_withPendingSlot (hrequest : inputs.request l = some request)
    (hcloses : ¬request.ClosesStream) {body : Script Op Unit} (hand : Hand) (hhand : hand.Settled)
    (hbody : (machine inputs).Follows (.connection l.session) (.serving l.line .owed true .empty)
      body fun r φ => Replied l true .empty r φ ∨ Replied l true hand r φ) :
    (machine inputs).Follows (.connection l.session) (.serving l.line .owed false .empty)
      (withPendingSlot l request body) (Served l) := by
  refine Machine.Follows.ask_bind fun
    | false => ⟨.serving l.line .owed false .empty, by simp, ?_⟩
    | true => ⟨.serving l.line .owed true .empty, by simp, ?_⟩
  · exact (follows_refuse hrequest hcloses _ false).mono fun _ _ h => h.served (.inl rfl)
  · refine hbody.defers fun r φ h b => ?_
    obtain (rfl | rfl) | (rfl | rfl) := h
    · exact ⟨.serving l.line .paid false .empty, by simp, Replied.served (.inl rfl) (.inl rfl)⟩
    · exact ⟨.serving l.line .unwritten false .empty, by simp,
        Replied.served (.inl rfl) (.inr rfl)⟩
    · exact ⟨.serving l.line .paid false hand, by simp, Replied.served hhand (.inl rfl)⟩
    · exact ⟨.serving l.line .unwritten false hand, by simp, Replied.served hhand (.inr rfl)⟩

/-- A question to the store or the backend. -/
theorem follows_consult {what : Consulted} {k : Bool → Script Op Unit} {s : Nat} {φ : Phase}
    (hheld : φ.stage = .held) (hwhat : what ≠ .classifyExecutionLane)
    {Q : Option Unit → Phase → Prop}
    (hk : ∀ b, (machine inputs).Follows (.connection s) φ (k b) Q) :
    (machine inputs).Follows (.connection s) φ (ask (.consult what) >>= k) Q :=
  Machine.Follows.ask_bind fun b => ⟨φ, by simp [hheld, hwhat, Phase.consulted_of_ne], hk b⟩

theorem follows_handleTtyStreamOpen (hrequest : inputs.request l = some request)
    (hcloses : ¬request.ClosesStream) (chunks : Nat) :
    (machine inputs).Follows (.connection l.session) (.serving l.line .owed false .empty)
      (handleTtyStreamOpen l request chunks) (Served l) := by
  have hrefuse := follows_refuse hrequest hcloses
  unfold handleTtyStreamOpen
  cases hmode : request.responseMode with
  | jsonRpc => exact (hrefuse _ false).mono fun _ _ h => h.served (.inl rfl)
  | envelope response =>
      refine follows_withPendingSlot hrequest hcloses .ttyGone (.inr (.inl rfl)) ?_
      refine follows_consult rfl (by decide) fun
        | false => (hrefuse _ true).mono fun _ _ h => .inl h
        | true => follows_consult rfl (by decide) fun
          | false => (hrefuse _ true).mono fun _ _ h => .inl h
          | true => (follows_serveTtyStream hrequest hmode true chunks).mono fun _ _ h => .inr h

theorem follows_writeCapture (response : EnvelopeResponse) (slot : Bool) (turns : Nat) :
    (machine inputs).Follows (.connection l.session) (.serving l.line .paid slot .empty)
      (writeCapture l response turns) (Replied l slot .empty) := by
  induction turns with
  | zero => simp [writeCapture, Machine.follows_perform, Replied]
  | succ turns ih =>
      refine Machine.Follows.ask_bind fun
        | false => ⟨.serving l.line .paid slot .empty, by simp, ?_⟩
        | true => ⟨.serving l.line .paid slot .empty, by simp, ih⟩
      simp [Machine.follows_perform, Replied]

theorem follows_handlePaneCaptureStreamOpen (hrequest : inputs.request l = some request)
    (hcloses : ¬request.ClosesStream) (events chunks : Nat) :
    (machine inputs).Follows (.connection l.session) (.serving l.line .owed false .empty)
      (handlePaneCaptureStreamOpen l request events chunks) (Served l) := by
  have hrefuse := follows_refuse hrequest hcloses
  unfold handlePaneCaptureStreamOpen
  cases hmode : request.responseMode with
  | jsonRpc => exact (hrefuse _ false).mono fun _ _ h => h.served (.inl rfl)
  | envelope response =>
      have hack := answers_ack hrequest hmode "chunked-finite"
      refine follows_withPendingSlot hrequest hcloses .empty (.inl rfl) ?_
      refine follows_consult rfl (by decide) fun
        | false => (hrefuse _ true).mono fun _ _ h => .inl h
        | true => ?_
      refine (Machine.follows_bindResult ..).mpr (follows_notify (fun b => by simp) events ?_)
      refine follows_consult rfl (by decide) fun
        | false => (hrefuse _ true).mono fun _ _ h => .inl h
        | true => ?_
      refine (Machine.follows_bindResult ..).mpr (follows_castRequestId response rfl ?_)
      refine Machine.Follows.attempt_bind (g := .serving l.line .paid true .empty)
        (by simp [hack]) ?_ (by simp [hack, Replied])
      exact (follows_writeCapture response true chunks).mono fun _ _ h => .inl h

theorem follows_handleProjectionStreamOpen (hrequest : inputs.request l = some request)
    (hcloses : ¬request.ClosesStream) :
    (machine inputs).Follows (.connection l.session) (.serving l.line .owed false .empty)
      (handleProjectionStreamOpen l request) (Served l) := by
  have hrefuse := follows_refuse hrequest hcloses
  unfold handleProjectionStreamOpen
  cases hmode : request.responseMode with
  | jsonRpc => exact (hrefuse _ false).mono fun _ _ h => h.served (.inl rfl)
  | envelope response =>
      have hack := answers_ack hrequest hmode "push"
      refine follows_consult rfl (by decide) fun
        | false => (hrefuse _ false).mono fun _ _ h => h.served (.inl rfl)
        | true => ?_
      refine Machine.Follows.perform_bind (.serving l.line .owed false .projectionPrivate)
        (by simp) ?_
      refine Machine.Follows.errdefers (R := fun r φ =>
        (r = some () → φ = .serving l.line .paid false .projectionRegistered) ∧
        (r = none → φ = .serving l.line .unwritten false .projectionRefused)) ?_ ?_ ?_
      · refine Machine.Follows.perform_bind (.serving l.line .owed false .projectionRegistered)
          (by simp) ?_
        refine (Machine.follows_bindResult ..).mpr (follows_castRequestId response rfl ?_)
        simp [onValue, Machine.follows_attempt, hack]
      · intro _ _ h
        exact Replied.served (.inr (.inr (.inl rfl))) (.inl (h.1 rfl))
      · intro _ h
        rw [h.2 rfl]
        simp [Served]

theorem follows_handleStreamClose (hrequest : inputs.request l = some request)
    (hkind : specialRequestKind request.requestJson = .ttyStreamClose ∨
      specialRequestKind request.requestJson = .projectionStreamClose)
    {close : Nat → Bytes → Op} (hclose : ∀ conversationId b,
      after inputs (.connection l.session) (.serving l.line .owed false .empty)
        (close l.session conversationId) b = some (.serving l.line .owed false .empty)) :
    (machine inputs).Follows (.connection l.session) (.serving l.line .owed false .empty)
      (handleStreamClose l request close) (Served l) := by
  unfold handleStreamClose
  cases hid : streamConversationId request.requestJson with
  | none =>
      have hcloses : ¬request.ClosesStream := by
        rintro ⟨-, h⟩
        simp [hid] at h
      exact (follows_refuse hrequest hcloses _ false).mono fun _ _ h => h.served (.inl rfl)
  | some conversationId =>
      have hanswers := answers_closed hrequest ⟨hkind, by rw [hid]; rfl⟩
      refine Machine.Follows.ask_bind fun b => ⟨_, hclose conversationId b, ?_⟩
      simp [Machine.follows_attempt, hanswers, Served]

theorem follows_writeOrClose_answer (frame : Frame) (hanswers : inputs.Answers l frame) :
    (machine inputs).Follows (.connection l.session) (.serving l.line .owed false .empty)
      (writeOrClose l .answer frame) (Served l) := by
  simp [writeOrClose, ask, perform, bindResult, onValue, Machine.follows_op, hanswers, Served]

theorem follows_writeImmediate (frames : List Frame) :
    (machine inputs).Follows (.connection l.session) (.serving l.line .none false .empty)
      (writeImmediate l frames) (Served l) := by
  induction frames with
  | nil => simp [writeImmediate, Served]
  | cons frame rest ih =>
      rw [writeImmediate]
      refine Machine.Follows.bind (R := fun r φ => r.isSome ∧ φ = .serving l.line .none false .empty) ?_ ?_ ?_
      · simp [writeOrClose, ask, perform, bindResult, onValue, Machine.follows_op]
      · rintro (_ | _) _ ⟨-, rfl⟩
        · simp [Served]
        · exact ih
      · rintro _ ⟨h, -⟩
        cases h

/-- A request without a special kind closes no stream. -/
theorem laneRequest_eq_some (h : inputs.laneRequest l = some request) :
    inputs.request l = some request ∧ ¬request.ClosesStream := by
  rw [Inputs.laneRequest, Option.filter_eq_some_iff] at h
  obtain ⟨hrequest, hkind⟩ := h
  simp only [decide_eq_true_eq] at hkind
  refine ⟨hrequest, ?_⟩
  rintro ⟨h | h, -⟩ <;> rw [hkind] at h <;> cases h

theorem follows_dispatchToLane (hlane : inputs.laneRequest l = some request) :
    (machine inputs).Follows (.connection l.session) (.serving l.line .owed false .empty)
      (dispatchToLane l request) (Served l) := by
  obtain ⟨hrequest, hcloses⟩ := laneRequest_eq_some hlane
  refine Machine.Follows.ask_bind fun
    | false => ⟨.serving l.line .owed false .empty, by simp,
        follows_writeOrClose_answer _ (answers_failure hrequest hcloses _)⟩
    | true => ⟨.serving l.line .owed true .empty, by simp, ?_⟩
  refine Machine.Follows.attempt_bind (g := .serving l.line .owed true .empty)
    (by simp [Phase.consulted]) ?_ (by simp [Phase.consulted, Served])
  simp [ask, perform, fail, bindResult, onValue, Machine.follows_op, Served, hlane]

theorem follows_serveRequest (hrequest : inputs.request l = some request) :
    (machine inputs).Follows (.connection l.session) (.serving l.line .owed false .empty)
      (serveRequest inputs l request) (Served l) := by
  have hgoesOn {m : Script Op Unit} (hm : (machine inputs).Follows (.connection l.session)
      (.serving l.line .owed false .empty) m (Served l)) :
      (machine inputs).Follows (.connection l.session) (.serving l.line .owed false .empty)
        (m >>= fun _ => return true) (Served l) :=
    hm.bind (fun _ _ h => h) fun _ h => ⟨h.1, h.2.1, nofun⟩
  have hother (h : specialRequestKind request.requestJson ≠ .ttyStreamClose)
      (h' : specialRequestKind request.requestJson ≠ .projectionStreamClose) :
      ¬request.ClosesStream := fun hc => hc.1.elim h h'
  unfold serveRequest
  split <;> rename_i hkind
  · exact hgoesOn (follows_handleTtyStreamOpen hrequest (hother (by simp [hkind]) (by simp [hkind])) _)
  · exact hgoesOn (follows_handleStreamClose hrequest (.inl hkind) fun _ _ => by simp)
  · exact hgoesOn (follows_handlePaneCaptureStreamOpen hrequest
      (hother (by simp [hkind]) (by simp [hkind])) _ _)
  · exact hgoesOn (follows_handlePaneCaptureStreamOpen hrequest
      (hother (by simp [hkind]) (by simp [hkind])) _ _)
  · exact hgoesOn (follows_handleProjectionStreamOpen hrequest
      (hother (by simp [hkind]) (by simp [hkind])))
  · exact hgoesOn (follows_handleStreamClose hrequest (.inr hkind) fun _ _ => by simp)
  · exact follows_dispatchToLane (by simp [Inputs.laneRequest, hrequest, hkind])

theorem follows_serveLine {handled : HandleLineResult}
    (hline : (inputs.accepted l.session)[l.line]? = some (some handled)) :
    (machine inputs).Follows (.connection l.session)
      (.serving l.line (inputs.duty l) false .empty) (serveLine inputs l handled) (Served l) := by
  have hend {m : Script Op Bool} {φ : Phase}
      (hm : (machine inputs).Follows (.connection l.session) φ m (Served l)) :
      (machine inputs).Follows (.connection l.session) φ
        (m >>= fun more => return more && !inputs.singleRequestPerConnection) (Served l) :=
    hm.bind (fun _ _ h => h) fun _ h => ⟨h.1, h.2.1, nofun⟩
  cases handled with
  | immediate frames =>
      have hduty : inputs.duty l = .none := by simp [Inputs.duty, Inputs.request, hline]
      rw [hduty]
      exact hend (follows_writeImmediate frames)
  | dispatch request =>
      have hrequest : inputs.request l = some request := by simp [Inputs.request, hline]
      have hduty : inputs.duty l = .owed := by simp [Inputs.duty, hrequest]
      rw [hduty]
      exact hend (follows_serveRequest hrequest)

/-- Reading line `i` starts its handling. -/
theorem Phase.Idle.read {s i : Nat} {φ : Phase} (h : φ.Idle) (hread : φ.read = i) :
    after inputs (.connection s) φ (.readMessageLine s) true =
      some (.serving i (inputs.duty ⟨s, i⟩) false .empty) := by
  have hslot := h.slot_eq
  have hextra := h.extra
  have hheld := h.held
  rcases φ with ⟨stage, read, duty, slot, extra, hand⟩
  obtain rfl : read = i := hread
  obtain rfl : slot = false := hslot
  obtain rfl : extra = false := hextra
  obtain rfl : stage = .held := hheld
  simp only [after, connectionAfter, permit, h]
  simp

/-- The calls that a connection may make between two lines. -/
theorem Phase.Idle.permits {s : Nat} {φ : Phase} (h : φ.Idle) :
    after inputs (.connection s) φ (.readMessageLine s) false = some φ ∧
      (∀ b, after inputs (.connection s) φ (.endOfStream s) b = some φ) ∧
      ∀ b, after inputs (.connection s) φ (.markClosed s) b = some φ := by
  simp [after, connectionAfter, permit, h, h.held, -Phase.idle_iff]

theorem follows_readLoop (s : Nat) (rest : List (Option HandleLineResult)) (i : Nat)
    (hrest : (inputs.accepted s).drop i = rest) {φ : Phase} (hidle : φ.Idle) (hread : φ.read = i) :
    (machine inputs).Follows (.connection s) φ (readLoop inputs s i rest) fun _ φ' => φ'.Spent := by
  induction rest generalizing i φ with
  | nil =>
      obtain ⟨-, hend, hclose⟩ := @Phase.Idle.permits inputs s φ hidle
      refine Machine.Follows.attempt_bind (hend true) ?_ ⟨φ, hend false, hidle.toSpent⟩
      exact fun b => ⟨φ, hclose b, hidle.toSpent⟩
  | cons handled rest ih =>
      have hline : (inputs.accepted s)[i]? = some handled := by
        rw [← List.head?_drop, hrest, List.head?_cons]
      have hdrop : (inputs.accepted s).drop (i + 1) = rest := by
        rw [← List.tail_drop, hrest, List.tail_cons]
      have hfail := @Phase.Idle.permits inputs s φ hidle
      cases handled with
      | none =>
          refine Machine.Follows.attempt_bind (hidle.read hread) ?_ ⟨φ, hfail.1, hidle.toSpent⟩
          have hduty : inputs.duty ⟨s, i⟩ = .none := by simp [Inputs.duty, Inputs.request, hline]
          rw [hduty]
          exact ih (i + 1) hdrop (by simp) rfl
      | some handled =>
          refine Machine.Follows.attempt_bind (hidle.read hread) ?_ ⟨φ, hfail.1, hidle.toSpent⟩
          refine (follows_serveLine (l := ⟨s, i⟩) hline).bind ?_ ?_
          · rintro (_ | _) φ' ⟨hread', hspent, hidle'⟩
            · exact hspent
            · exact ih (i + 1) hdrop (hidle' rfl) hread'
          · rintro φ' ⟨-, hspent, -⟩
            exact hspent

theorem follows_serveConnectionImpl (s : Nat) :
    (machine inputs).Follows (.connection s) .start (serveConnectionImpl inputs s)
      fun _ φ => φ.stage = .released := by
  refine Machine.Follows.perform_bind { Phase.start with stage := .held } (by simp [Phase.start]) ?_
  have hloop := follows_readLoop s (inputs.accepted s) 0 rfl
    (φ := { Phase.start with stage := .held }) (by simp [Phase.start]) rfl
  refine (hloop.defers (Q := fun _ φ => φ.stage = .closed ∧ φ.extra = false)
    fun _ φ h b => ⟨{ φ with stage := .closed }, ?_, rfl, h.extra⟩).defers
    fun _ φ h b => ⟨{ φ with stage := .released }, ?_, rfl⟩
  · simp [h, -Phase.spent_iff]
  · simp [h.1, h.2]

/-- A worker with a reference and a slot that owes or no longer owes the answer. -/
def Phase.working (duty : Duty) : Phase := ⟨.held, 0, duty, true, false, .empty⟩

theorem follows_worker_answer {frame : Frame} (hanswers : inputs.Answers l frame) :
    (machine inputs).Follows (.worker l) (.working .owed)
      (do let _ ← writeOrClose l .answer frame)
      fun _ φ => φ = .working .paid ∨ φ = .working .unwritten := by
  simp [writeOrClose, ask, perform, bindResult, onValue, Machine.follows_op, hanswers,
    Phase.working]

theorem follows_executeQueuedRequest (hlane : inputs.laneRequest l = some request) :
    (machine inputs).Follows (.worker l) .start (executeQueuedRequest inputs l request)
      fun _ φ => φ.stage = .released ∧ φ.slot = false ∧ φ.duty ≠ .owed := by
  obtain ⟨hrequest, hcloses⟩ := laneRequest_eq_some hlane
  refine Machine.Follows.perform_bind (.working .owed) (by simp [Phase.start, Phase.working]) ?_
  refine Machine.Follows.defers (R := fun _ φ => φ.stage = .released ∧ φ.slot = true ∧ φ.duty ≠ .owed)
    (Machine.Follows.defers
      (R := fun _ φ => φ = .working .paid ∨ φ = .working .unwritten) ?_ ?_) ?_
  · refine Machine.Follows.ask_bind fun
      | true => ⟨.working .unwritten, by simp [Phase.working], .inr rfl⟩
      | false => ⟨.working .owed, by simp [Phase.working], ?_⟩
    refine Machine.Follows.ask_bind fun
      | false => ⟨.working .owed, by simp [Phase.working],
          follows_worker_answer (answers_failure hrequest hcloses _)⟩
      | true => ⟨.working .owed, by simp [Phase.working], ?_⟩
    refine (Machine.follows_bindResult ..).mpr
      (follows_notify (fun b => by simp [Phase.working]) _ ?_)
    refine Machine.Follows.ask_bind fun
      | false => ⟨.working .owed, by simp [Phase.working],
          follows_worker_answer (answers_failure hrequest hcloses _)⟩
      | true => ⟨.working .owed, by simp [Phase.working],
          follows_worker_answer (answers_routed hrequest hcloses _)⟩
  · rintro _ _ (rfl | rfl) <;> simp [Phase.working]
  · rintro _ φ ⟨hstage, hslot, hduty⟩ b
    exact ⟨{ φ with slot := false }, by simp [hstage, hslot], hstage, rfl, hduty⟩

theorem follows_ttyStreamReaderLoop (paneOutput : List Nat) {φ : Phase} :
    (machine inputs).Follows (.reader l) φ (ttyStreamReaderLoop l paneOutput) fun _ φ' => φ' = φ := by
  induction paneOutput with
  | nil =>
      simp [ttyStreamReaderLoop, ask, bindResult, onValue, Machine.follows_op, readerAfter]
  | cons length rest ih =>
      refine Machine.Follows.ask_bind fun closed => ⟨φ, by simp [readerAfter], ?_⟩
      cases closed with
      | true => rfl
      | false =>
          refine Machine.Follows.ask_bind fun queued => ⟨φ, by simp [readerAfter], ?_⟩
          cases queued with
          | false => rfl
          | true => exact Machine.Follows.perform_bind φ (by simp [readerAfter]) ih

theorem follows_ttyStreamReaderMain (paneOutput : List Nat) :
    (machine inputs).Follows (.reader l) .start (ttyStreamReaderMain l paneOutput)
      fun _ _ => True := by
  refine Machine.Follows.perform_bind .start (by simp [readerAfter]) ?_
  refine Machine.Follows.defers (R := fun _ _ => True)
    ((follows_ttyStreamReaderLoop paneOutput).bind ?_ fun _ _ => trivial) ?_
  · rintro (_ | _) _ rfl
    · simp [Machine.follows_perform, readerAfter]
    · trivial
  · simp [readerAfter]

theorem follows_clientThread (s thread : Nat) (calls : List ClientCall) :
    (machine inputs).Follows (.client s thread) .start (clientThread s calls)
      fun _ _ => True := by
  refine Machine.follows_forEach (I := fun _ => True) ?_ (fun _ _ => trivial) trivial
  rintro (line | line) - φ - <;> simp [Machine.follows_perform, clientAfter]

end Walk

/-! ## The whole system -/

/-- The state in which a run starts. -/
def Inputs.start (inputs : Inputs) : Machine.Config Party Op State Phase where
  state := .start
  phase _ := .start
  script := scripts inputs

/-- `n` steps of a party in which everything succeeds. -/
def steps (p : Party) (n : Nat) : List (Party × Choice) := List.replicate n (p, .fine)

/-- How the parties end. -/
def Ends (inputs : Inputs) (p : Party) (_ : Option Unit) (φ : Phase) : Prop :=
  match p with
  | .connection _ => φ.stage = .released
  | .worker l =>
    if (inputs.laneRequest l).isSome then φ.stage = .released ∧ φ.slot = false ∧ φ.duty ≠ .owed
    else φ = .start
  | _ => True

/-- No call of the daemon or of its clients is ever refused. -/
theorem scripts_follow (inputs : Inputs) : (machine inputs).Conforms (Ends inputs) inputs.start := by
  intro p
  cases p with
  | connection s => exact follows_serveConnectionImpl s
  | worker l =>
      cases hlane : inputs.laneRequest l with
      | none => simp [Ends, hlane, Inputs.start, scripts]
      | some request =>
          have hscript : scripts inputs (.worker l) = executeQueuedRequest inputs l request := by
            rw [scripts, hlane]
          show (machine inputs).Follows _ _ (scripts inputs (.worker l)) _
          rw [hscript]
          exact (follows_executeQueuedRequest hlane).mono fun _ _ h => by simpa [Ends, hlane] using h
  | reader l => exact follows_ttyStreamReaderMain _
  | client s thread => exact follows_clientThread s thread _
  | maintenance => exact follows_notify (fun _ => rfl) _ trivial

end Muxly.Server
