/-
# Muxly.Server.Waiting -- no circular wait between a client and its connection

A connection thread that serves a tty stream reads no line before the stream is over. A client that
sends a line in the meantime, and waits for the answer, waits for a thread that may be waiting for
output of the pane. A client that sends nothing more until it has been told the end of every stream
that it has opened never waits for a thread that waits for a pane.
-/
import Muxly.Server.Scenes

namespace Muxly.Server

open Muxly.Core Muxly.Daemon Muxly.Sync

/-! ## What the client does -/

/-- The client has been told that the tty stream of a line is over: by the frame that ends it, or by
an answer that refuses it. -/
def State.StreamEnded (st : State) (l : LineId) : Prop :=
  (∃ out ∈ st.output, out.origin = l ∧ out.role = .streamEnd) ∨
    (st.Answered l ∧ (st.tty l).inited = false)

instance (st : State) (l : LineId) : Decidable (st.StreamEnded l) :=
  inferInstanceAs (Decidable ((∃ out ∈ st.output, out.origin = l ∧ out.role = .streamEnd) ∨ _))

/-- A line is sent when every tty stream that an earlier line of its connection asks for is over. -/
def SendsApart (inputs : Inputs) (_ : Party) (o : Op) (_ : Bool) (st : State) : Prop :=
  match o with
  | .sendLine l => ∀ i < l.line, inputs.OpensTty ⟨l.session, i⟩ → st.StreamEnded ⟨l.session, i⟩
  | _ => True

instance (inputs : Inputs) (p : Party) (o : Op) (b : Bool) (st : State) :
    Decidable (SendsApart inputs p o b st) := by
  unfold SendsApart
  split <;> infer_instance

/-! ## What a call does -/

section Calls

variable {st st' : State} {o : Op} {choice : Choice} {b : Bool}

/-- A call that makes a tty handle, or starts or ends its reader. -/
def Op.Stages (l : LineId) : Op → Prop
  | .ttyInit h _ | .spawnReader h | .finishReader h => h = l
  | _ => False

/-- What the reader of a tty handle has come to. -/
def TtyStreamHandle.Alike (handle handle' : TtyStreamHandle) : Prop :=
  handle'.inited = handle.inited ∧ handle'.readerStarted = handle.readerStarted ∧
    handle'.readerDone = handle.readerDone

theorem onTty_alike (st : State) (h : LineId) {f : TtyStreamHandle → TtyStreamHandle}
    (hf : ∀ handle, TtyStreamHandle.Alike handle (f handle)) (l : LineId) :
    (st.tty l).Alike ((st.onTty h f).tty l) := by
  by_cases hl : l = h
  · subst hl
    simpa [State.onTty] using hf (st.tty l)
  · simp [State.onTty, hl, TtyStreamHandle.Alike]

theorem enqueueOwnedChunk_alike (handle : TtyStreamHandle) (length : Nat) :
    handle.Alike (handle.enqueueOwnedChunk length) := by
  unfold TtyStreamHandle.enqueueOwnedChunk
  split <;> exact ⟨rfl, rfl, rfl⟩

/-- Another call leaves the reader of the handle. -/
theorem exec_alike {l : LineId} (ho : ¬ o.Stages l) (h : exec choice st o = some (b, st')) :
    (st.tty l).Alike (st'.tty l) := by
  have hsame {st'' : State} (htty : st''.tty = st.tty) : (st.tty l).Alike (st''.tty l) := by
    rw [htty]
    exact ⟨rfl, rfl, rfl⟩
  cases o <;> simp only [Op.Stages] at ho <;> simp only [exec] at h
  case writeFrame origin role frame =>
    obtain rfl : (st.writeFrame origin role frame choice.succeeds).2 = st' :=
      congrArg Prod.snd (Option.some.inj h)
    exact hsame (writeFrame_tty ..).1
  case projectionUnregister s conversationId =>
    obtain rfl : (st.projectionUnregister conversationId).2 = st' :=
      congrArg Prod.snd (Option.some.inj h)
    exact hsame (Exits.projectionUnregister .refl conversationId).tty.1
  case closeSession s =>
    cases h
    exact hsame (exits_closeSession st s).tty.1
  case broadcast =>
    cases h
    exact hsame (exits_broadcast st choice).tty.1
  case ttyInit h' conversationId =>
    cases h
    simp [State.onTty, Ne.symm ho, TtyStreamHandle.Alike]
  case spawnReader h' =>
    split at h <;> cases h
    · simp [State.onTty, Ne.symm ho, TtyStreamHandle.Alike]
    · exact hsame rfl
  case finishReader h' =>
    cases h
    simp [State.onTty, Ne.symm ho, TtyStreamHandle.Alike]
  case ttyRegistryRequestClose s conversationId =>
    simp only [State.ttyRegistryRequestClose] at h
    split at h <;> cases h
    · exact onTty_alike st _ (fun _ => by exact ⟨rfl, rfl, rfl⟩) l
    · exact hsame rfl
  case enqueueChunk h' length =>
    cases h
    exact onTty_alike st h' (fun handle => enqueueOwnedChunk_alike handle length) l
  all_goals
    repeat' split at h
    all_goals
      cases h <;> first | exact hsame rfl | exact onTty_alike st _ (fun _ => by exact ⟨rfl, rfl, rfl⟩) l

/-- No handle is unmade, and no reader is unstarted or unfinished, but by the making of the handle. -/
theorem exec_tty {l : LineId} (ho : ∀ conversationId, o ≠ .ttyInit l conversationId)
    (h : exec choice st o = some (b, st')) :
    (st'.tty l).inited = (st.tty l).inited ∧
    ((st.tty l).readerStarted = true → (st'.tty l).readerStarted = true) ∧
    ((st.tty l).readerDone = true → (st'.tty l).readerDone = true) := by
  by_cases hstages : o.Stages l
  · cases o <;> simp only [Op.Stages] at hstages <;> subst hstages <;> simp only [exec] at h
    case ttyInit conversationId => exact absurd rfl (ho conversationId)
    case spawnReader => split at h <;> cases h <;> simp [State.onTty]
    case finishReader =>
      cases h
      simp [State.onTty]
  · obtain ⟨hinited, hstarted, hdone⟩ := exec_alike hstages h
    exact ⟨hinited, fun h => hstarted.trans h, fun h => hdone.trans h⟩

/-- Nothing that has been written is taken back, and no stream is ended. -/
structure Outputs (st st' : State) : Prop where
  keeps : ∀ out ∈ st.output, out ∈ st'.output
  ends : ∀ out ∈ st'.output, out.role = .streamEnd → out ∈ st.output

namespace Outputs

theorem of_eq (h : st'.output = st.output) : Outputs st st' :=
  ⟨fun _ hout => h ▸ hout, fun _ hout _ => h ▸ hout⟩

theorem trans {st'' : State} (h : Outputs st st') (h' : Outputs st' st'') : Outputs st st'' :=
  ⟨fun out hout => h'.keeps out (h.keeps out hout),
    fun out hout hrole => h.ends out (h'.ends out hout hrole) hrole⟩

theorem foldl {α : Type} {f : State → α → State} (hf : ∀ st x, Outputs st (f st x)) (xs : List α)
    (st : State) : Outputs st (xs.foldl f st) := by
  induction xs generalizing st with
  | nil => exact of_eq rfl
  | cons x rest ih => exact (hf st x).trans (ih _)

theorem projectionUnregister (st : State) (conversationId : Bytes) :
    Outputs st (st.projectionUnregister conversationId).2 := by
  unfold State.projectionUnregister
  split <;> exact of_eq rfl

end Outputs

theorem writeFrame_outputs (st : State) (origin : LineId) (role : Role) (frame : Frame)
    (succeeds : Bool) :
    (st.writeFrame origin role frame succeeds).2.output = st.output ∨
      (st.writeFrame origin role frame succeeds).2.output = st.output ++ [⟨origin, role, frame⟩] := by
  rcases (writeFrame_cases st origin role frame succeeds).2 with ⟨-, h⟩ | ⟨-, h, -⟩
  · exact .inr h
  · exact .inl h

/-- A frame that ends no stream. -/
theorem Outputs.writeFrame (st : State) (origin : LineId) {role : Role} (hrole : role ≠ .streamEnd)
    (frame : Frame) (succeeds : Bool) :
    Outputs st (st.writeFrame origin role frame succeeds).2 := by
  rcases writeFrame_outputs st origin role frame succeeds with heq | heq
  · exact .of_eq heq
  · refine ⟨fun out hout => ?_, fun out hout hend => ?_⟩
    · rw [heq]
      exact List.mem_append_left _ hout
    · rw [heq, List.mem_append, List.mem_singleton] at hout
      rcases hout with hout | rfl
      · exact hout
      · exact absurd hend hrole

theorem Outputs.sendEvents (choice : Choice) (hs : List LineId) (acc : State × List Bytes) :
    Outputs acc.1 (hs.foldl (State.sendEvent choice) acc).1 := by
  induction hs generalizing acc with
  | nil => exact .of_eq rfl
  | cons h rest ih =>
      refine Outputs.trans ?_ (ih _)
      unfold State.sendEvent
      split
      · exact .writeFrame _ _ (by decide) _ _
      · exact .of_eq rfl

theorem Outputs.broadcast (st : State) (choice : Choice) : Outputs st (st.broadcast choice) := by
  have hsent := Outputs.sendEvents choice st.projectionStreams (st, [])
  exact hsent.trans (.foldl (fun st conversationId => .projectionUnregister st conversationId) _ _)

/-- Only a write ends a stream. -/
theorem exec_outputs (ho : ∀ l frame, o ≠ .writeFrame l .streamEnd frame)
    (h : exec choice st o = some (b, st')) : Outputs st st' := by
  cases o <;> simp only [exec] at h
  case writeFrame origin role frame =>
    obtain rfl : (st.writeFrame origin role frame choice.succeeds).2 = st' :=
      congrArg Prod.snd (Option.some.inj h)
    exact .writeFrame st origin (fun hrole => ho origin frame (by rw [hrole])) frame _
  case projectionUnregister s conversationId =>
    obtain rfl : (st.projectionUnregister conversationId).2 = st' :=
      congrArg Prod.snd (Option.some.inj h)
    exact .projectionUnregister st conversationId
  case closeSession s =>
    cases h
    exact .foldl (f := State.dropStream) (fun _ _ => .of_eq rfl) _ st
  case broadcast =>
    cases h
    exact .broadcast st choice
  case ttyRegistryRequestClose s conversationId =>
    simp only [State.ttyRegistryRequestClose] at h
    split at h <;> cases h <;> exact .of_eq rfl
  all_goals
    repeat' split at h
    all_goals cases h <;> exact .of_eq rfl

/-- Nothing that has been written is taken back. -/
theorem exec_keeps_output (h : exec choice st o = some (b, st')) :
    ∀ out ∈ st.output, out ∈ st'.output := by
  by_cases ho : ∃ l frame, o = .writeFrame l .streamEnd frame
  · obtain ⟨l, frame, rfl⟩ := ho
    obtain rfl : (st.writeFrame l .streamEnd frame choice.succeeds).2 = st' :=
      congrArg Prod.snd (Option.some.inj h)
    intro out hout
    rcases writeFrame_outputs st l .streamEnd frame choice.succeeds with heq | heq
    · exact heq ▸ hout
    · exact heq ▸ List.mem_append_left _ hout
  · exact (exec_outputs (fun l frame heq => ho ⟨l, frame, heq⟩) h).keeps

theorem writeFrame_sent (st : State) (origin : LineId) (role : Role) (frame : Frame)
    (succeeds : Bool) : (st.writeFrame origin role frame succeeds).2.sent = st.sent := by
  unfold State.writeFrame
  split
  · rfl
  · split <;> rfl

theorem Exits.sent {st st' : State} (h : Exits st st') : st'.sent = st.sent := by
  induction h with
  | refl => rfl
  | write role frame succeeds _ _ ih => exact (writeFrame_sent ..).trans ih
  | drop _ _ ih => exact ih

/-- Whoever does not send a line leaves the lines that have been sent. -/
theorem exec_sent (ho : ∀ l, o ≠ .sendLine l) (h : exec choice st o = some (b, st')) :
    st'.sent = st.sent := by
  cases o <;> simp only [exec] at h
  case sendLine l => exact absurd rfl (ho l)
  case writeFrame origin role frame =>
    obtain rfl : (st.writeFrame origin role frame choice.succeeds).2 = st' :=
      congrArg Prod.snd (Option.some.inj h)
    exact writeFrame_sent ..
  case projectionUnregister s conversationId =>
    obtain rfl : (st.projectionUnregister conversationId).2 = st' :=
      congrArg Prod.snd (Option.some.inj h)
    exact (Exits.projectionUnregister .refl conversationId).sent
  case closeSession s =>
    cases h
    exact (exits_closeSession st s).sent
  case broadcast =>
    cases h
    exact (exits_broadcast st choice).sent
  case ttyRegistryRequestClose s conversationId =>
    simp only [State.ttyRegistryRequestClose] at h
    split at h <;> cases h <;> rfl
  all_goals
    repeat' split at h
    all_goals cases h <;> rfl

end Calls

/-! ## The invariant -/

section Steps

variable {inputs : Inputs} {st st' : State} {phase : Party → Phase} {stage : Party → Scene}
  {p : Party} {o : Op} {choice : Choice} {b : Bool} {φ φ' : Phase} {scene scene' : Scene} {l : LineId}

/-- The stream of line `l` is being served, or has been told over. -/
def Scene.Shows (scene : Scene) (l : LineId) : Prop :=
  scene = .made l ∨ scene = .live l ∨ scene = .told l

/-- The client has not been told that the stream of line `l` is over. -/
def Scene.Serves (scene : Scene) (l : LineId) : Prop := scene = .made l ∨ scene = .live l

/-- The reader of line `l` has been started. -/
def Scene.Started (scene : Scene) (l : LineId) : Prop := scene = .live l ∨ scene = .told l

/-- What holds of the streams in every state. -/
structure Attended (inputs : Inputs) (st : State) (phase : Party → Phase) (stage : Party → Scene) :
    Prop where
  shown : ∀ s l, (stage (.connection s)).Shows l → l.session = s ∧
    (phase (.connection s)).read = l.line + 1 ∧ (st.tty l).inited = true ∧ inputs.OpensTty l
  live : ∀ s l, (stage (.connection s)).Started l → (st.tty l).readerStarted = true
  told : ∀ out ∈ st.output, out.role = .streamEnd →
    out.origin.line < (phase (.connection out.origin.session)).read ∧
    ¬ (phase (.connection out.origin.session)).OwesAt out.origin ∧
    ¬ (stage (.connection out.origin.session)).Serves out.origin
  inited : ∀ l, (st.tty l).inited = true → l.line < (phase (.connection l.session)).read ∧
    ((phase (.connection l.session)).OwesAt l → stage (.connection l.session) ≠ .idle)
  started : ∀ l, (st.tty l).readerStarted = true → (st.tty l).inited = true
  reader : ∀ l, stage (.reader l) ≠ .idle → (st.tty l).readerStarted = true
  finished : ∀ l, stage (.reader l) = .finished → (st.tty l).readerDone = true
  apart : ∀ l : LineId, l.line < st.sent l.session → ∀ i < l.line, inputs.OpensTty ⟨l.session, i⟩ →
    st.StreamEnded ⟨l.session, i⟩

/-! ### Scenes -/

/-- What a call does to the scene of connection `s`. -/
inductive Moves (inputs : Inputs) (s : Nat) (scene : Scene) : Op → Bool → Scene → Prop
  | reads (t : Nat) : Moves inputs s scene (.readMessageLine t) true .idle
  | makes (l : LineId) (conversationId : Bytes) (b : Bool) (hsession : l.session = s)
      (hopens : inputs.OpensTty l) (hidle : scene = .idle) :
      Moves inputs s scene (.ttyInit l conversationId) b (.made l)
  | starts (l : LineId) (hmade : scene = .made l) :
      Moves inputs s scene (.spawnReader l) true (.live l)
  | tells (l : LineId) (frame : Frame) (b : Bool) (hlive : scene = .live l) :
      Moves inputs s scene (.writeFrame l .streamEnd frame) b (.told l)
  | stays (o : Op) (b : Bool) (hread : ∀ t, o = .readMessageLine t → b = false)
      (hinit : ∀ l conversationId, o ≠ .ttyInit l conversationId)
      (hspawn : ∀ l, o = .spawnReader l → scene = .made l ∧ b = false)
      (hend : ∀ l frame, o = .writeFrame l .streamEnd frame → scene = .idle) :
      Moves inputs s scene o b scene

theorem connectionScene_moves {s : Nat} (h : connectionScene inputs s scene o b = some scene') :
    Moves inputs s scene o b scene' := by
  cases o
  case readMessageLine t =>
    cases b <;> cases h
    · exact .stays _ _ (by simp) (by simp) (by simp) (by simp)
    · exact .reads t
  case ttyInit l conversationId =>
    simp only [connectionScene] at h
    split at h
    · rename_i hmade
      cases h
      exact .makes l conversationId b hmade.1 hmade.2.1 hmade.2.2
    · cases h
  case spawnReader l =>
    simp only [connectionScene] at h
    split at h
    · rename_i hmade
      cases b <;> cases h
      · exact .stays _ _ (by simp) (by simp) (by simp [hmade]) (by simp)
      · exact .starts l hmade
    · cases h
  case writeFrame l role frame =>
    cases role <;> simp only [connectionScene] at h
    case streamEnd =>
      split at h
      · rename_i hidle
        cases h
        subst hidle
        exact .stays _ _ (by simp) (by simp) (by simp) (by simp)
      · split at h
        · rename_i hlive
          cases h
          exact .tells l frame b hlive
        · cases h
    all_goals
      cases h
      exact .stays _ _ (by simp) (by simp) (by simp) (by simp)
  case waitNextChunk l =>
    simp only [connectionScene] at h
    split at h <;> cases h
    exact .stays _ _ (by simp) (by simp) (by simp) (by simp)
  case joinReader l =>
    simp only [connectionScene] at h
    split at h <;> cases h
    exact .stays _ _ (by simp) (by simp) (by simp) (by simp)
  all_goals
    cases h
    exact .stays _ _ (by simp) (by simp) (by simp) (by simp)

/-- A connection that does not read a line owes nothing more than before. -/
theorem connectionAfter_owes {s : Nat} (hφ : φ.stage = .fresh → φ.read = 0)
    (hafter : connectionAfter inputs s φ o b = some φ') (ho : ∀ t, o ≠ .readMessageLine t)
    (howes : φ'.OwesAt l) : φ.OwesAt l := by
  by_cases hspends : o.Spends b
  · cases o <;> simp only [connectionAfter, permit_eq_some, reduceCtorEq] at hafter
    case readMessageLine t => exact absurd rfl (ho t)
    case enqueue l' =>
      obtain ⟨-, rfl⟩ := hafter
      cases b <;> cases howes.2
    case consult what =>
      cases what <;> simp only [Op.Spends] at hspends
      subst hspends
      obtain ⟨-, rfl⟩ := hafter
      cases howes.2
    case writeFrame l' role frame =>
      split at hafter
      · rcases hspends with rfl | rfl
        · obtain ⟨-, rfl⟩ := permit_eq_some.mp hafter
          exact absurd howes.2 (wrote_duty φ b)
        · obtain ⟨-, rfl⟩ := permit_eq_some.mp hafter
          exact absurd howes.2 (wrote_duty φ b)
      · cases hafter
    all_goals exact hspends.elim
  · exact (connection_keeps hφ hafter hspends l).owes.mp howes

/-! ### One call -/

/-- The end of a stream is not taken back, unless the handle of an answered request is made. -/
theorem State.StreamEnded.step (h : st.StreamEnded l) (hexec : exec choice st o = some (b, st'))
    (hmakes : ∀ conversationId, o = .ttyInit l conversationId → ¬ st.Answered l) :
    st'.StreamEnded l := by
  have hkeeps := exec_keeps_output hexec
  rcases h with ⟨out, hout, hend⟩ | ⟨⟨out, hout, hanswer⟩, hinited⟩
  · exact .inl ⟨out, hkeeps out hout, hend⟩
  · have hno : ∀ conversationId, o ≠ .ttyInit l conversationId :=
      fun conversationId heq => hmakes conversationId heq ⟨out, hout, hanswer⟩
    exact .inr ⟨⟨out, hkeeps out hout, hanswer⟩, (exec_tty hno hexec).1.trans hinited⟩

/-- A tty handle is made for a line that has no answer yet, by its connection. -/
theorem after_ttyInit {conversationId : Bytes} (hreplies : Replies inputs st phase)
    (hafter : after inputs p (phase p) (.ttyInit l conversationId) b = some φ') :
    p = .connection l.session ∧ (phase (.connection l.session)).OwesAt l ∧ ¬ st.Answered l := by
  cases p with
  | connection s =>
      obtain ⟨⟨rfl, hat, howed, -⟩, -⟩ := permit_eq_some.mp hafter
      refine ⟨rfl, ⟨hat, howed⟩, fun hanswered => ?_⟩
      obtain ⟨out, hout, hof, hrole⟩ := hanswered
      have hmem : out ∈ st.answers l := List.mem_filter.mpr ⟨hout, by simp [hof, hrole]⟩
      have hpos := List.length_pos_of_mem hmem
      have honce := (hreplies.accounted l).once
      have howes : (phase (.connection l.session)).OwesAt l := ⟨hat, howed⟩
      simp only [replies, owed, howes, if_true] at honce
      omega
  | _ => cases hafter

/-- A reader is started by the call of its connection, after its handle has been made. -/
theorem exec_started (h : exec choice st o = some (b, st'))
    (hmakes : ∀ conversationId, o ≠ .ttyInit l conversationId)
    (hstarted : (st'.tty l).readerStarted = true) :
    (st.tty l).readerStarted = true ∨ (o = .spawnReader l ∧ b = true) := by
  by_cases hstages : o.Stages l
  · cases o <;> simp only [Op.Stages] at hstages <;> subst hstages <;> simp only [exec] at h
    case ttyInit conversationId => exact absurd rfl (hmakes conversationId)
    case spawnReader =>
      split at h <;> cases h
      · exact .inr ⟨rfl, rfl⟩
      · exact .inl hstarted
    case finishReader =>
      cases h
      exact .inl (by simpa [State.onTty] using hstarted)
  · exact .inl ((exec_alike hstages h).2.1.symm.trans hstarted)

/-- A step of whoever is no connection. -/
theorem Attended.step_other (h : Attended inputs st phase stage) (hreplies : Replies inputs st phase)
    (hp : ∀ s, p ≠ .connection s) (hexec : exec choice st o = some (b, st'))
    (hafter : after inputs p (phase p) o b = some φ')
    (hscene : sceneAfter inputs p (stage p) o b = some scene')
    (hcond : SendsApart inputs p o b st) :
    Attended inputs st' (Function.update phase p φ') (Function.update stage p scene') := by
  have hphase (s : Nat) : Function.update phase p φ' (.connection s) = phase (.connection s) :=
    Function.update_of_ne (Ne.symm (hp s)) ..
  have hstage (s : Nat) : Function.update stage p scene' (.connection s) = stage (.connection s) :=
    Function.update_of_ne (Ne.symm (hp s)) ..
  have hmakes (l : LineId) (conversationId : Bytes) : o ≠ .ttyInit l conversationId := by
    rintro rfl
    exact hp _ (after_ttyInit hreplies hafter).1
  have hspawns (l : LineId) : o ≠ .spawnReader l := by
    rintro rfl
    cases p with
    | connection s => exact hp s rfl
    | _ => cases hafter
  have hends (l : LineId) (frame : Frame) : o ≠ .writeFrame l .streamEnd frame := by
    rintro rfl
    cases p with
    | connection s => exact hp s rfl
    | worker l₀ =>
        obtain ⟨⟨-, hrole, -⟩, -⟩ := permit_eq_some.mp hafter
        cases hrole
    | _ => cases hafter
  have hinited (l : LineId) := (exec_tty (hmakes l) hexec).1
  have hstarted (l : LineId) := (exec_tty (hmakes l) hexec).2.1
  refine ⟨fun s l hshows => ?_, fun s l hlive => ?_, fun out hout hend => ?_, fun l hl => ?_,
    fun l hl => ?_, fun l hl => ?_, fun l hl => ?_, fun l hsent i hi hopens => ?_⟩
  · rw [hstage] at hshows
    rw [hphase, hinited]
    exact h.shown s l hshows
  · rw [hstage] at hlive
    exact hstarted l (h.live s l hlive)
  · rw [hphase, hstage]
    exact h.told out ((exec_outputs hends hexec).ends out hout hend) hend
  · rw [hphase, hstage]
    exact h.inited l (hinited l ▸ hl)
  · rw [hinited]
    exact h.started l ((exec_started hexec (hmakes l) hl).resolve_right fun hs => hspawns l hs.1)
  · by_cases hreader : p = .reader l
    · subst hreader
      rw [Function.update_self] at hl
      by_cases hidle : stage (.reader l) = .idle
      · -- It starts now, which waits for its handle.
        cases o <;> simp only [sceneAfter, readerScene] at hscene
        case readerStart h' =>
          obtain ⟨rfl, -⟩ := permit_eq_some.mp hafter
          simp only [exec] at hexec
          split at hexec
          · rename_i hready
            exact hstarted _ hready
          · cases hexec
        case finishReader h' =>
          rw [hidle] at hscene
          cases hscene
        all_goals
          cases hscene
          exact absurd hidle hl
      · exact hstarted l (h.reader l hidle)
    · rw [Function.update_of_ne (Ne.symm hreader)] at hl
      exact hstarted l (h.reader l hl)
  · by_cases hreader : p = .reader l
    · subst hreader
      rw [Function.update_self] at hl
      by_cases hfinished : stage (.reader l) = .finished
      · exact (exec_tty (hmakes l) hexec).2.2 (h.finished l hfinished)
      · cases o <;> simp only [sceneAfter, readerScene] at hscene
        case finishReader h' =>
          obtain ⟨rfl, -⟩ := permit_eq_some.mp hafter
          cases hexec
          simp [State.onTty]
        case readerStart h' =>
          split at hscene <;> cases hscene
          cases hl
        all_goals
          cases hscene
          exact absurd hl hfinished
    · rw [Function.update_of_ne (Ne.symm hreader)] at hl
      exact (exec_tty (hmakes l) hexec).2.2 (h.finished l hl)
  · have hkeep (hended : st.StreamEnded ⟨l.session, i⟩) : st'.StreamEnded ⟨l.session, i⟩ :=
      hended.step hexec fun conversationId heq => absurd heq (hmakes _ conversationId)
    by_cases hsends : ∃ l', o = .sendLine l'
    · obtain ⟨l', rfl⟩ := hsends
      simp only [exec] at hexec
      split at hexec <;> cases hexec
      have hsent' : l.line < Function.update st.sent l'.session (l'.line + 1) l.session := hsent
      by_cases hsame : l.session = l'.session
      · -- The line is the one that is sent, or an earlier one.
        rw [hsame, Function.update_self] at hsent'
        refine hkeep ?_
        rw [hsame] at hopens ⊢
        exact hcond i (by omega) hopens
      · rw [Function.update_of_ne hsame] at hsent'
        exact hkeep (h.apart l hsent' i hi hopens)
    · rw [exec_sent (fun l' heq => hsends ⟨l', heq⟩) hexec] at hsent
      exact hkeep (h.apart l hsent i hi hopens)

/-- The ends of streams are written one at a time. -/
theorem exec_ends (h : exec choice st o = some (b, st')) {out : Output} (hout : out ∈ st'.output)
    (hend : out.role = .streamEnd) :
    out ∈ st.output ∨ ∃ frame, o = .writeFrame out.origin .streamEnd frame := by
  by_cases ho : ∃ l frame, o = .writeFrame l .streamEnd frame
  · obtain ⟨l, frame, rfl⟩ := ho
    obtain rfl : (st.writeFrame l .streamEnd frame choice.succeeds).2 = st' :=
      congrArg Prod.snd (Option.some.inj h)
    rcases writeFrame_outputs st l .streamEnd frame choice.succeeds with heq | heq
    · exact .inl (heq ▸ hout)
    · rw [heq, List.mem_append, List.mem_singleton] at hout
      rcases hout with hout | rfl
      · exact .inl hout
      · exact .inr ⟨frame, rfl⟩
  · exact .inl ((exec_outputs (fun l frame heq => ho ⟨l, frame, heq⟩) h).ends out hout hend)

/-- A handle that has been made stays made. -/
theorem exec_inited (h : exec choice st o = some (b, st')) (hinited : (st.tty l).inited = true) :
    (st'.tty l).inited = true := by
  by_cases ho : ∃ conversationId, o = .ttyInit l conversationId
  · obtain ⟨conversationId, rfl⟩ := ho
    cases h
    simp [State.onTty]
  · exact (exec_tty (fun conversationId heq => ho ⟨conversationId, heq⟩) h).1.trans hinited

/-- What a connection owes after a call, it owed before, or it has just read the line. -/
theorem connectionAfter_owes_or {s : Nat} (hφ : φ.stage = .fresh → φ.read = 0)
    (hafter : connectionAfter inputs s φ o b = some φ') (howes : φ'.OwesAt l) :
    (φ.OwesAt l ∧ ∀ t, o = .readMessageLine t → b = false) ∨ φ.read ≤ l.line := by
  by_cases ho : ∃ t, o = .readMessageLine t
  · obtain ⟨t, rfl⟩ := ho
    obtain ⟨-, rfl⟩ := permit_eq_some.mp hafter
    cases b with
    | false => exact .inl ⟨howes, fun _ _ => rfl⟩
    | true =>
        have hline : φ.read + 1 = l.line + 1 := howes.1.2
        exact .inr (by omega)
  · have hnone : ∀ t, o ≠ .readMessageLine t := fun t heq => ho ⟨t, heq⟩
    exact .inl ⟨connectionAfter_owes hφ hafter hnone howes, fun t heq => absurd heq (hnone t)⟩

/-- A connection comes to a further line only by reading it. -/
theorem connectionAfter_read_of {s : Nat} (hafter : connectionAfter inputs s φ o b = some φ') :
    φ.read ≤ φ'.read ∧ ((∀ t, o = .readMessageLine t → b = false) → φ'.read = φ.read) := by
  by_cases ho : ∃ t, o = .readMessageLine t
  · obtain ⟨t, rfl⟩ := ho
    obtain ⟨-, rfl⟩ := permit_eq_some.mp hafter
    cases b with
    | false => exact ⟨le_rfl, fun _ => rfl⟩
    | true => exact ⟨Nat.le_succ _, fun h => by cases h t rfl⟩
  · have heq := (connectionAfter_read hafter).2 fun t heq => ho ⟨t, heq⟩
    exact ⟨heq.ge, fun _ => heq⟩

/-! ### A step of a connection -/

section Connection

variable {s : Nat} (h : Attended inputs st phase stage) (hreplies : Replies inputs st phase)
  (hexec : exec choice st o = some (b, st'))
  (hafter : connectionAfter inputs s (phase (.connection s)) o b = some φ')
  (hscene : connectionScene inputs s (stage (.connection s)) o b = some scene')

include h hreplies hafter hscene in
/-- The handle of a line is made once. -/
theorem Attended.makes {conversationId : Bytes} (ho : o = .ttyInit l conversationId) :
    l.session = s ∧ stage (.connection s) = .idle ∧ (phase (.connection s)).OwesAt l ∧
      (st.tty l).inited = false := by
  subst ho
  have hmakes : after inputs (.connection s) (phase (.connection s)) (.ttyInit l conversationId) b =
      some φ' := hafter
  obtain ⟨heq, howes, -⟩ := after_ttyInit hreplies hmakes
  obtain rfl := Party.connection.inj heq
  have hidle : stage (.connection l.session) = .idle := by
    simp only [connectionScene] at hscene
    split at hscene
    · rename_i hidle
      exact hidle.2.2
    · cases hscene
  exact ⟨rfl, hidle, howes, Bool.eq_false_iff.mpr fun hl => (h.inited l hl).2 howes hidle⟩

include h hexec hafter hscene in
theorem Attended.step_shown (t : Nat)
    (hshows : (Function.update stage (.connection s) scene' (.connection t)).Shows l) :
    l.session = t ∧
      (Function.update phase (.connection s) φ' (.connection t)).read = l.line + 1 ∧
      (st'.tty l).inited = true ∧ inputs.OpensTty l := by
  by_cases ht : t = s
  · subst ht
    rw [Function.update_self] at hshows ⊢
    have hkept (hshows : (stage (.connection t)).Shows l)
        (hread : ∀ u, o = .readMessageLine u → b = false) : l.session = t ∧
          φ'.read = l.line + 1 ∧ (st'.tty l).inited = true ∧ inputs.OpensTty l := by
      obtain ⟨hsession, hline, hinited, hopens⟩ := h.shown t l hshows
      exact ⟨hsession, ((connectionAfter_read_of hafter).2 hread).trans hline,
        exec_inited hexec hinited, hopens⟩
    cases connectionScene_moves hscene with
    | reads u => rcases hshows with heq | heq | heq <;> cases heq
    | makes l' conversationId b hsession hopens hidle =>
        rcases hshows with heq | heq | heq <;> cases heq
        obtain ⟨⟨-, hat, -⟩, rfl⟩ := permit_eq_some.mp hafter
        cases hexec
        exact ⟨hsession, hat.2, by simp [State.onTty], hopens⟩
    | starts l' hmade =>
        rcases hshows with heq | heq | heq <;> cases heq
        exact hkept (.inl hmade) fun u heq => by cases heq
    | tells l' frame b hlive =>
        rcases hshows with heq | heq | heq <;> cases heq
        exact hkept (.inr (.inl hlive)) fun u heq => by cases heq
    | stays o b hread => exact hkept hshows hread
  · have hne : Party.connection t ≠ .connection s := fun heq => ht (Party.connection.inj heq)
    rw [Function.update_of_ne hne] at hshows ⊢
    obtain ⟨hsession, hline, hinited, hopens⟩ := h.shown t l hshows
    exact ⟨hsession, hline, exec_inited hexec hinited, hopens⟩

include h hreplies hexec hafter hscene in
theorem Attended.step_live (t : Nat)
    (hlive : (Function.update stage (.connection s) scene' (.connection t)).Started l) :
    (st'.tty l).readerStarted = true := by
  have hkept (t : Nat) (hlive : (stage (.connection t)).Started l) :
      (st'.tty l).readerStarted = true := by
    have hnone (conversationId : Bytes) : o ≠ .ttyInit l conversationId := by
      intro ho
      obtain ⟨-, -, -, hinited⟩ := h.makes hreplies hafter hscene ho
      cases hinited.symm.trans (h.started l (h.live t l hlive))
    exact (exec_tty hnone hexec).2.1 (h.live t l hlive)
  by_cases ht : t = s
  · subst ht
    rw [Function.update_self] at hlive
    cases connectionScene_moves hscene with
    | reads u => rcases hlive with heq | heq <;> cases heq
    | makes l' conversationId b => rcases hlive with heq | heq <;> cases heq
    | starts l' hmade =>
        rcases hlive with heq | heq <;> cases heq
        simp only [exec] at hexec
        split at hexec <;> cases hexec
        simp [State.onTty]
    | tells l' frame b hshown =>
        rcases hlive with heq | heq <;> cases heq
        exact hkept t (.inl hshown)
    | stays o b => exact hkept t hlive
  · have hne : Party.connection t ≠ .connection s := fun heq => ht (Party.connection.inj heq)
    rw [Function.update_of_ne hne] at hlive
    exact hkept t hlive

include h hreplies hexec hafter hscene in
theorem Attended.step_told {out : Output} (hout : out ∈ st'.output) (hend : out.role = .streamEnd) :
    out.origin.line <
        (Function.update phase (.connection s) φ' (.connection out.origin.session)).read ∧
      ¬ (Function.update phase (.connection s) φ' (.connection out.origin.session)).OwesAt
        out.origin ∧
      ¬ (Function.update stage (.connection s) scene' (.connection out.origin.session)).Serves
        out.origin := by
  rcases exec_ends hexec hout hend with hold | ⟨frame, rfl⟩
  · obtain ⟨hlt, hpaid, hserved⟩ := h.told out hold hend
    by_cases hs : out.origin.session = s
    · subst hs
      rw [Function.update_self, Function.update_self]
      refine ⟨hlt.trans_le (connectionAfter_read_of hafter).1, fun howes => ?_, fun hserves => ?_⟩
      · rcases connectionAfter_owes_or (hreplies.fresh _) hafter howes with ⟨howed, -⟩ | hunread
        · exact hpaid howed
        · omega
      · cases connectionScene_moves hscene with
        | reads u => rcases hserves with heq | heq <;> cases heq
        | makes l' conversationId b =>
            rcases hserves with heq | heq <;> cases heq
            exact hpaid (h.makes hreplies hafter hscene rfl).2.2.1
        | starts l' hmade =>
            rcases hserves with heq | heq <;> cases heq
            exact hserved (.inl hmade)
        | tells l' frame b => rcases hserves with heq | heq <;> cases heq
        | stays o b => exact hserved hserves
    · have hne : Party.connection out.origin.session ≠ .connection s :=
        fun heq => hs (Party.connection.inj heq)
      rw [Function.update_of_ne hne, Function.update_of_ne hne]
      exact ⟨hlt, hpaid, hserved⟩
  · -- The end that is written now.
    simp only [connectionAfter] at hafter
    split at hafter
    · rename_i hs
      subst hs
      obtain ⟨⟨hat, hpaid⟩, rfl⟩ := permit_eq_some.mp hafter
      rw [Function.update_self, Function.update_self]
      refine ⟨?_, fun howes => ?_, fun hserves => ?_⟩
      · have hline := hat.2
        omega
      · cases hpaid.symm.trans howes.2
      · simp only [connectionScene] at hscene
        split at hscene
        · cases hscene
          rcases hserves with heq | heq <;> cases heq
        · split at hscene <;> cases hscene
          rcases hserves with heq | heq <;> cases heq
    · cases hafter

include h hreplies hexec hafter hscene in
theorem Attended.step_inited (hinited : (st'.tty l).inited = true) :
    l.line < (Function.update phase (.connection s) φ' (.connection l.session)).read ∧
      ((Function.update phase (.connection s) φ' (.connection l.session)).OwesAt l →
        Function.update stage (.connection s) scene' (.connection l.session) ≠ .idle) := by
  by_cases ho : ∃ conversationId, o = .ttyInit l conversationId
  · obtain ⟨conversationId, rfl⟩ := ho
    obtain ⟨rfl, hidle, howes, -⟩ := h.makes hreplies hafter hscene rfl
    rw [Function.update_self, Function.update_self]
    refine ⟨?_, fun _ hidle' => ?_⟩
    · have hline := howes.1.2
      have hle := (connectionAfter_read_of hafter).1
      omega
    · simp only [connectionScene] at hscene
      split at hscene <;> cases hscene
      cases hidle'
  · have hnone (conversationId : Bytes) : o ≠ .ttyInit l conversationId :=
      fun heq => ho ⟨conversationId, heq⟩
    obtain ⟨hlt, hserved⟩ := h.inited l ((exec_tty hnone hexec).1.symm.trans hinited)
    by_cases hs : l.session = s
    · subst hs
      rw [Function.update_self, Function.update_self]
      refine ⟨hlt.trans_le (connectionAfter_read_of hafter).1, fun howes hidle => ?_⟩
      rcases connectionAfter_owes_or (hreplies.fresh _) hafter howes with ⟨howed, hread⟩ | hunread
      · cases connectionScene_moves hscene with
        | reads u => cases hread u rfl
        | makes l' conversationId b => cases hidle
        | starts l' hmade => cases hidle
        | tells l' frame b => cases hidle
        | stays o b => exact hserved howed hidle
      · omega
    · have hne : Party.connection l.session ≠ .connection s :=
        fun heq => hs (Party.connection.inj heq)
      rw [Function.update_of_ne hne, Function.update_of_ne hne]
      exact ⟨hlt, hserved⟩

include h hexec hscene in
theorem Attended.step_started (hstarted : (st'.tty l).readerStarted = true) :
    (st'.tty l).inited = true := by
  by_cases ho : ∃ conversationId, o = .ttyInit l conversationId
  · obtain ⟨conversationId, rfl⟩ := ho
    cases hexec
    simp [State.onTty]
  · have hnone (conversationId : Bytes) : o ≠ .ttyInit l conversationId :=
      fun heq => ho ⟨conversationId, heq⟩
    rcases exec_started hexec hnone hstarted with hold | ⟨rfl, rfl⟩
    · exact exec_inited hexec (h.started l hold)
    · refine exec_inited hexec (h.shown s l (.inl ?_)).2.2.1
      simp only [connectionScene] at hscene
      split at hscene
      · assumption
      · cases hscene

include h hreplies hexec hafter hscene in
/-- A step of a connection. -/
theorem Attended.step_connection : Attended inputs st' (Function.update phase (.connection s) φ')
    (Function.update stage (.connection s) scene') := by
  have hstage (l : LineId) : Function.update stage (.connection s) scene' (.reader l) =
      stage (.reader l) := Function.update_of_ne (fun heq => by cases heq) ..
  have hunmade {l : LineId} (hl : stage (.reader l) ≠ .idle) (conversationId : Bytes) :
      o ≠ .ttyInit l conversationId := by
    intro ho
    obtain ⟨-, -, -, hinited⟩ := h.makes hreplies hafter hscene ho
    cases hinited.symm.trans (h.started l (h.reader l hl))
  refine ⟨fun t _ => h.step_shown hexec hafter hscene t,
    fun t _ => h.step_live hreplies hexec hafter hscene t,
    fun _ => h.step_told hreplies hexec hafter hscene,
    fun _ => h.step_inited hreplies hexec hafter hscene,
    fun _ => h.step_started hexec hscene, fun l hl => ?_, fun l hl => ?_,
    fun l hsent i hi hopens => ?_⟩
  · rw [hstage] at hl
    exact (exec_tty (hunmade hl) hexec).2.1 (h.reader l hl)
  · rw [hstage] at hl
    have hidle : stage (.reader l) ≠ .idle := by simp [hl]
    exact (exec_tty (hunmade hidle) hexec).2.2 (h.finished l hl)
  · have hsends (l' : LineId) : o ≠ .sendLine l' := by
      rintro rfl
      cases hafter
    rw [exec_sent hsends hexec] at hsent
    refine (h.apart l hsent i hi hopens).step hexec fun conversationId ho => ?_
    subst ho
    have hmakes : after inputs (.connection s) (phase (.connection s))
        (.ttyInit ⟨l.session, i⟩ conversationId) b = some φ' := hafter
    exact (after_ttyInit hreplies hmakes).2.2

end Connection

/-- A step of the machine. -/
theorem Attended.step (h : Attended inputs st phase stage) (hreplies : Replies inputs st phase)
    (hexec : exec choice st o = some (b, st')) (hafter : after inputs p (phase p) o b = some φ')
    (hscene : sceneAfter inputs p (stage p) o b = some scene')
    (hcond : SendsApart inputs p o b st) :
    Attended inputs st' (Function.update phase p φ') (Function.update stage p scene') := by
  by_cases hp : ∃ s, p = .connection s
  · obtain ⟨s, rfl⟩ := hp
    exact h.step_connection hreplies hexec hafter hscene
  · exact h.step_other hreplies (fun s heq => hp ⟨s, heq⟩) hexec hafter hscene hcond

theorem attended_start (inputs : Inputs) :
    Attended inputs inputs.start.state inputs.start.phase fun _ => .idle := by
  refine ⟨fun s l h => ?_, fun s l h => ?_, fun out hout => ?_, fun l h => ?_, fun l h => ?_,
    fun l h => absurd rfl h, fun l h => ?_, fun l h => ?_⟩
  · rcases h with h | h | h <;> cases h
  · rcases h with h | h <;> cases h
  · cases hout
  · cases h
  · cases h
  · cases h
  · exact absurd h (Nat.not_lt_zero _)

end Steps

/-! ## Runs -/

section Runs

variable {inputs : Inputs} {c : Machine.Config Party Op State Phase} {l : LineId}

/-- In a run in which lines are sent apart, the scripts keep to scenes that attend to the streams. -/
theorem reaches_attended (h : (machine inputs).Reaches (SendsApart inputs) inputs.start c) :
    ∃ stage, (∀ p, (staged inputs).Follows p (stage p) (c.script p) (SceneEnds p)) ∧
      Attended inputs c.state c.phase stage := by
  refine h.tracked (N := staged inputs) (scripts_follow inputs) (scripts_staged inputs)
    (attended_start inputs) ?_
  intro c stage p o choice b st' φ' scene' hreach hattended hexec hafter hscene hcond
  have hreplies : Replies inputs c.state c.phase :=
    reaches_replies (hreach.mono fun _ _ _ _ _ => trivial)
  exact hattended.step hreplies hexec hafter hscene hcond

/-- While a line waits to be read, no stream is served on its connection. -/
theorem Attended.unserved {st : State} {phase : Party → Phase} {stage : Party → Scene}
    (h : Attended inputs st phase stage) (hsent : l.line < st.sent l.session)
    (hunread : (phase (.connection l.session)).read ≤ l.line) (h' : LineId) :
    ¬ (stage (.connection l.session)).Serves h' := by
  intro hserves
  have hshows : (stage (.connection l.session)).Shows h' := hserves.imp_right .inl
  obtain ⟨hsession, hline, hinited, hopens⟩ := h.shown l.session h' hshows
  have heq : (⟨l.session, h'.line⟩ : LineId) = h' := by rw [← hsession]
  have hended : st.StreamEnded ⟨l.session, h'.line⟩ :=
    h.apart l hsent h'.line (by omega) (heq ▸ hopens)
  rw [heq] at hended
  rcases hended with ⟨out, hout, hof, hend⟩ | ⟨-, hunmade⟩
  · have htold := (h.told out hout hend).2.2
    rw [hof, hsession] at htold
    exact htold hserves
  · cases hunmade.symm.trans hinited

/-- The reader of a stream goes on until it has finished. -/
theorem Attended.reader_goesOn {stage : Party → Scene} (h : Attended inputs c.state c.phase stage)
    (hconforms : (machine inputs).Conforms (Ends inputs) c)
    (hstage : ∀ p, (staged inputs).Follows p (stage p) (c.script p) (SceneEnds p))
    (hstarted : (c.state.tty l).readerStarted = true) :
    (c.state.tty l).readerDone = true ∨ GoesOn c (.reader l) := by
  cases hnext : c.next (.reader l) with
  | none =>
      obtain ⟨_, hfinished⟩ := (hstage (.reader l)).ends hnext
      exact .inl (h.finished l hfinished)
  | some o =>
      obtain ⟨φ', hafter⟩ := (hconforms (.reader l)).permits_next hnext true
      refine .inr ⟨o, hnext, .inr fun choice => ?_⟩
      cases o with
      | readerStart h' =>
          obtain ⟨rfl, -⟩ := permit_eq_some.mp hafter
          simp [exec, hstarted]
      | dequeue h' => cases hafter
      | readMessageLine s => cases hafter
      | halt => cases hafter
      | waitNextChunk h' => cases hafter
      | joinReader h' => cases hafter
      | sendLine h' => cases hafter
      | awaitAnswer h' => cases hafter
      | _ => exact exec_isSome id ..

end Runs

/-- A client that opens a tty stream, closes it, and waits for the answer to the close. -/
def openThenClose : Inputs :=
  { Inputs.ofLines fun s =>
      if s = 0 then
        [rpcLine "c-1" 1 "tty.stream.open" none, rpcLine "c-1" 2 "tty.stream.close" none]
      else [] with
    client := fun s thread =>
      if s = 0 ∧ thread = 0 then [.submit 0, .submit 1, .wait 1] else [] }

/-- The pane exits, the client is told, and sends its second line. -/
def closeAfterExit : List (Party × Choice) :=
  steps (.client 0 0) 1 ++ steps (.connection 0) 9 ++ steps (.reader ⟨0, 0⟩) 4 ++
    steps (.connection 0) 2 ++ steps (.client 0 0) 1

/-- The connection waits for a chunk of the first line, the client for the answer to the second, and
neither can go on. -/
def waitsInCircle (c : Machine.Config Party Op State Phase) : Bool :=
  match c.next (.connection 0), c.next (.client 0 0) with
  | some (.waitNextChunk h), some (.awaitAnswer l) =>
    h = ⟨0, 0⟩ ∧ l = ⟨0, 1⟩ ∧ (exec .fine c.state (.waitNextChunk h)).isNone ∧
      (exec .fine c.state (.awaitAnswer l)).isNone
  | _, _ => false

/-- A client that closes a stream before it is over waits for a thread that waits for the pane. -/
theorem circular_wait : ∃ c, (machine openThenClose).Reaches Machine.anyStep openThenClose.start c ∧
    waitsInCircle c = true :=
  Machine.Reaches.exists_of_follow (M := machine openThenClose) Machine.anyStep openThenClose.start
    (steps (.client 0 0) 2 ++ steps (.connection 0) 9) waitsInCircle (by decide +kernel)

end Muxly.Server
