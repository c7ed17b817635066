/-
# Muxly.Server.Scenes -- the tty stream that a connection serves, and the reader of its pane

A second protocol of the threads: how far the stream of the line at hand is, from the making of its
handle to the frame that ends it, and whether the reader of a stream runs or has finished. Only a
line that asks for a tty stream has one, and a connection waits for a chunk or for the reader of the
stream at hand, in that order.
-/
import Muxly.Server.Responses
import Muxly.Sync.Protocols

namespace Muxly.Server

open Muxly.Core Muxly.Daemon Muxly.Sync Script

/-- The line asks for a tty stream. -/
def Inputs.OpensTty (inputs : Inputs) (l : LineId) : Prop :=
  (inputs.request l).any (fun request => specialRequestKind request.requestJson = .ttyStreamOpen)

instance (inputs : Inputs) (l : LineId) : Decidable (inputs.OpensTty l) :=
  inferInstanceAs (Decidable (_ = true))

/-! ## Scenes -/

/-- How far the tty stream of the line at hand is, for a connection, and the stream of its line, for
a reader. -/
inductive Scene where
  | idle
  /-- Its handle has been made. -/
  | made (l : LineId)
  /-- Its reader has been started. -/
  | live (l : LineId)
  /-- Its end has been written, or could not be. -/
  | told (l : LineId)
  /-- Its reader has finished. -/
  | finished
  deriving DecidableEq

/-- The calls of a connection thread. -/
def connectionScene (inputs : Inputs) (s : Nat) (scene : Scene) (o : Op) (b : Bool) : Option Scene :=
  match o with
  | .readMessageLine _ => some (if b then .idle else scene)
  | .ttyInit l _ =>
    if l.session = s ∧ inputs.OpensTty l ∧ scene = .idle then some (.made l) else none
  | .spawnReader l => if scene = .made l then some (if b then .live l else scene) else none
  | .waitNextChunk l => if scene = .live l then some scene else none
  | .writeFrame l .streamEnd _ =>
    if scene = .idle then some .idle else if scene = .live l then some (.told l) else none
  | .joinReader l => if scene = .told l then some scene else none
  | _ => some scene

/-- The calls of the reader of a tty stream. -/
def readerScene (scene : Scene) (l : LineId) (o : Op) : Option Scene :=
  match o with
  | .readerStart _ => if scene = .idle then some (.live l) else none
  | .finishReader _ => if scene = .live l then some .finished else none
  | _ => some scene

/-- The scene of a party after a call. -/
def sceneAfter (inputs : Inputs) (p : Party) (scene : Scene) (o : Op) (b : Bool) : Option Scene :=
  match p with
  | .connection s => connectionScene inputs s scene o b
  | .reader l => readerScene scene l o
  | _ => some scene

/-- The machine of the daemon with the scenes of its streams. -/
def staged (inputs : Inputs) : Machine Party Op Choice State Scene :=
  (machine inputs).under (sceneAfter inputs)

@[simp] theorem staged_after (inputs : Inputs) : (staged inputs).after = sceneAfter inputs := rfl

section Walk

attribute [local simp] sceneAfter connectionScene readerScene Bool.forall_bool

variable {inputs : Inputs} {l : LineId} {request : DispatchRequest} {scene : Scene} {s : Nat}

/-- The script leaves the scene as it is. -/
def Unmoved {α : Type} (scene : Scene) (_ : Option α) (scene' : Scene) : Prop := scene' = scene

theorem scene_refuse (message : String) :
    (staged inputs).Follows (.connection s) scene (refuse l request message) (Unmoved scene) := by
  simp [refuse, Machine.follows_attempt, Unmoved]

theorem scene_castRequestId (response : EnvelopeResponse) :
    (staged inputs).Follows (.connection s) scene (castRequestId response) (Unmoved scene) := by
  unfold castRequestId
  split
  · simp [Machine.follows_perform, Unmoved]
  · rfl

theorem scene_notify (count : Nat) :
    (staged inputs).Follows (.connection s) scene (notify count) (Unmoved scene) := by
  refine Machine.follows_forEach (I := fun scene' => scene' = scene) ?_ (fun _ h => h) rfl
  rintro _ _ _ rfl b
  exact ⟨_, rfl, rfl⟩

theorem scene_writeChunks (response : EnvelopeResponse) (turns : Nat) :
    (staged inputs).Follows (.connection s) (.live l) (writeChunks l response turns)
      fun r scene => r = some () ∧ scene = .live l := by
  induction turns with
  | zero => simp [writeChunks, Machine.follows_perform]
  | succ turns ih =>
      simp [writeChunks, ask, perform, bindResult, onValue, Machine.follows_op, ih]

theorem scene_attachTtyStream (response : EnvelopeResponse) (chunks : Nat) :
    (staged inputs).Follows (.connection s) (.made l) (attachTtyStream l response chunks)
      fun _ _ => True := by
  refine (scene_castRequestId response).bind (fun _ _ h => ?_) fun _ _ => trivial
  obtain rfl := h
  refine Machine.Follows.attempt_bind (g := .made l) (by simp) ?_ (by simp)
  refine Machine.Follows.attempt_bind (g := .live l) (by simp) ?_ (by simp)
  refine Machine.Follows.defers (R := fun _ scene => scene = .told l)
    ((scene_writeChunks response chunks).bind ?_ ?_) ?_
  · rintro _ _ ⟨-, rfl⟩
    simp [Machine.follows_perform]
  · rintro _ ⟨h, -⟩
    cases h
  · rintro _ _ rfl
    simp

theorem scene_serveTtyStream (hopens : inputs.OpensTty l) (response : EnvelopeResponse)
    (chunks : Nat) :
    (staged inputs).Follows (.connection l.session) .idle (serveTtyStream l response chunks)
      fun _ _ => True := by
  refine Machine.Follows.perform_bind (.made l) (by simp [hopens]) ?_
  refine Machine.Follows.errdefers (R := fun _ _ => True) ?_ (fun _ _ h => h) (by simp)
  refine Machine.Follows.perform_bind (.made l) (by simp) ?_
  exact ((scene_attachTtyStream response chunks).defers (Q := fun _ _ => True) (by simp)).defers
    (by simp)

theorem scene_withPendingSlot {body : Script Op Unit}
    (hbody : (staged inputs).Follows (.connection s) scene body fun _ _ => True) :
    (staged inputs).Follows (.connection s) scene (withPendingSlot l request body)
      fun _ _ => True :=
  Machine.Follows.ask_bind fun
    | false => ⟨scene, by simp, (scene_refuse _).mono fun _ _ _ => trivial⟩
    | true => ⟨scene, by simp, hbody.defers (by simp)⟩

theorem scene_handleTtyStreamOpen (hopens : inputs.OpensTty l) (chunks : Nat) :
    (staged inputs).Follows (.connection l.session) .idle (handleTtyStreamOpen l request chunks)
      fun _ _ => True := by
  have hrefuse (message : String) : (staged inputs).Follows (.connection l.session) .idle
      (refuse l request message) fun _ _ => True := (scene_refuse message).mono fun _ _ _ => trivial
  unfold handleTtyStreamOpen
  cases request.responseMode with
  | jsonRpc => exact hrefuse _
  | envelope response =>
      refine scene_withPendingSlot (Machine.Follows.ask_bind fun
        | false => ⟨.idle, by simp, hrefuse _⟩
        | true => ⟨.idle, by simp, Machine.Follows.ask_bind fun
          | false => ⟨.idle, by simp, hrefuse _⟩
          | true => ⟨.idle, by simp, scene_serveTtyStream hopens response chunks⟩⟩)

theorem scene_handleStreamClose {close : Nat → Bytes → Op}
    (hclose : ∀ conversationId b, connectionScene inputs s scene (close l.session conversationId) b =
      some scene) :
    (staged inputs).Follows (.connection s) scene (handleStreamClose l request close)
      fun _ _ => True := by
  unfold handleStreamClose
  cases streamConversationId request.requestJson with
  | none => exact (scene_refuse _).mono fun _ _ _ => trivial
  | some conversationId =>
      refine Machine.Follows.ask_bind fun b => ⟨scene, hclose conversationId b, ?_⟩
      simp [Machine.follows_attempt]

theorem scene_writeCapture (response : EnvelopeResponse) (turns : Nat) :
    (staged inputs).Follows (.connection s) .idle (writeCapture l response turns)
      fun _ _ => True := by
  induction turns with
  | zero => simp [writeCapture, Machine.follows_perform]
  | succ turns ih =>
      simp [writeCapture, ask, perform, bindResult, onValue, Machine.follows_op, ih]

theorem scene_handlePaneCaptureStreamOpen (events chunks : Nat) :
    (staged inputs).Follows (.connection s) .idle
      (handlePaneCaptureStreamOpen l request events chunks) fun _ _ => True := by
  have hrefuse (message : String) : (staged inputs).Follows (.connection s) .idle
      (refuse l request message) fun _ _ => True := (scene_refuse message).mono fun _ _ _ => trivial
  unfold handlePaneCaptureStreamOpen
  cases request.responseMode with
  | jsonRpc => exact hrefuse _
  | envelope response =>
      refine scene_withPendingSlot (Machine.Follows.ask_bind fun
        | false => ⟨.idle, by simp, hrefuse _⟩
        | true => ⟨.idle, by simp, (scene_notify events).bind (fun _ _ h => ?_) fun _ _ => trivial⟩)
      obtain rfl := h
      refine Machine.Follows.ask_bind fun
        | false => ⟨.idle, by simp, hrefuse _⟩
        | true => ⟨.idle, by simp, (scene_castRequestId response).bind (fun _ _ h => ?_)
            fun _ _ => trivial⟩
      obtain rfl := h
      exact Machine.Follows.attempt_bind (g := .idle) (by simp) (scene_writeCapture response chunks)
        (by simp)

theorem scene_handleProjectionStreamOpen :
    (staged inputs).Follows (.connection s) scene (handleProjectionStreamOpen l request)
      fun _ _ => True := by
  unfold handleProjectionStreamOpen
  cases request.responseMode with
  | jsonRpc => exact (scene_refuse _).mono fun _ _ _ => trivial
  | envelope response =>
      refine Machine.Follows.ask_bind fun
        | false => ⟨scene, by simp, (scene_refuse _).mono fun _ _ _ => trivial⟩
        | true => ⟨scene, by simp, Machine.Follows.perform_bind scene (by simp) ?_⟩
      refine Machine.Follows.errdefers (R := fun _ _ => True) ?_ (fun _ _ h => h) (by simp)
      refine Machine.Follows.perform_bind scene (by simp) ?_
      refine (scene_castRequestId response).bind (fun _ _ h => ?_) fun _ _ => trivial
      obtain rfl := h
      simp [Machine.follows_attempt]

theorem scene_writeOrClose {role : Role} (hrole : role ≠ .streamEnd) (frame : Frame) :
    (staged inputs).Follows (.connection s) scene (writeOrClose l role frame)
      (Unmoved scene) := by
  have hkeep (b : Bool) :
      sceneAfter inputs (.connection s) scene (.writeFrame l role frame) b = some scene := by
    cases role <;> first | exact absurd rfl hrole | rfl
  refine Machine.Follows.ask_bind fun
    | false => ⟨scene, hkeep false, ?_⟩
    | true => ⟨scene, hkeep true, rfl⟩
  simp [perform, bindResult, onValue, Machine.follows_op, Unmoved]

theorem scene_writeImmediate (frames : List Frame) :
    (staged inputs).Follows (.connection s) scene (writeImmediate l frames)
      fun _ _ => True := by
  induction frames with
  | nil => exact trivial
  | cons frame rest ih =>
      refine (scene_writeOrClose (by decide) frame).bind (fun more _ h => ?_) fun _ _ => trivial
      obtain rfl := h
      cases more with
      | true => exact ih
      | false => exact trivial

theorem scene_dispatchToLane :
    (staged inputs).Follows (.connection s) scene (dispatchToLane l request) fun _ _ => True := by
  refine Machine.Follows.ask_bind fun
    | false => ⟨scene, by simp, (scene_writeOrClose (by decide) _).mono fun _ _ _ => trivial⟩
    | true => ⟨scene, by simp, ?_⟩
  refine Machine.Follows.attempt_bind (g := scene) (by simp) ?_ (by simp)
  simp [ask, perform, fail, bindResult, onValue, Machine.follows_op]

theorem scene_serveRequest (hrequest : inputs.request l = some request) :
    (staged inputs).Follows (.connection l.session) .idle (serveRequest inputs l request)
      fun _ _ => True := by
  have hgoesOn {m : Script Op Unit}
      (hm : (staged inputs).Follows (.connection l.session) .idle m fun _ _ => True) :
      (staged inputs).Follows (.connection l.session) .idle (m >>= fun _ => return true)
        fun _ _ => True :=
    hm.bind (fun _ _ _ => trivial) fun _ _ => trivial
  unfold serveRequest
  split <;> rename_i hkind
  · exact hgoesOn (scene_handleTtyStreamOpen (by simp [Inputs.OpensTty, hrequest, hkind]) _)
  · exact hgoesOn (scene_handleStreamClose fun _ _ => rfl)
  · exact hgoesOn (scene_handlePaneCaptureStreamOpen _ _)
  · exact hgoesOn (scene_handlePaneCaptureStreamOpen _ _)
  · exact hgoesOn scene_handleProjectionStreamOpen
  · exact hgoesOn (scene_handleStreamClose fun _ _ => rfl)
  · exact scene_dispatchToLane

theorem scene_serveLine {handled : HandleLineResult}
    (hline : (inputs.accepted l.session)[l.line]? = some (some handled)) :
    (staged inputs).Follows (.connection l.session) .idle (serveLine inputs l handled)
      fun _ _ => True := by
  have hend {m : Script Op Bool}
      (hm : (staged inputs).Follows (.connection l.session) .idle m fun _ _ => True) :
      (staged inputs).Follows (.connection l.session) .idle
        (m >>= fun more => return more && !inputs.singleRequestPerConnection) fun _ _ => True :=
    hm.bind (fun _ _ _ => trivial) fun _ _ => trivial
  cases handled with
  | immediate frames => exact hend (scene_writeImmediate frames)
  | dispatch request => exact hend (scene_serveRequest (by simp [Inputs.request, hline]))

theorem scene_readLoop (s : Nat) (rest : List (Option HandleLineResult)) (i : Nat)
    (hrest : (inputs.accepted s).drop i = rest) :
    (staged inputs).Follows (.connection s) scene (readLoop inputs s i rest) fun _ _ => True := by
  induction rest generalizing i scene with
  | nil =>
      refine Machine.Follows.attempt_bind (g := scene) (by simp) ?_ (by simp)
      simp [Machine.follows_perform]
  | cons handled rest ih =>
      have hline : (inputs.accepted s)[i]? = some handled := by
        rw [← List.head?_drop, hrest, List.head?_cons]
      have hdrop : (inputs.accepted s).drop (i + 1) = rest := by
        rw [← List.tail_drop, hrest, List.tail_cons]
      cases handled with
      | none => exact Machine.Follows.attempt_bind (g := .idle) (by simp) (ih (i + 1) hdrop) (by simp)
      | some handled =>
          refine Machine.Follows.attempt_bind (g := .idle) (by simp) ?_ (by simp)
          refine (scene_serveLine (l := ⟨s, i⟩) hline).bind (fun more _ _ => ?_) fun _ _ => trivial
          cases more with
          | true => exact ih (i + 1) hdrop
          | false => exact trivial

theorem scene_ttyStreamReaderLoop (paneOutput : List Nat) :
    (staged inputs).Follows (.reader l) scene (ttyStreamReaderLoop l paneOutput)
      (Unmoved scene) := by
  induction paneOutput with
  | nil => simp [ttyStreamReaderLoop, ask, bindResult, onValue, Machine.follows_op, Unmoved]
  | cons length rest ih =>
      refine Machine.Follows.ask_bind fun stopped => ⟨scene, by simp, ?_⟩
      cases stopped with
      | true => rfl
      | false =>
          refine Machine.Follows.ask_bind fun produced => ⟨scene, by simp, ?_⟩
          cases produced with
          | false => rfl
          | true => exact Machine.Follows.perform_bind scene (by simp) ih

/-- A reader that has ended has finished. -/
def SceneEnds (p : Party) (_ : Option Unit) (scene : Scene) : Prop :=
  match p with
  | .reader _ => scene = .finished
  | _ => True

theorem scene_ttyStreamReaderMain (paneOutput : List Nat) :
    (staged inputs).Follows (.reader l) .idle (ttyStreamReaderMain l paneOutput)
      (SceneEnds (.reader l)) := by
  refine Machine.Follows.perform_bind (.live l) (by simp) ?_
  refine Machine.Follows.defers (R := fun _ scene => scene = .live l)
    ((scene_ttyStreamReaderLoop paneOutput).bind ?_ ?_) ?_
  · intro ended _ h
    obtain rfl := h
    cases ended with
    | true => rfl
    | false => simp [Machine.follows_perform]
  · exact fun _ h => h
  · rintro _ _ rfl
    simp [SceneEnds]

/-- Whoever is neither a connection nor a reader has no scene. -/
theorem scene_other {p : Party} (hafter : ∀ scene o b, sceneAfter inputs p scene o b = some scene)
    (m : Script Op Unit) : (staged inputs).Follows p scene m fun _ _ => True := by
  induction m with
  | done r => exact trivial
  | op o rest ih => exact fun b => ⟨scene, hafter scene o b, ih b⟩

/-- The scripts of the daemon and of its clients keep to their scenes. -/
theorem scripts_staged (inputs : Inputs) (p : Party) :
    (staged inputs).Follows p .idle (scripts inputs p) (SceneEnds p) := by
  cases p with
  | connection s =>
      refine Machine.Follows.perform_bind .idle (by simp) ?_
      exact ((scene_readLoop s _ 0 rfl).defers (Q := fun _ _ => True) (by simp)).defers
        (by simp [SceneEnds])
  | worker l => exact scene_other (fun _ _ _ => rfl) _
  | reader l => exact scene_ttyStreamReaderMain _
  | client s thread => exact scene_other (fun _ _ _ => rfl) _
  | maintenance => exact scene_other (fun _ _ _ => rfl) _

end Walk

end Muxly.Server
