/-
# Muxly.Server.Lifetime -- handles in the registries, and their `deinit`

A handle should be in memory as long as a registry lists it, and be deinitialised once. For a
projection handle the number of its `deinit` calls and of its places in the registry add up to one
from its registration on, whichever way it leaves (`Disposes`).

Two paths break this. The request of a tty stream defers `handle.deinit()` after `unregister`, so
that on every exit the handle is destroyed first and leaves the registry afterwards. The request of
a projection stream whose acknowledgement cannot be written deinitialises a handle that stays in the
registry. `stream_handles` shows that the runs which take neither keep every registered handle alive.
-/
import Muxly.Server.Conduct
import Muxly.Server.Registry

namespace Muxly.Server

open Muxly.Core Muxly.Daemon Muxly.Sync

/-! ## The runs considered -/

/-- The request of a tty stream ends. -/
def Op.isTtyDeinit : Op → Bool
  | .ttyDeinit _ => true
  | _ => false

/-- No request of a tty stream ends, and the acknowledgement of a projection stream is written. -/
def KeepsHandles (_ : Party) (o : Op) (b : Bool) (_ : State) : Prop :=
  o.isTtyDeinit = false ∧ (o.isProjectionAck = true → b = true)

instance (p : Party) (o : Op) (b : Bool) (st : State) : Decidable (KeepsHandles p o b st) :=
  inferInstanceAs (Decidable (_ ∧ _))

/-! ## What calls do to handles -/

/-- A projection handle is deinitialised exactly as often as it leaves the registry. -/
structure Disposes (st st' : State) : Prop where
  balance : ∀ h, (st'.projection h).deinits + st'.projectionStreams.count h =
    (st.projection h).deinits + st.projectionStreams.count h
  inited : ∀ h, (st'.projection h).inited = (st.projection h).inited

theorem Disposes.of_eq {st st' : State} (hp : st'.projection = st.projection)
    (hs : st'.projectionStreams = st.projectionStreams) : Disposes st st' :=
  ⟨fun h => by rw [hp, hs], fun h => by rw [hp]⟩

theorem Disposes.trans {st st' st'' : State} (h : Disposes st st') (h' : Disposes st' st'') :
    Disposes st st'' :=
  ⟨fun l => (h'.balance l).trans (h.balance l), fun l => (h'.inited l).trans (h.inited l)⟩

@[simp] theorem writeFrame_projection (st : State) (origin : LineId) (role : Role) (frame : Frame)
    (succeeds : Bool) : (st.writeFrame origin role frame succeeds).2.projection = st.projection := by
  unfold State.writeFrame
  split
  · rfl
  · split <;> rfl

theorem Exits.disposes {st st' : State} (h : Exits st st') : Disposes st st' := by
  induction h with
  | refl => exact .of_eq rfl rfl
  | write role frame succeeds _ _ ih =>
      exact ih.trans (.of_eq (writeFrame_projection ..) (writeFrame_projectionStreams ..))
  | @drop st' before rest h _ hsplit ih =>
      refine ih.trans ⟨fun l => ?_, fun l => ?_⟩
      · show (Function.update st'.projection h _ l).deinits + (before ++ rest).count l = _
        rw [hsplit]
        by_cases hl : l = h
        · subst hl
          simp only [Function.update_self, List.count_append, List.count_cons_self]
          omega
        · rw [Function.update_of_ne hl]
          simp [List.count_append, List.count_cons_of_ne (Ne.symm hl)]
      · show (Function.update st'.projection h _ l).inited = _
        by_cases hl : l = h
        · subst hl
          simp
        · rw [Function.update_of_ne hl]

/-- A call that creates, registers or deinitialises a projection handle of its own request. -/
def Op.OwnsProjection : Op → Prop
  | .projectionInit .. | .projectionRegister _ | .projectionDeinit _ => True
  | _ => False

theorem exec_disposes {st st' : State} {o : Op} {choice : Choice} {b : Bool}
    (ho : ¬o.OwnsProjection) (h : exec choice st o = some (b, st')) : Disposes st st' := by
  cases o <;> simp only [Op.OwnsProjection, not_true_eq_false] at ho <;> simp only [exec] at h
  case writeFrame origin role frame =>
    obtain rfl : (st.writeFrame origin role frame choice.succeeds).2 = st' :=
      congrArg Prod.snd (Option.some.inj h)
    exact .of_eq (writeFrame_projection ..) (writeFrame_projectionStreams ..)
  case projectionUnregister s conversationId =>
    obtain rfl : (st.projectionUnregister conversationId).2 = st' :=
      congrArg Prod.snd (Option.some.inj h)
    exact (Exits.refl.projectionUnregister conversationId).disposes
  case closeSession s =>
    cases h
    exact (exits_closeSession st s).disposes
  case broadcast =>
    cases h
    exact (exits_broadcast st choice).disposes
  case ttyRegistryRequestClose s conversationId =>
    simp only [State.ttyRegistryRequestClose] at h
    split at h <;> cases h <;> exact .of_eq rfl rfl
  all_goals
    repeat' split at h
    all_goals cases h <;> exact .of_eq rfl rfl

/-- A call that leaves what the tty registry lists initialised and undestroyed. -/
structure KeepsTty (st st' : State) : Prop where
  streams : ∀ h ∈ st'.ttyStreams, h ∈ st.ttyStreams
  inited : ∀ h, (st'.tty h).inited = (st.tty h).inited
  deinits : ∀ h, (st'.tty h).deinits = (st.tty h).deinits

theorem KeepsTty.of_eq {st st' : State} (ht : st'.tty = st.tty)
    (hs : st'.ttyStreams = st.ttyStreams) : KeepsTty st st' :=
  ⟨fun h hh => hs ▸ hh, fun h => by rw [ht], fun h => by rw [ht]⟩

theorem KeepsTty.onTty (st : State) (h : LineId) {f : TtyStreamHandle → TtyStreamHandle}
    (hf : ∀ handle, (f handle).inited = handle.inited ∧ (f handle).deinits = handle.deinits) :
    KeepsTty st (st.onTty h f) where
  streams _ hl := hl
  inited l := by
    by_cases hl : l = h
    · subst hl
      simp [State.onTty, (hf _).1]
    · simp [State.onTty, hl]
  deinits l := by
    by_cases hl : l = h
    · subst hl
      simp [State.onTty, (hf _).2]
    · simp [State.onTty, hl]

theorem KeepsTty.trans {st st' st'' : State} (h : KeepsTty st st') (h' : KeepsTty st' st'') :
    KeepsTty st st'' :=
  ⟨fun l hl => h.streams l (h'.streams l hl), fun l => (h'.inited l).trans (h.inited l),
    fun l => (h'.deinits l).trans (h.deinits l)⟩

theorem writeFrame_tty (st : State) (origin : LineId) (role : Role) (frame : Frame)
    (succeeds : Bool) : (st.writeFrame origin role frame succeeds).2.tty = st.tty ∧
      (st.writeFrame origin role frame succeeds).2.ttyStreams = st.ttyStreams := by
  unfold State.writeFrame
  split
  · exact ⟨rfl, rfl⟩
  · split <;> exact ⟨rfl, rfl⟩

theorem Exits.tty {st st' : State} (h : Exits st st') :
    st'.tty = st.tty ∧ st'.ttyStreams = st.ttyStreams := by
  induction h with
  | refl => exact ⟨rfl, rfl⟩
  | write role frame succeeds _ _ ih =>
      obtain ⟨ht, hs⟩ := writeFrame_tty _ _ role frame succeeds
      exact ⟨ht.trans ih.1, hs.trans ih.2⟩
  | drop _ _ ih => exact ih

theorem enqueueOwnedChunk_keeps (handle : TtyStreamHandle) (length : Nat) :
    (handle.enqueueOwnedChunk length).inited = handle.inited ∧
      (handle.enqueueOwnedChunk length).deinits = handle.deinits := by
  unfold TtyStreamHandle.enqueueOwnedChunk
  split <;> exact ⟨rfl, rfl⟩

/-- A call that creates, registers or deinitialises a tty handle of its own request. -/
def Op.OwnsTty : Op → Prop
  | .ttyInit .. | .ttyRegister _ | .ttyDeinit _ => True
  | _ => False

theorem exec_keepsTty {st st' : State} {o : Op} {choice : Choice} {b : Bool}
    (ho : ¬o.OwnsTty) (h : exec choice st o = some (b, st')) : KeepsTty st st' := by
  have hexits {st'' : State} (he : Exits st st'') : KeepsTty st st'' := .of_eq he.tty.1 he.tty.2
  cases o <;> simp only [Op.OwnsTty, not_true_eq_false] at ho <;> simp only [exec] at h
  case writeFrame origin role frame =>
    obtain rfl : (st.writeFrame origin role frame choice.succeeds).2 = st' :=
      congrArg Prod.snd (Option.some.inj h)
    exact .of_eq (writeFrame_tty ..).1 (writeFrame_tty ..).2
  case projectionUnregister s conversationId =>
    obtain rfl : (st.projectionUnregister conversationId).2 = st' :=
      congrArg Prod.snd (Option.some.inj h)
    exact hexits (.projectionUnregister .refl conversationId)
  case closeSession s =>
    cases h
    exact hexits (exits_closeSession st s)
  case broadcast =>
    cases h
    exact hexits (exits_broadcast st choice)
  case ttyUnregister l =>
    cases h
    exact ⟨fun h hh => List.mem_of_mem_eraseP hh, fun _ => rfl, fun _ => rfl⟩
  case ttyRequestClose l =>
    cases h
    exact .onTty st l fun _ => ⟨rfl, rfl⟩
  case ttyRegistryRequestClose s conversationId =>
    simp only [State.ttyRegistryRequestClose] at h
    split at h <;> cases h
    · exact .onTty st _ fun _ => ⟨rfl, rfl⟩
    · exact .of_eq rfl rfl
  case waitNextChunk l =>
    split at h
    · cases h
      exact .onTty st l fun _ => ⟨rfl, rfl⟩
    · split at h <;> cases h
      exact .of_eq rfl rfl
  case spawnReader l =>
    split at h <;> cases h
    · exact .onTty st l fun _ => ⟨rfl, rfl⟩
    · exact .of_eq rfl rfl
  case enqueueChunk l length =>
    cases h
    exact .onTty st l fun _ => enqueueOwnedChunk_keeps _ _
  case finishReader l =>
    cases h
    exact .onTty st l fun _ => ⟨rfl, rfl⟩
  all_goals
    repeat' split at h
    all_goals cases h <;> exact .of_eq rfl rfl

/-! ## The invariant -/

/-- The request at hand of the connection has initialised the projection handle and not yet
registered it. -/
def Private (phase : Party → Phase) (h : LineId) : Prop :=
  (phase (.connection h.session)).hand = .projectionPrivate ∧
    (phase (.connection h.session)).read = h.line + 1

instance (phase : Party → Phase) (h : LineId) : Decidable (Private phase h) :=
  inferInstanceAs (Decidable (_ ∧ _))

/-- The connection has not yet come to the creation of a handle for the line. -/
def Unborn (phase : Party → Phase) (h : LineId) : Prop :=
  (phase (.connection h.session)).read ≤ h.line ∨
    ((phase (.connection h.session)).read = h.line + 1 ∧
      (phase (.connection h.session)).hand = .empty)

/-- What the registries list is alive. -/
structure Lifetimes (st : State) (phase : Party → Phase) : Prop where
  tty : ∀ h, (st.tty h).deinits = 0
  ttyInited : ∀ h ∈ st.ttyStreams, (st.tty h).inited = true
  ttyPrivate : ∀ h : LineId, (phase (.connection h.session)).hand = .ttyPrivate →
    (phase (.connection h.session)).read = h.line + 1 → (st.tty h).inited = true
  projection : ∀ h, (st.projection h).deinits + st.projectionStreams.count h =
    if (st.projection h).inited = true ∧ ¬Private phase h then 1 else 0
  born : ∀ h, Private phase h → (st.projection h).inited = true
  unborn : ∀ h, Unborn phase h → (st.projection h).inited = false
  refused : ∀ s, (phase (.connection s)).hand ≠ .projectionRefused

section Steps

variable {inputs : Inputs} {st st' : State} {phase phase' : Party → Phase} {p : Party} {o : Op}
  {choice : Choice} {b : Bool} {φ φ' : Phase}

/-- A step that creates, registers and deinitialises no handle of its own request. -/
theorem Lifetimes.keep (h : Lifetimes st phase) (hd : Disposes st st') (ht : KeepsTty st st')
    (hprivate : ∀ l, Private phase' l ↔ Private phase l)
    (hunborn : ∀ l, Unborn phase' l → Unborn phase l)
    (httyPrivate : ∀ l : LineId, (phase' (.connection l.session)).hand = .ttyPrivate →
      (phase' (.connection l.session)).read = l.line + 1 →
      (phase (.connection l.session)).hand = .ttyPrivate ∧
        (phase (.connection l.session)).read = l.line + 1)
    (hrefused : ∀ s, (phase' (.connection s)).hand ≠ .projectionRefused) : Lifetimes st' phase' where
  tty l := by rw [ht.deinits, h.tty]
  ttyInited l hl := by rw [ht.inited, h.ttyInited l (ht.streams l hl)]
  ttyPrivate l hhand hread := by
    obtain ⟨hhand, hread⟩ := httyPrivate l hhand hread
    rw [ht.inited, h.ttyPrivate l hhand hread]
  projection l := by
    rw [hd.balance, h.projection, hd.inited]
    simp only [hprivate]
  born l hl := by rw [hd.inited, h.born l ((hprivate l).mp hl)]
  unborn l hl := by rw [hd.inited, h.unborn l (hunborn l hl)]
  refused := hrefused

/-- What such a step of a connection leaves of its phase. -/
theorem after_keeps_hand {s : Nat} (h : connectionAfter inputs s φ o b = some φ')
    (ho : ¬o.OwnsProjection) (ho' : ¬o.OwnsTty) (hack : o.isProjectionAck = true → b = true)
    (hrefused : φ.hand ≠ .projectionRefused) :
    (∀ i, φ'.hand = .projectionPrivate ∧ φ'.read = i ↔ φ.hand = .projectionPrivate ∧ φ.read = i) ∧
      (∀ i, φ'.read ≤ i ∨ φ'.read = i + 1 ∧ φ'.hand = .empty →
        φ.read ≤ i ∨ φ.read = i + 1 ∧ φ.hand = .empty) ∧
      (φ'.hand = .ttyPrivate → φ.hand = .ttyPrivate ∧ φ'.read = φ.read) ∧
      φ'.hand ≠ .projectionRefused := by
  cases o <;> simp only [connectionAfter, permit_eq_some, reduceCtorEq] at h <;>
    simp only [Op.OwnsProjection, Op.OwnsTty, not_true_eq_false] at ho ho'
  case writeFrame l role frame =>
    split at h
    · cases role <;> simp only [connectionWrites, permit_eq_some] at h <;>
        obtain ⟨hpermit, rfl⟩ := h
      case projectionAck =>
        obtain rfl := hack rfl
        simp_all [Phase.At, Phase.wrote]
      all_goals simp_all [Phase.At, Phase.wrote]
    · cases h
  case release t =>
    split at h
    · obtain ⟨-, rfl⟩ := permit_eq_some.mp h
      simp [hrefused]
    · obtain ⟨-, rfl⟩ := permit_eq_some.mp h
      simp [hrefused]
  case readMessageLine t =>
    obtain ⟨⟨-, hidle⟩, rfl⟩ := h
    cases b
    · simp [hrefused]
    · have hhand : φ.hand ≠ .projectionPrivate := by
        obtain h | h | h | h := hidle.hand <;> simp [h]
      simp only [if_true, hhand, false_and, reduceCtorEq, false_implies, ne_eq,
        not_false_eq_true, and_self, and_true, implies_true, true_and]
      intro i
      omega
  case enqueue l =>
    obtain ⟨-, rfl⟩ := h
    cases b <;> simp [hrefused]
  all_goals
    obtain ⟨hpermit, rfl⟩ := h
    simp_all [Phase.At]

/-- Only a connection creates, registers and deinitialises handles of its own. -/
theorem owner_eq (h : after inputs p φ o b = some φ') (ho : o.OwnsProjection ∨ o.OwnsTty) :
    ∃ s, p = .connection s ∧ connectionAfter inputs s φ o b = some φ' := by
  cases p with
  | connection s => exact ⟨s, rfl, h⟩
  | worker l => cases o <;> simp_all [after, workerAfter, Op.OwnsProjection, Op.OwnsTty]
  | reader l => cases o <;> simp_all [after, readerAfter, Op.OwnsProjection, Op.OwnsTty]
  | client s thread => cases o <;> simp_all [after, clientAfter, Op.OwnsProjection, Op.OwnsTty]
  | maintenance => cases o <;> simp_all [after, Op.OwnsProjection, Op.OwnsTty]

theorem Lifetimes.step_keep (h : Lifetimes st phase) (hexec : exec choice st o = some (b, st'))
    (hafter : after inputs p (phase p) o b = some φ') (hcond : KeepsHandles p o b st)
    (ho : ¬o.OwnsProjection) (ho' : ¬o.OwnsTty) :
    Lifetimes st' (Function.update phase p φ') := by
  have hd := exec_disposes ho hexec
  have ht := exec_keepsTty ho' hexec
  by_cases hp : ∃ s, p = .connection s
  · obtain ⟨s, rfl⟩ := hp
    obtain ⟨hprivate, hunborn, htty, hrefused⟩ :=
      after_keeps_hand hafter ho ho' hcond.2 (h.refused s)
    refine h.keep hd ht ?_ ?_ ?_ ?_
    · intro l
      simp only [Private, update_connection]
      split
      · rename_i hl
        rw [hl]
        exact hprivate (l.line + 1)
      · rfl
    · intro l
      simp only [Unborn, update_connection]
      split
      · rename_i hl
        rw [hl]
        exact hunborn l.line
      · exact id
    · intro l
      simp only [update_connection]
      split
      · rename_i hl
        rw [hl]
        intro hhand hread
        obtain ⟨hhand, heq⟩ := htty hhand
        exact ⟨hhand, heq ▸ hread⟩
      · exact fun h₁ h₂ => ⟨h₁, h₂⟩
    · intro t
      rw [update_connection]
      split
      · exact hrefused
      · exact h.refused t
  · have hphase (t : Nat) : Function.update phase p φ' (.connection t) = phase (.connection t) :=
      Function.update_of_ne (fun heq => hp ⟨t, heq.symm⟩) ..
    refine h.keep hd ht ?_ ?_ ?_ ?_
    · simp only [Private, hphase, implies_true]
    · simp only [Unborn, hphase, imp_self, implies_true]
    · intro l
      rw [hphase]
      exact fun h₁ h₂ => ⟨h₁, h₂⟩
    · intro t
      rw [hphase]
      exact h.refused t

/-- The line at hand, by the session and the count of lines read. -/
theorem eq_of_at {s : Nat} {l h : LineId} (hl : l.session = s ∧ φ.At l) (hs : h.session = s)
    (hread : φ.read = h.line + 1) : h = l := by
  rcases l with ⟨t, i⟩
  rcases h with ⟨u, j⟩
  obtain ⟨rfl, -, hi⟩ := hl
  obtain rfl : u = t := hs
  have : φ.read = i + 1 := hi
  obtain rfl : j = i := by
    simp only at hread
    omega
  rfl

/-- A connection whose handle at hand has moved on. -/
def withHand (phase : Party → Phase) (s : Nat) (hand : Hand) : Party → Phase :=
  Function.update phase (.connection s) { phase (.connection s) with hand }

section WithHand

variable {s : Nat} {l : LineId} {hand : Hand}

theorem withHand_connection (phase : Party → Phase) (s t : Nat) (hand : Hand) :
    withHand phase s hand (.connection t) =
      if t = s then { phase (.connection s) with hand } else phase (.connection t) :=
  update_connection phase _

theorem unborn_withHand (hu : Unborn (withHand phase s hand) l) (hhand : hand ≠ .empty) :
    Unborn phase l := by
  simp only [Unborn, withHand_connection] at hu
  split at hu
  · rename_i hs
    rw [← hs] at hu
    exact .inl (hu.resolve_right fun hc => hhand hc.2)
  · exact hu

theorem private_withHand (hhand : hand ≠ .projectionPrivate)
    (hold : (phase (.connection s)).hand ≠ .projectionPrivate) (l : LineId) :
    Private (withHand phase s hand) l ↔ Private phase l := by
  simp only [Private, withHand_connection]
  split
  · rename_i hs
    rw [hs]
    exact ⟨fun h => absurd h.1 hhand, fun h => absurd h.1 hold⟩
  · rfl

theorem ttyPrivate_withHand
    (h : (withHand phase s hand (.connection l.session)).hand = .ttyPrivate)
    (hread : (withHand phase s hand (.connection l.session)).read = l.line + 1)
    (hhand : hand ≠ .ttyPrivate) :
    (phase (.connection l.session)).hand = .ttyPrivate ∧
      (phase (.connection l.session)).read = l.line + 1 := by
  rw [withHand_connection] at h hread
  split at h
  · exact absurd h hhand
  · rename_i hs
    rw [if_neg hs] at hread
    exact ⟨h, hread⟩

theorem refused_withHand (h : ∀ t, (phase (.connection t)).hand ≠ .projectionRefused)
    (hhand : hand ≠ .projectionRefused) (t : Nat) :
    (withHand phase s hand (.connection t)).hand ≠ .projectionRefused := by
  rw [withHand_connection]
  split
  · exact hhand
  · exact h t

/-- The request of a tty stream creates its handle. -/
theorem Lifetimes.ttyInit (h : Lifetimes st phase) (conversationId : Bytes)
    (hl : l.session = s ∧ (phase (.connection s)).At l)
    (hempty : (phase (.connection s)).hand = .empty) :
    Lifetimes (st.onTty l fun _ => { TtyStreamHandle.absent with inited := true, conversationId })
      (withHand phase s .ttyPrivate) := by
  have htty (h : LineId) : ((st.onTty l fun _ =>
      { TtyStreamHandle.absent with inited := true, conversationId }).tty h) =
      if h = l then { TtyStreamHandle.absent with inited := true, conversationId }
      else st.tty h := by
    by_cases hh : h = l
    · subst hh
      simp [State.onTty]
    · simp [State.onTty, hh]
  have hprivate := @private_withHand phase s .ttyPrivate nofun
    (by rw [hempty]; nofun)
  constructor
  case tty =>
    intro h'
    rw [htty]
    split
    · rfl
    · exact h.tty h'
  case ttyInited =>
    intro h' hmem
    rw [htty]
    split
    · rfl
    · exact h.ttyInited h' hmem
  case ttyPrivate =>
    intro h' hhand hread
    rw [htty]
    split
    · rfl
    · rename_i hne
      rw [withHand_connection] at hhand hread
      split at hhand
      · rename_i hs
        rw [if_pos hs] at hread
        exact absurd (eq_of_at hl hs hread) hne
      · rename_i hs
        rw [if_neg hs] at hread
        exact h.ttyPrivate h' hhand hread
  case projection =>
    intro h'
    simp only [hprivate]
    exact h.projection h'
  case born => exact fun h' hp => h.born h' ((hprivate h').mp hp)
  case unborn => exact fun h' hu => h.unborn h' (unborn_withHand hu nofun)
  case refused => exact refused_withHand h.refused nofun

/-- It registers the handle. -/
theorem Lifetimes.ttyRegister (h : Lifetimes st phase)
    (hl : l.session = s ∧ (phase (.connection s)).At l)
    (hhand : (phase (.connection s)).hand = .ttyPrivate) :
    Lifetimes { st with ttyStreams := st.ttyStreams ++ [l] } (withHand phase s .ttyRegistered) := by
  have hprivate := @private_withHand phase s .ttyRegistered nofun
    (by rw [hhand]; nofun)
  constructor
  case tty => exact h.tty
  case ttyInited =>
    intro h' hmem
    obtain hmem | hmem := List.mem_append.mp hmem
    · exact h.ttyInited h' hmem
    · obtain rfl := List.mem_singleton.mp hmem
      exact h.ttyPrivate h' (by rw [hl.1, hhand]) (by rw [hl.1]; exact hl.2.2)
  case ttyPrivate =>
    intro h' hh hread
    obtain ⟨hh, hread⟩ := ttyPrivate_withHand hh hread nofun
    exact h.ttyPrivate h' hh hread
  case projection =>
    intro h'
    simp only [hprivate]
    exact h.projection h'
  case born => exact fun h' hp => h.born h' ((hprivate h').mp hp)
  case unborn => exact fun h' hu => h.unborn h' (unborn_withHand hu nofun)
  case refused => exact refused_withHand h.refused nofun

/-- The private handle of a connection is the one of the line at hand. -/
theorem private_iff (hl : l.session = s ∧ (phase (.connection s)).At l)
    (hhand : (phase (.connection s)).hand = .projectionPrivate) {h : LineId} (hs : h.session = s) :
    Private phase h ↔ h = l := by
  constructor
  · intro hp
    exact eq_of_at hl hs (by rw [← hs]; exact hp.2)
  · rintro rfl
    exact ⟨by rw [hs, hhand], by rw [hs]; exact hl.2.2⟩

/-- The request of a projection stream creates its handle. -/
theorem Lifetimes.projectionInit (h : Lifetimes st phase) (conversationId : Bytes)
    (target : Option RequestTarget) (hl : l.session = s ∧ (phase (.connection s)).At l)
    (hempty : (phase (.connection s)).hand = .empty) {st' : State}
    (hst : st' = (st.onSession l.session (·.retain)).onProjection l fun _ =>
      { inited := true, conversationId, target, deinits := 0 }) :
    Lifetimes st' (withHand phase s .projectionPrivate) := by
  have hprojection (h : LineId) : st'.projection h =
      if h = l then { inited := true, conversationId, target, deinits := 0 }
      else st.projection h := by
    rw [hst]
    by_cases hh : h = l
    · subst hh
      simp [State.onProjection]
    · simp only [State.onProjection, if_neg hh]
      exact Function.update_of_ne hh ..
  have hstreams : st'.projectionStreams = st.projectionStreams := by rw [hst]; rfl
  have hat : l.session = s ∧ (withHand phase s .projectionPrivate (.connection s)).At l := by
    refine ⟨hl.1, ?_⟩
    rw [withHand_connection, if_pos rfl]
    exact hl.2
  have hnew : (withHand phase s .projectionPrivate (.connection s)).hand = .projectionPrivate := by
    rw [withHand_connection, if_pos rfl]
  have hold (h' : LineId) : Private phase h' → h'.session ≠ s := by
    rintro ⟨hp, -⟩ hs
    rw [hs, hempty] at hp
    cases hp
  have hfresh : (st.projection l).deinits + st.projectionStreams.count l = 0 := by
    have hunborn := h.unborn l (.inr ⟨by rw [hl.1]; exact hl.2.2, by rw [hl.1, hempty]⟩)
    rw [h.projection, if_neg (by simp [hunborn])]
  constructor
  case tty => rw [hst]; exact h.tty
  case ttyInited => rw [hst]; exact h.ttyInited
  case ttyPrivate =>
    rw [hst]
    intro h' hh hread
    obtain ⟨hh, hread⟩ := ttyPrivate_withHand hh hread nofun
    exact h.ttyPrivate h' hh hread
  case projection =>
    intro h'
    rw [hprojection, hstreams]
    by_cases hs : h'.session = s
    · simp only [private_iff hat hnew hs]
      by_cases hh : h' = l
      · subst hh
        simp only [if_true, not_true_eq_false, and_false, if_false]
        omega
      · have := h.projection h'
        rw [if_neg hh]
        simpa [hh, show ¬Private phase h' from fun hp => hold h' hp hs] using this
    · have hh : h' ≠ l := fun heq => hs (heq ▸ hl.1)
      have hsame : Private (withHand phase s .projectionPrivate) h' ↔ Private phase h' := by
        simp only [Private, withHand_connection, if_neg hs]
      simp only [hsame, if_neg hh]
      exact h.projection h'
  case born =>
    intro h' hp
    rw [hprojection]
    split
    · rfl
    · rename_i hh
      by_cases hs : h'.session = s
      · exact absurd ((private_iff hat hnew hs).mp hp) hh
      · refine h.born h' ?_
        simpa only [Private, withHand_connection, if_neg hs] using hp
  case unborn =>
    intro h' hu
    have hu' := unborn_withHand hu nofun
    rw [hprojection, if_neg ?_]
    · exact h.unborn h' hu'
    · rintro rfl
      simp only [Unborn, withHand_connection, if_pos hl.1] at hu
      have := hl.2.2
      obtain hu | hu := hu
      · omega
      · cases hu.2
  case refused => exact refused_withHand h.refused nofun

/-- It registers the handle. -/
theorem Lifetimes.projectionRegister (h : Lifetimes st phase)
    (hl : l.session = s ∧ (phase (.connection s)).At l)
    (hhand : (phase (.connection s)).hand = .projectionPrivate) :
    Lifetimes { st with projectionStreams := st.projectionStreams ++ [l] }
      (withHand phase s .projectionRegistered) := by
  have hnone (h' : LineId) (hs : h'.session = s) :
      ¬Private (withHand phase s .projectionRegistered) h' := by
    rintro ⟨hp, -⟩
    rw [withHand_connection, if_pos hs] at hp
    cases hp
  have hsame (h' : LineId) (hs : h'.session ≠ s) :
      Private (withHand phase s .projectionRegistered) h' ↔ Private phase h' := by
    simp only [Private, withHand_connection, if_neg hs]
  have hprivate := private_iff hl hhand hl.1
  constructor
  case tty => exact h.tty
  case ttyInited => exact h.ttyInited
  case ttyPrivate =>
    intro h' hh hread
    obtain ⟨hh, hread⟩ := ttyPrivate_withHand hh hread nofun
    exact h.ttyPrivate h' hh hread
  case projection =>
    intro h'
    have hsum := h.projection h'
    simp only [List.count_append]
    by_cases hh : h' = l
    · subst hh
      rw [if_neg (by simp [hprivate])] at hsum
      rw [if_pos ⟨h.born h' (hprivate.mpr rfl), hnone h' hl.1⟩]
      simp only [List.count_cons_self, List.count_nil]
      omega
    · rw [List.count_singleton, if_neg (by simpa using Ne.symm hh)]
      by_cases hs : h'.session = s
      · have hp : ¬Private phase h' := fun hp => hh ((private_iff hl hhand hs).mp hp)
        simpa [hp, hnone h' hs] using hsum
      · simpa only [hsame h' hs, Nat.add_zero] using hsum
  case born =>
    intro h' hp
    by_cases hs : h'.session = s
    · exact absurd hp (hnone h' hs)
    · exact h.born h' ((hsame h' hs).mp hp)
  case unborn => exact fun h' hu => h.unborn h' (unborn_withHand hu nofun)
  case refused => exact refused_withHand h.refused nofun

end WithHand

theorem Lifetimes.step (h : Lifetimes st phase) (hexec : exec choice st o = some (b, st'))
    (hafter : after inputs p (phase p) o b = some φ') (hcond : KeepsHandles p o b st) :
    Lifetimes st' (Function.update phase p φ') := by
  by_cases howns : o.OwnsProjection ∨ o.OwnsTty
  · obtain ⟨s, rfl, hown⟩ := owner_eq hafter howns
    clear hafter
    cases o <;> simp only [Op.OwnsProjection, Op.OwnsTty, or_self, or_false, or_true] at howns <;>
      simp only [connectionAfter, permit_eq_some] at hown <;> simp only [exec] at hexec
    case ttyInit l conversationId =>
      obtain ⟨⟨hs, hat, -, hempty⟩, rfl⟩ := hown
      cases hexec
      exact h.ttyInit conversationId ⟨hs, hat⟩ hempty
    case ttyRegister l =>
      obtain ⟨⟨hs, hat, hhand⟩, rfl⟩ := hown
      cases hexec
      exact h.ttyRegister ⟨hs, hat⟩ hhand
    case ttyDeinit l => exact absurd hcond.1 (by simp [Op.isTtyDeinit])
    case projectionInit l conversationId target =>
      obtain ⟨⟨hs, hat, -, hempty⟩, rfl⟩ := hown
      cases hexec
      exact h.projectionInit conversationId target ⟨hs, hat⟩ hempty rfl
    case projectionRegister l =>
      obtain ⟨⟨hs, hat, hhand⟩, rfl⟩ := hown
      cases hexec
      exact h.projectionRegister ⟨hs, hat⟩ hhand
    case projectionDeinit l => exact absurd hown.1.2.2 (h.refused s)
  · exact h.step_keep hexec hafter hcond (fun ho => howns (.inl ho)) fun ho => howns (.inr ho)

end Steps

/-! ## Runs -/

theorem lifetimes_start : Lifetimes .start fun _ => .start := by
  constructor
  all_goals simp [State.start, TtyStreamHandle.absent, ProjectionStreamHandle.absent, Phase.start, Private]

theorem reaches_lifetimes {inputs : Inputs} {c : Machine.Config Party Op State Phase}
    (h : (machine inputs).Reaches KeepsHandles inputs.start c) : Lifetimes c.state c.phase :=
  h.invariant (scripts_follow inputs) lifetimes_start
    fun _ _ _ _ _ _ _ _ hi hexec hafter hcond => hi.step hexec hafter hcond

/-- In the runs in which no request of a tty stream ends and every acknowledgement of a projection
stream is written: what a registry lists is initialised and not deinitialised, no handle is
deinitialised twice, and a projection handle that has left the registry is deinitialised once. -/
theorem stream_handles {inputs : Inputs} {c : Machine.Config Party Op State Phase}
    (h : (machine inputs).Reaches KeepsHandles inputs.start c) (l : LineId) :
    (l ∈ c.state.ttyStreams → (c.state.tty l).inited = true ∧ (c.state.tty l).deinits = 0) ∧
      (l ∈ c.state.projectionStreams → (c.state.projection l).Live) ∧
      (c.state.tty l).deinits ≤ 1 ∧ (c.state.projection l).deinits ≤ 1 ∧
      ((c.state.projection l).inited = true → l ∉ c.state.projectionStreams →
        ¬Private c.phase l → (c.state.projection l).deinits = 1) := by
  have hi := reaches_lifetimes h
  have hsum := hi.projection l
  refine ⟨fun hl => ⟨hi.ttyInited l hl, hi.tty l⟩, fun hl => ?_, ?_, ?_, fun hinited hl hp => ?_⟩
  · have hpos := List.count_pos_iff.mpr hl
    split at hsum
    · rename_i hinited
      exact ⟨hinited.1, by omega⟩
    · omega
  · rw [hi.tty l]
    exact Nat.zero_le 1
  · split at hsum <;> omega
  · rw [if_pos ⟨hinited, hp⟩, List.count_eq_zero_of_not_mem hl] at hsum
    exact hsum

/-- One connection that opens a stream. -/
def oneStream (method : String) : Inputs :=
  .ofLines fun s => if s = 0 then [rpcLine "c-1" 1 method none] else []

/-- The stream is opened, and its connection ends. -/
def projectionThenEnd : List (Party × Choice) :=
  steps (.client 0 0) 1 ++ steps (.connection 0) 10

theorem stream_handles_projection :
    ∃ c, (machine (oneStream "projection.stream.open")).Reaches KeepsHandles
        (oneStream "projection.stream.open").start c ∧
      (c.state.projection ⟨0, 0⟩).inited = true ∧ (c.state.projection ⟨0, 0⟩).deinits = 1 := by
  obtain ⟨c, hc, htest⟩ := Machine.Reaches.exists_of_follow
    (M := machine (oneStream "projection.stream.open")) KeepsHandles
    (oneStream "projection.stream.open").start projectionThenEnd
    (fun c => (c.state.projection ⟨0, 0⟩).inited && c.state.projectionStreams.isEmpty &&
      !decide (Private c.phase ⟨0, 0⟩)) (by decide +kernel)
  simp only [Bool.and_eq_true, Bool.not_eq_true', decide_eq_false_iff_not,
    List.isEmpty_iff] at htest
  obtain ⟨⟨hinited, hempty⟩, hprivate⟩ := htest
  refine ⟨c, hc, hinited, (stream_handles hc ⟨0, 0⟩).2.2.2.2 hinited ?_ hprivate⟩
  rw [hempty]
  exact List.not_mem_nil

/-- The pane of a tty stream exits, and the request of the stream comes to its `deinit`. -/
def ttyThenExit : List (Party × Choice) :=
  steps (.client 0 0) 1 ++ steps (.connection 0) 9 ++ steps (.reader ⟨0, 0⟩) 4 ++
    steps (.connection 0) 4

theorem ttyStreams_lists_destroyed_handle :
    ∃ c, (machine (oneStream "tty.stream.open")).Reaches Machine.anyStep
        (oneStream "tty.stream.open").start c ∧
      (⟨0, 0⟩ : LineId) ∈ c.state.ttyStreams ∧ (c.state.tty ⟨0, 0⟩).deinits = 1 := by
  obtain ⟨c, hc, htest⟩ := Machine.Reaches.exists_of_follow
    (M := machine (oneStream "tty.stream.open")) Machine.anyStep
    (oneStream "tty.stream.open").start ttyThenExit
    (fun c => decide ((⟨0, 0⟩ : LineId) ∈ c.state.ttyStreams) &&
      decide ((c.state.tty ⟨0, 0⟩).deinits = 1)) (by decide +kernel)
  simp only [Bool.and_eq_true, decide_eq_true_eq] at htest
  exact ⟨c, hc, htest⟩

end Muxly.Server
