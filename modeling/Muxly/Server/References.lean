/-
# Muxly.Server.References -- who holds a reference to a session, and when the last one goes

A connection thread, the requests that it queues, the workers that run them and the projection
handles of its streams all hold references to one session. `Counted` says that the count is the
number of holders and that `pending_requests` is the number of reserved slots.

A worker gives its reference back before its slot, so that `finishPendingRequest` may come after the
last reference is gone. `session_references` shows that this, and the second release by a projection
handle whose acknowledgement could not be written, are the only ways to reach a destroyed session:
in the runs without them every call finds its session in memory, and a session is destroyed once.
-/
import Mathlib.Data.Finset.Card
import Muxly.Server.Conduct
import Muxly.Server.Registry

namespace Muxly.Server

open Muxly.Core Muxly.Daemon Muxly.Sync

/-! ## The runs considered -/

/-- The session whose reference a thread gives back. -/
def Op.releases : Op → Option Nat
  | .release s => some s
  | _ => none

/-- A thread that gives back the last reference finds no pending slot, and the acknowledgement of a
projection stream is written. -/
def KeepsReferences (_ : Party) (o : Op) (b : Bool) (st : State) : Prop :=
  (∀ s ∈ o.releases, (st.session s).refCount = 1 → (st.session s).pendingRequests = 0) ∧
    (o.isProjectionAck = true → b = true)

instance (p : Party) (o : Op) (b : Bool) (st : State) : Decidable (KeepsReferences p o b st) :=
  inferInstanceAs (Decidable (_ ∧ _))

/-! ## Counting -/

/-- The reference of a connection thread. -/
def Stage.refs : Stage → Nat
  | .held | .closed => 1
  | .fresh | .released => 0

/-- The reference of a projection handle that is not registered yet. -/
def Hand.refs : Hand → Nat
  | .projectionPrivate => 1
  | _ => 0

/-- The counts of session `s` are those of its holders: its connection, the workers in `held` with
their reference, the workers in `slots` with their slot, the queued requests and the registered
projection handles. -/
structure Counted (s : Nat) (st : State) (phase : Party → Phase) (held slots : Finset Nat) :
    Prop where
  held_iff : ∀ i, i ∈ held ↔ (phase (.worker ⟨s, i⟩)).stage = .held
  slots_iff : ∀ i, i ∈ slots ↔ (phase (.worker ⟨s, i⟩)).slot = true
  refs : (st.session s).refCount = (phase (.connection s)).stage.refs +
    (phase (.connection s)).extra.toNat + (phase (.connection s)).hand.refs + st.waiting s +
    st.registered s + held.card
  pending : (st.session s).pendingRequests =
    (phase (.connection s)).slot.toNat + st.waiting s + slots.card
  created : (st.session s).created = true ↔ (phase (.connection s)).stage ≠ .fresh
  absent : (st.session s).created = false →
    (st.session s).refCount = 0 ∧ (st.session s).pendingRequests = 0 ∧ (st.session s).destroyed = 0
  destroyed : (st.session s).created = true →
    (st.session s).destroyed = if (st.session s).refCount = 0 then 1 else 0
  surplus : (st.session s).refCount = 0 → (st.session s).pendingRequests = 0
  dangling : (st.session s).dangling = false
  fresh : (phase (.connection s)).stage = .fresh → (phase (.connection s)).slot = false
  outside : (phase (.connection s)).stage ≠ .held → (phase (.connection s)).extra = false ∧
    (phase (.connection s)).hand.refs = 0 ∧ st.registered s = 0
  refused : (phase (.connection s)).hand ≠ .projectionRefused
  worker : ∀ i, ((phase (.worker ⟨s, i⟩)).stage = .fresh → (phase (.worker ⟨s, i⟩)).slot = false) ∧
    ((phase (.worker ⟨s, i⟩)).stage = .held → (phase (.worker ⟨s, i⟩)).slot = true)

/-- `Counted` for every session. -/
def AllCounted (st : State) (phase : Party → Phase) : Prop :=
  ∀ s, ∃ held slots, Counted s st phase held slots

section Facts

variable {s : Nat} {st st' : State} {phase phase' : Party → Phase} {held slots : Finset Nat}

/-- A session with a reference or a slot is in memory. -/
theorem Counted.alive (h : Counted s st phase held slots)
    (hpos : 0 < (st.session s).refCount ∨ 0 < (st.session s).pendingRequests) :
    (st.session s).Alive := by
  have hcreated : (st.session s).created = true := by
    by_contra hc
    have := h.absent (by simpa using hc)
    omega
  have hrefs : (st.session s).refCount ≠ 0 := fun hz => by
    have := h.surplus hz
    omega
  exact ⟨hcreated, by rw [h.destroyed hcreated, if_neg hrefs]⟩

theorem Counted.alive_connection (h : Counted s st phase held slots)
    (hstage : (phase (.connection s)).stage.refs = 1) : (st.session s).Alive := by
  refine h.alive (.inl ?_)
  have := h.refs
  omega

theorem Counted.alive_worker (h : Counted s st phase held slots) {i : Nat}
    (hslot : (phase (.worker ⟨s, i⟩)).slot = true) : (st.session s).Alive := by
  refine h.alive (.inr ?_)
  have := h.pending
  have := Finset.card_pos.mpr ⟨i, (h.slots_iff i).mpr hslot⟩
  omega

theorem AllCounted.backed (h : AllCounted st phase) : Backed st := by
  intro s hpos
  obtain ⟨held, slots, hs⟩ := h s
  have hstage : (phase (.connection s)).stage = .held := by
    by_contra hstage
    have := (hs.outside hstage).2.2
    omega
  have hrefs := hs.refs
  rw [hstage, Stage.refs] at hrefs
  exact ⟨hs.alive (.inl (by omega)), by omega⟩

/-- A step that only takes handles out of the registry, and leaves what the phases hold. -/
theorem Counted.quiet (h : Counted s st phase held slots) (hsheds : ShedsAt s st st')
    (hstage : (phase' (.connection s)).stage = (phase (.connection s)).stage)
    (hextra : (phase' (.connection s)).extra = (phase (.connection s)).extra)
    (hslot : (phase' (.connection s)).slot = (phase (.connection s)).slot)
    (hhand : (phase' (.connection s)).hand.refs = (phase (.connection s)).hand.refs)
    (hrefused : (phase' (.connection s)).hand ≠ .projectionRefused)
    (hworker : ∀ i, (phase' (.worker ⟨s, i⟩)).stage = (phase (.worker ⟨s, i⟩)).stage ∧
      (phase' (.worker ⟨s, i⟩)).slot = (phase (.worker ⟨s, i⟩)).slot) :
    Counted s st' phase' held slots := by
  obtain ⟨hwait, hsame, n, hleft, hrefs⟩ := hsheds
  have hzero : (st'.session s).refCount = 0 ↔ (st.session s).refCount = 0 := by
    refine ⟨fun hz => ?_, fun hz => by omega⟩
    by_contra hnz
    have hstage : (phase (.connection s)).stage = .held := by
      by_contra hstage
      have := (h.outside hstage).2.2
      omega
    have hsum := h.refs
    rw [hstage, Stage.refs] at hsum
    omega
  constructor
  case held_iff => intro i; rw [(hworker i).1]; exact h.held_iff i
  case slots_iff => intro i; rw [(hworker i).2]; exact h.slots_iff i
  case refs =>
    have hsum := h.refs
    rw [hstage, hextra, hhand, hwait]
    omega
  case pending => rw [hsame.pendingRequests, hslot, hwait]; exact h.pending
  case created => rw [hsame.created, hstage]; exact h.created
  case absent =>
    rw [hsame.created, hsame.pendingRequests, hsame.destroyed, hzero]
    exact h.absent
  case destroyed =>
    rw [hsame.created, hsame.destroyed]
    simp only [hzero]
    exact h.destroyed
  case surplus => rw [hzero, hsame.pendingRequests]; exact h.surplus
  case dangling => rw [hsame.dangling]; exact h.dangling
  case fresh => rw [hstage, hslot]; exact h.fresh
  case outside =>
    rw [hstage, hextra, hhand]
    intro hs
    obtain ⟨h₁, h₂, h₃⟩ := h.outside hs
    exact ⟨h₁, h₂, by omega⟩
  case refused => exact hrefused
  case worker => intro i; rw [(hworker i).1, (hworker i).2]; exact h.worker i

end Facts

/-! ## Steps that count nothing -/

/-- A call that takes or gives back a reference or a slot of session `s`, or hands one over. -/
def Op.Counts (s : Nat) : Op → Prop
  | .init t | .retain t | .release t | .tryReservePendingSlot t | .finishPendingRequest t
  | .closeSession t => t = s
  | .enqueue l | .dequeue l | .projectionInit l _ _ | .projectionRegister l
  | .projectionDeinit l => l.session = s
  | _ => False

/-- A call on session `s` itself that counts nothing. -/
def Op.Reaches (s : Nat) : Op → Prop
  | .isClosed t | .markClosed t => t = s
  | .writeFrame origin _ _ => origin.session = s
  | _ => False

/-- Any other call only takes handles out of the registry. -/
theorem exec_sheds {s : Nat} {st st' : State} {o : Op} {choice : Choice} {b : Bool}
    (hb : Backed st) (hcounts : ¬o.Counts s) (hreaches : o.Reaches s → (st.session s).Alive)
    (h : exec choice st o = some (b, st')) : ShedsAt s st st' := by
  have honSession {t : Nat} {f : ConnectionSession → ConnectionSession} (ht : ¬t = s) :
      ShedsAt s st (st.onSession t f) := .of_eq rfl rfl (by simp [Ne.symm ht])
  cases o <;> simp only [Op.Counts, Op.Reaches] at hcounts hreaches <;> simp only [exec] at h
  case init t => cases h; exact .of_eq rfl rfl (by simp [Ne.symm hcounts])
  case retain t => cases h; exact honSession hcounts
  case release t => cases h; exact honSession hcounts
  case tryReservePendingSlot t => split at h <;> cases h <;> exact honSession hcounts
  case finishPendingRequest t => cases h; exact honSession hcounts
  case isClosed t =>
    cases h
    by_cases ht : t = s
    · exact Sheds.onSession (ht ▸ hreaches ht) (fun _ => .refl _) (fun _ => rfl) s
    · exact honSession ht
  case markClosed t =>
    cases h
    by_cases ht : t = s
    · exact Sheds.onSession (f := (·.markClosed)) (ht ▸ hreaches ht) (fun _ => ⟨rfl, rfl, rfl, rfl⟩) (fun _ => rfl) s
    · exact honSession ht
  case writeFrame origin role frame =>
    obtain rfl : (st.writeFrame origin role frame choice.succeeds).2 = st' :=
      congrArg Prod.snd (Option.some.inj h)
    by_cases ht : origin.session = s
    · exact Sheds.writeFrame (ht ▸ hreaches ht) role frame choice.succeeds s
    · exact .of_eq (writeFrame_queued ..) (writeFrame_projectionStreams ..)
        (writeFrame_session_of_ne _ _ _ (Ne.symm ht))
  case readMessageLine t =>
    split at h
    · split at h <;> cases h
      exact .of_eq rfl rfl rfl
    · cases h
      exact .of_eq rfl rfl rfl
  case enqueue l =>
    split at h <;> cases h
    · exact ⟨by simp [State.waiting, hcounts], .refl _, 0, rfl, rfl⟩
    · exact .of_eq rfl rfl rfl
  case dequeue l =>
    split at h <;> cases h
    rename_i hmem
    obtain ⟨before, rest, hsplit, herase⟩ := erase_split hmem
    refine ⟨?_, .refl _, 0, rfl, rfl⟩
    show (st.queued.erase l).countP _ = st.queued.countP _
    rw [herase, hsplit]
    simp [hcounts]
  case waitNextChunk l =>
    split at h
    · cases h
      exact .of_eq rfl rfl rfl
    · split at h <;> cases h
      exact .of_eq rfl rfl rfl
  case ttyRegistryRequestClose t conversationId =>
    simp only [State.ttyRegistryRequestClose] at h
    split at h <;> cases h <;> exact .of_eq rfl rfl rfl
  case spawnReader l => split at h <;> cases h <;> exact .of_eq rfl rfl rfl
  case projectionInit l conversationId target =>
    cases h
    exact .of_eq rfl rfl (by simp [Ne.symm hcounts])
  case projectionRegister l =>
    cases h
    exact ⟨rfl, .refl _, 0, by simp [State.registered, hcounts], rfl⟩
  case projectionDeinit l =>
    cases h
    exact .of_eq rfl rfl (by simp [State.projectionDeinit, Ne.symm hcounts])
  case projectionUnregister t conversationId =>
    obtain rfl : (st.projectionUnregister conversationId).2 = st' :=
      congrArg Prod.snd (Option.some.inj h)
    exact hb.exits (.projectionUnregister .refl conversationId) s
  case closeSession t =>
    cases h
    exact hb.exits (exits_closeSession st t) s
  case broadcast =>
    cases h
    exact hb.exits (exits_broadcast st choice) s
  -- What is left acts on tty handles and on the lines of the clients only.
  case halt => cases h
  case joinReader l => split at h <;> cases h; exact .of_eq rfl rfl rfl
  case readerStart l => split at h <;> cases h; exact .of_eq rfl rfl rfl
  case sendLine l => split at h <;> cases h; exact .of_eq rfl rfl rfl
  case awaitAnswer l =>
    split at h
    · cases h
      exact .of_eq rfl rfl rfl
    · split at h <;> cases h
      exact .of_eq rfl rfl rfl
  all_goals cases h; exact .of_eq rfl rfl rfl

/-! ## Steps -/

/-- What a connection's call that counts nothing leaves of its phase. -/
theorem after_quiet {inputs : Inputs} {s : Nat} {φ φ' : Phase} {o : Op} {b : Bool}
    (h : connectionAfter inputs s φ o b = some φ') (hcounts : ¬o.Counts s)
    (hrefused : φ.hand ≠ .projectionRefused)
    (hack : ∀ l frame, o = .writeFrame l .projectionAck frame → b = true) :
    φ'.stage = φ.stage ∧ φ'.extra = φ.extra ∧ φ'.slot = φ.slot ∧ φ'.hand.refs = φ.hand.refs ∧
      φ'.hand ≠ .projectionRefused ∧ (o.Reaches s → φ.stage = .held) := by
  cases o <;> simp only [connectionAfter, permit_eq_some, reduceCtorEq] at h <;>
    simp only [Op.Counts, Op.Reaches] at hcounts ⊢
  case writeFrame l role frame =>
    split at h
    · cases role <;> simp only [connectionWrites, permit_eq_some] at h <;>
        obtain ⟨hpermit, rfl⟩ := h
      case projectionAck =>
        obtain rfl := hack l frame rfl
        simp_all [Phase.At, Phase.wrote]
      all_goals simp_all [Phase.At, Phase.wrote]
    · cases h
  case release t =>
    split at h
    · exact absurd (permit_eq_some.mp h).1.1 hcounts
    · exact absurd (permit_eq_some.mp h).1.1 hcounts
  case readMessageLine t =>
    obtain ⟨⟨-, hidle⟩, rfl⟩ := h
    cases b
    · simp [hrefused]
    · have hrefs : φ.hand.refs = 0 := by
        obtain h | h | h | h := hidle.hand <;> rw [h] <;> rfl
      exact ⟨rfl, rfl, rfl, hrefs.symm, nofun, False.elim⟩
  case ttyDeinit l =>
    obtain ⟨⟨-, -, hhand⟩, rfl⟩ := h
    obtain hhand | hhand := hhand <;> simp [hhand, Hand.refs]
  all_goals
    obtain ⟨hpermit, rfl⟩ := h
    simp_all [Phase.At, Hand.refs]

/-- What a worker's call that counts nothing leaves of its phase. -/
theorem workerAfter_quiet {inputs : Inputs} {l : LineId} {φ φ' : Phase} {o : Op} {b : Bool}
    (h : workerAfter inputs l φ o b = some φ') (hcounts : ¬o.Counts l.session) :
    φ'.stage = φ.stage ∧ φ'.slot = φ.slot ∧ (o.Reaches l.session → φ.stage = .held) := by
  cases o <;> simp only [workerAfter, permit_eq_some, reduceCtorEq] at h <;>
    simp only [Op.Counts, Op.Reaches] at hcounts ⊢
  case isClosed t =>
    obtain ⟨⟨rfl, hstage, -⟩, rfl⟩ := h
    cases b <;> simp [hstage, Phase.wrote]
  all_goals
    obtain ⟨hpermit, rfl⟩ := h
    simp_all [Phase.wrote]

/-- The session of a party that may count for it. -/
def Party.Of (s : Nat) : Party → Prop
  | .connection t => t = s
  | .worker l => l.session = s
  | _ => False

/-- Only the connection and the workers of a session count for it. -/
theorem of_counts {inputs : Inputs} {p : Party} {s : Nat} {φ φ' : Phase} {o : Op} {b : Bool}
    (h : after inputs p φ o b = some φ') (hcounts : o.Counts s ∨ o.Reaches s) : p.Of s := by
  cases p with
  | connection t =>
      cases o <;> simp only [after, connectionAfter, permit_eq_some, reduceCtorEq] at h <;>
        simp only [Op.Counts, Op.Reaches, or_false, false_or] at hcounts
      case writeFrame => split at h <;> simp_all [Party.Of]
      case release => split at h <;> simp_all [permit_eq_some, Party.Of]
      all_goals simp_all [Party.Of]
  | worker l =>
      cases o <;> simp only [after, workerAfter, permit_eq_some, reduceCtorEq] at h <;>
        simp only [Op.Counts, Op.Reaches, or_false, false_or] at hcounts <;>
        simp_all [Party.Of]
  | reader l =>
      cases o <;> simp_all [after, readerAfter, Op.Counts, Op.Reaches]
  | client t thread =>
      cases o <;> simp_all [after, clientAfter, Op.Counts, Op.Reaches]
  | maintenance =>
      cases o <;> simp_all [after, Op.Counts, Op.Reaches]

section Steps

variable {inputs : Inputs} {s : Nat} {st st' : State} {phase : Party → Phase} {p : Party} {o : Op}
  {choice : Choice} {b : Bool} {φ' : Phase} {held slots : Finset Nat}

/-- A session is in memory when a call reaches it. -/
theorem Counted.alive_of_reaches (h : Counted s st phase held slots)
    (hafter : after inputs p (phase p) o b = some φ') (hcond : KeepsReferences p o b st)
    (hcounts : ¬o.Counts s) (hreaches : o.Reaches s) : (st.session s).Alive := by
  have hof := of_counts hafter (.inr hreaches)
  cases p with
  | connection t =>
      obtain rfl : t = s := hof
      have hquiet := after_quiet hafter hcounts h.refused fun l frame ho => by
        subst ho
        exact hcond.2 rfl
      exact h.alive_connection (by rw [hquiet.2.2.2.2.2 hreaches]; rfl)
  | worker l =>
      obtain rfl : l.session = s := hof
      have hquiet := workerAfter_quiet hafter hcounts
      exact h.alive_worker ((h.worker l.line).2 (hquiet.2.2 hreaches))
  | reader l => exact hof.elim
  | client t thread => exact hof.elim
  | maintenance => exact hof.elim

/-- A step that counts nothing for the session. -/
theorem Counted.step_quiet (h : Counted s st phase held slots) (hbacked : Backed st)
    (hexec : exec choice st o = some (b, st'))
    (hafter : after inputs p (phase p) o b = some φ') (hcond : KeepsReferences p o b st)
    (hcounts : ¬o.Counts s) : Counted s st' (Function.update phase p φ') held slots := by
  have hsheds : ShedsAt s st st' :=
    exec_sheds hbacked hcounts (h.alive_of_reaches hafter hcond hcounts) hexec
  by_cases hof : p.Of s
  · cases p with
    | connection t =>
        obtain rfl : t = s := hof
        obtain ⟨hstage, hextra, hslot, hhand, hrefused, -⟩ :=
          after_quiet hafter hcounts h.refused fun l frame ho => by
            subst ho
            exact hcond.2 rfl
        refine h.quiet hsheds ?_ ?_ ?_ ?_ ?_ ?_ <;> simp [hstage, hextra, hslot, hhand, hrefused]
    | worker l =>
        obtain rfl : l.session = s := hof
        obtain ⟨hstage, hslot, -⟩ := workerAfter_quiet hafter hcounts
        refine h.quiet hsheds ?_ ?_ ?_ ?_ ?_ ?_
        case refine_6 =>
          intro i
          by_cases hi : (⟨l.session, i⟩ : LineId) = l
          · rw [hi, Function.update_self]
            exact ⟨hstage, hslot⟩
          · rw [Function.update_of_ne (by simpa using hi)]
            exact ⟨rfl, rfl⟩
        all_goals simp [h.refused]
    | reader l => exact hof.elim
    | client t thread => exact hof.elim
    | maintenance => exact hof.elim
  · have hconn : Party.connection s ≠ p := by
      rintro rfl
      exact hof rfl
    have hwork (i : Nat) : Party.worker ⟨s, i⟩ ≠ p := by
      rintro rfl
      exact hof rfl
    refine h.quiet hsheds ?_ ?_ ?_ ?_ ?_ fun i => ?_
    all_goals first
      | simp only [Function.update_of_ne hconn, h.refused, ne_eq, not_false_eq_true]
      | simp only [Function.update_of_ne (hwork i), and_self]

/-- A step of the connection of the session, from what it leaves. -/
theorem Counted.of_connection (h : Counted s st phase held slots) {x : ConnectionSession}
    {w r : Nat} (hx : st'.session s = x) (hw : st'.waiting s = w) (hr : st'.registered s = r)
    (hrefs : x.refCount = φ'.stage.refs + φ'.extra.toNat + φ'.hand.refs + w + r + held.card)
    (hpending : x.pendingRequests = φ'.slot.toNat + w + slots.card)
    (hcreated : x.created = true) (hstage : φ'.stage ≠ .fresh)
    (hdestroyed : x.destroyed = if x.refCount = 0 then 1 else 0)
    (hover : x.refCount = 0 → x.pendingRequests = 0) (hdangling : x.dangling = false)
    (houtside : φ'.stage ≠ .held → φ'.extra = false ∧ φ'.hand.refs = 0 ∧ r = 0)
    (hrefused : φ'.hand ≠ .projectionRefused) :
    Counted s st' (Function.update phase (.connection s) φ') held slots := by
  subst hx hw hr
  constructor
  case held_iff => simpa using h.held_iff
  case slots_iff => simpa using h.slots_iff
  case refs => simpa using hrefs
  case pending => simpa using hpending
  case created => simpa [hcreated] using hstage
  case absent => simp [hcreated]
  case destroyed => exact fun _ => hdestroyed
  case surplus => exact hover
  case dangling => exact hdangling
  case fresh => simpa using fun hfresh => absurd hfresh hstage
  case outside => simpa using houtside
  case refused => simpa using hrefused
  case worker => simpa using h.worker

/-- A call of the connection on its session, which is in memory. -/
theorem Counted.of_onSession (h : Counted s st phase held slots)
    {f : ConnectionSession → ConnectionSession} (halive : (st.session s).Alive)
    (hrefs : (f (st.session s)).refCount = φ'.stage.refs + φ'.extra.toNat + φ'.hand.refs +
      st.waiting s + st.registered s + held.card)
    (hpending : (f (st.session s)).pendingRequests = φ'.slot.toNat + st.waiting s + slots.card)
    (hcreated : (f (st.session s)).created = true) (hstage : φ'.stage ≠ .fresh)
    (hdestroyed : (f (st.session s)).destroyed =
      if (f (st.session s)).refCount = 0 then 1 else 0)
    (hover : (f (st.session s)).refCount = 0 → (f (st.session s)).pendingRequests = 0)
    (hdangling : (f (st.session s)).dangling = false)
    (houtside : φ'.stage ≠ .held → φ'.extra = false ∧ φ'.hand.refs = 0 ∧ st.registered s = 0)
    (hrefused : φ'.hand ≠ .projectionRefused) :
    Counted s (st.onSession s f) (Function.update phase (.connection s) φ') held slots := by
  have hsession : (st.onSession s f).session s = f (st.session s) := by
    simp [ConnectionSession.touch_of_alive halive]
  exact h.of_connection hsession (State.onSession_waiting ..) (State.onSession_registered ..) hrefs
    hpending hcreated hstage hdestroyed hover hdangling houtside hrefused

section Connection

variable (h : Counted s st phase held slots) (hexec : exec choice st o = some (b, st'))
  (hafter : connectionAfter inputs s (phase (.connection s)) o b = some φ')
include h hexec hafter

theorem Counted.init (ho : o = .init s) :
    Counted s st' (Function.update phase (.connection s) φ') held slots := by
  subst ho
  obtain ⟨⟨-, hstage⟩, rfl⟩ := permit_eq_some.mp hafter
  cases hexec
  have hrefs := h.refs
  have hpending := h.pending
  obtain ⟨hr, hp, -⟩ := h.absent (by simpa [hstage] using h.created)
  have hslot := h.fresh hstage
  obtain ⟨hextra, hhand, hregistered⟩ := h.outside (by simp [hstage])
  rw [hstage, hextra, hhand, hregistered, hr] at hrefs
  rw [hslot, hp] at hpending
  simp only [Stage.refs, Bool.toNat_false] at hrefs hpending
  refine h.of_connection (w := 0) (r := 0) (Function.update_self ..) ?_ hregistered
    ?_ ?_ rfl (by simp) rfl (by simp) rfl (fun hs => absurd rfl hs) h.refused
  · show st.waiting s = 0
    omega
  · simp only [Stage.refs, hextra, hhand, Bool.toNat_false]
    omega
  · simp only [hslot, Bool.toNat_false]
    show 0 = _
    omega

theorem Counted.retain (ho : o = .retain s) :
    Counted s st' (Function.update phase (.connection s) φ') held slots := by
  subst ho
  obtain ⟨⟨-, hstage, -, hslot, hextra⟩, rfl⟩ := permit_eq_some.mp hafter
  cases hexec
  have halive := h.alive_connection (by rw [hstage]; rfl)
  have hrefs := h.refs
  rw [hstage, hextra] at hrefs
  refine h.of_onSession halive ?_ h.pending halive.1 (by simp [hstage]) halive.2
    (fun hz => absurd hz (Nat.succ_ne_zero _)) h.dangling (fun hs => absurd hstage hs) h.refused
  simp only [hstage, Stage.refs, Bool.toNat_false, Bool.toNat_true, ConnectionSession.retain]
    at hrefs ⊢
  omega

theorem Counted.tryReservePendingSlot (ho : o = .tryReservePendingSlot s) :
    Counted s st' (Function.update phase (.connection s) φ') held slots := by
  subst ho
  obtain ⟨⟨-, hstage, -, hslot⟩, rfl⟩ := permit_eq_some.mp hafter
  have halive := h.alive_connection (by rw [hstage]; rfl)
  have hrefs := h.refs
  have hpending := h.pending
  rw [hslot, Bool.toNat_false] at hpending
  have hpos : (st.session s).refCount ≠ 0 := by
    rw [hstage, Stage.refs] at hrefs
    omega
  simp only [exec] at hexec
  split at hexec <;> cases hexec
  · -- No slot is left.
    exact h.of_onSession halive hrefs (by simpa using hpending) halive.1 (by simp [hstage])
      (by simpa [hpos] using halive.2) h.surplus h.dangling (fun hs => absurd hstage hs) h.refused
  · refine h.of_onSession halive hrefs ?_ halive.1 (by simp [hstage]) ?_
      (fun hz => absurd hz hpos) h.dangling (fun hs => absurd hstage hs) h.refused
    · simp only [Bool.toNat_true]
      omega
    · simpa [hpos] using halive.2

theorem Counted.finishPendingRequest (ho : o = .finishPendingRequest s) :
    Counted s st' (Function.update phase (.connection s) φ') held slots := by
  subst ho
  obtain ⟨⟨-, hstage, -, hslot⟩, rfl⟩ := permit_eq_some.mp hafter
  cases hexec
  have halive := h.alive_connection (by rw [hstage]; rfl)
  have hrefs := h.refs
  have hpending := h.pending
  rw [hslot, Bool.toNat_true] at hpending
  have hpos : (st.session s).refCount ≠ 0 := by
    rw [hstage, Stage.refs] at hrefs
    omega
  refine h.of_onSession halive hrefs ?_ halive.1 (by simp [hstage]) ?_ (fun hz => absurd hz hpos)
    h.dangling (fun hs => absurd hstage hs) h.refused
  · simp only [Bool.toNat_false, ConnectionSession.finishPendingRequest]
    omega
  · simpa [hpos, ConnectionSession.finishPendingRequest] using halive.2

/-- The connection gives back the reference of a request that could not be queued, or its own. -/
theorem Counted.release (ho : o = .release s)
    (hcond : KeepsReferences (.connection s) o b st) :
    Counted s st' (Function.update phase (.connection s) φ') held slots := by
  subst ho
  cases hexec
  have hrefs := h.refs
  cases hextra : (phase (.connection s)).extra with
  | true =>
      rw [connectionAfter, if_pos hextra] at hafter
      obtain ⟨⟨-, hstage, -⟩, rfl⟩ := permit_eq_some.mp hafter
      have halive := h.alive_connection (by rw [hstage]; rfl)
      rw [hstage, hextra, Stage.refs, Bool.toNat_true] at hrefs
      have hrelease := ConnectionSession.release_of_lt (x := st.session s) (by omega)
      refine h.of_onSession halive ?_ ?_ ?_ (by simp [hstage]) ?_ ?_ ?_
        (fun hs => absurd hstage hs) h.refused <;> rw [hrelease]
      · simp only [hstage, Stage.refs, Bool.toNat_false]
        omega
      · exact h.pending
      · exact halive.1
      · rw [if_neg (by simp only; omega)]
        exact halive.2
      · simp only
        omega
      · exact h.dangling
  | false =>
      rw [connectionAfter, if_neg (by simp [hextra])] at hafter
      obtain ⟨⟨-, hstage⟩, rfl⟩ := permit_eq_some.mp hafter
      have halive := h.alive_connection (by rw [hstage]; rfl)
      obtain ⟨-, hhand, hregistered⟩ := h.outside (by simp [hstage])
      rw [hstage, hextra, hhand, hregistered, Stage.refs, Bool.toNat_false] at hrefs
      have houtside : Stage.released ≠ .held → (phase (.connection s)).extra = false ∧
          (phase (.connection s)).hand.refs = 0 ∧ st.registered s = 0 :=
        fun _ => ⟨hextra, hhand, hregistered⟩
      by_cases hone : (st.session s).refCount = 1
      · -- It was the last one: the session is destroyed.
        have hnone := hcond.1 s rfl hone
        have hrelease : (st.session s).release =
            { st.session s with refCount := 0, closed := true, destroyed := 1 } := by
          rw [ConnectionSession.release, if_pos hone, halive.2]
        refine h.of_onSession halive ?_ ?_ ?_ (by simp) ?_ ?_ ?_ houtside h.refused <;>
          rw [hrelease]
        · simp only [Stage.refs, hextra, Bool.toNat_false, hhand, hregistered]
          omega
        · exact h.pending
        · exact halive.1
        · rfl
        · exact fun _ => hnone
        · exact h.dangling
      · have hrelease := ConnectionSession.release_of_lt (x := st.session s) (by omega)
        refine h.of_onSession halive ?_ ?_ ?_ (by simp) ?_ ?_ ?_ houtside h.refused <;>
          rw [hrelease]
        · simp only [Stage.refs, hextra, Bool.toNat_false, hhand, hregistered]
          omega
        · exact h.pending
        · exact halive.1
        · rw [if_neg (by simp only; omega)]
          exact halive.2
        · simp only
          omega
        · exact h.dangling

/-- The registered handles of the session go, each with its reference. -/
theorem Counted.closeSession (ho : o = .closeSession s) (hbacked : Backed st) :
    Counted s st' (Function.update phase (.connection s) φ') held slots := by
  subst ho
  obtain ⟨⟨-, hspent⟩, rfl⟩ := permit_eq_some.mp hafter
  cases hexec
  have hhand : (phase (.connection s)).hand.refs = 0 := by
    obtain hh | hh | hh | hh := hspent.hand <;> rw [hh] <;> rfl
  have halive := h.alive_connection (by rw [hspent.held]; rfl)
  have hsheds := hbacked.exits (exits_closeSession st s) s
  have hempty := registered_closeSession st s
  obtain ⟨n, hleft, hn⟩ := hsheds.left
  have hrefs := h.refs
  rw [hspent.held, hspent.extra, hhand, Stage.refs, Bool.toNat_false] at hrefs
  have hpos : ((st.closeSession s).session s).refCount ≠ 0 := by omega
  refine h.of_connection rfl hsheds.waiting hempty ?_ ?_ ?_ (by simp) ?_ (fun hz => absurd hz hpos)
    ?_ (fun _ => ⟨hspent.extra, hhand, rfl⟩) h.refused
  · simp only [Stage.refs, hspent.extra, Bool.toNat_false, hhand]
    omega
  · rw [hsheds.same.pendingRequests]
    exact h.pending
  · rw [hsheds.same.created]
    exact halive.1
  · rw [hsheds.same.destroyed, if_neg hpos]
    exact halive.2
  · rw [hsheds.same.dangling]
    exact h.dangling

/-- A request that is queued takes the reference and the slot that were made for it. -/
theorem Counted.enqueue {l : LineId} (ho : o = .enqueue l) (hl : l.session = s) :
    Counted s st' (Function.update phase (.connection s) φ') held slots := by
  subst ho
  obtain ⟨⟨-, ⟨hstage, -⟩, -, hslot, hextra, -⟩, rfl⟩ := permit_eq_some.mp hafter
  have halive := h.alive_connection (by rw [hstage]; rfl)
  have hrefs := h.refs
  have hpending := h.pending
  rw [hstage, hextra, Stage.refs, Bool.toNat_true] at hrefs
  rw [hslot, Bool.toNat_true] at hpending
  have hpos : (st.session s).refCount ≠ 0 := by omega
  simp only [exec] at hexec
  split at hexec <;> cases hexec
  · have hwait : { st with queued := st.queued ++ [l] }.waiting s = st.waiting s + 1 := by
      simp [State.waiting, hl]
    refine h.of_connection rfl hwait (show _ = st.registered s from rfl) ?_ ?_ halive.1
      (by simp [hstage]) ?_ h.surplus h.dangling (fun hs => absurd hstage hs) h.refused
    · simp only [if_true, hstage, Stage.refs, Bool.toNat_false]
      omega
    · simp only [if_true, Bool.toNat_false]
      omega
    · simpa [hpos] using halive.2
  · exact h.of_connection rfl rfl rfl h.refs h.pending halive.1 (by simp [hstage])
      (by simpa [hpos] using halive.2) h.surplus h.dangling (fun hs => absurd hstage hs) h.refused

theorem Counted.projectionInit {l : LineId} {conversationId : Bytes}
    {target : Option RequestTarget}
    (ho : o = .projectionInit l conversationId target) (hl : l.session = s) :
    Counted s st' (Function.update phase (.connection s) φ') held slots := by
  subst ho
  obtain ⟨⟨-, ⟨hstage, -⟩, -, hhand⟩, rfl⟩ := permit_eq_some.mp hafter
  cases hexec
  have halive := h.alive_connection (by rw [hstage]; rfl)
  have hrefs := h.refs
  have hempty : (phase (.connection s)).hand.refs = 0 := by rw [hhand]; rfl
  rw [hstage, hempty, Stage.refs] at hrefs
  refine h.of_connection (x := (st.session s).retain)
    (by simp [hl, ConnectionSession.touch_of_alive halive])
    (show _ = st.waiting s from rfl) (show _ = st.registered s from rfl) ?_ h.pending halive.1
    (by simp [hstage]) halive.2 (fun hz => absurd hz (Nat.succ_ne_zero _)) h.dangling
    (fun hs => absurd hstage hs) (by simp)
  simp only [hstage, Stage.refs, Hand.refs, ConnectionSession.retain]
  omega

/-- The reference of a private handle becomes that of a registered one. -/
theorem Counted.projectionRegister {l : LineId} (ho : o = .projectionRegister l)
    (hl : l.session = s) :
    Counted s st' (Function.update phase (.connection s) φ') held slots := by
  subst ho
  obtain ⟨⟨-, ⟨hstage, -⟩, hhand⟩, rfl⟩ := permit_eq_some.mp hafter
  cases hexec
  have halive := h.alive_connection (by rw [hstage]; rfl)
  have hrefs := h.refs
  rw [hstage, hhand, Stage.refs, Hand.refs] at hrefs
  have hregistered : { st with projectionStreams := st.projectionStreams ++ [l] }.registered s =
      st.registered s + 1 := by
    simp [State.registered, hl]
  refine h.of_connection rfl (show _ = st.waiting s from rfl) hregistered ?_ h.pending halive.1
    (by simp [hstage]) (h.destroyed halive.1) h.surplus h.dangling (fun hs => absurd hstage hs)
    (by simp)
  simp only [hstage, Stage.refs, Hand.refs]
  omega

/-- A counting step of the connection. -/
theorem Counted.step_connection (hbacked : Backed st)
    (hcond : KeepsReferences (.connection s) o b st) (hcounts : o.Counts s) :
    Counted s st' (Function.update phase (.connection s) φ') held slots := by
  cases o
  case init t => exact h.init hexec hafter (congrArg Op.init hcounts)
  case retain t => exact h.retain hexec hafter (congrArg Op.retain hcounts)
  case tryReservePendingSlot t =>
    exact h.tryReservePendingSlot hexec hafter (congrArg Op.tryReservePendingSlot hcounts)
  case finishPendingRequest t =>
    exact h.finishPendingRequest hexec hafter (congrArg Op.finishPendingRequest hcounts)
  case release t => exact h.release hexec hafter (congrArg Op.release hcounts) hcond
  case closeSession t =>
    exact h.closeSession hexec hafter (congrArg Op.closeSession hcounts) hbacked
  case enqueue l => exact h.enqueue hexec hafter rfl hcounts
  case projectionInit l conversationId target => exact h.projectionInit hexec hafter rfl hcounts
  case projectionRegister l => exact h.projectionRegister hexec hafter rfl hcounts
  case projectionDeinit l => exact absurd (permit_eq_some.mp hafter).1.2.2 h.refused
  case dequeue l => cases hafter
  all_goals exact hcounts.elim

end Connection

/-- A counting step of a worker: what it leaves of the counts, and who holds what. -/
theorem Counted.of_worker (h : Counted s st phase held slots) {i : Nat} {held' slots' : Finset Nat}
    (hheld : ∀ j, j ∈ held' ↔ if j = i then φ'.stage = .held else j ∈ held)
    (hslots : ∀ j, j ∈ slots' ↔ if j = i then φ'.slot = true else j ∈ slots)
    (hregistered : st'.registered s = st.registered s)
    (hrefs : (st'.session s).refCount + st.waiting s + held.card =
      (st.session s).refCount + st'.waiting s + held'.card)
    (hpending : (st'.session s).pendingRequests + st.waiting s + slots.card =
      (st.session s).pendingRequests + st'.waiting s + slots'.card)
    (hcreated : (st'.session s).created = true) (hcreated' : (st.session s).created = true)
    (hdestroyed : (st'.session s).destroyed = if (st'.session s).refCount = 0 then 1 else 0)
    (hover : (st'.session s).refCount = 0 → (st'.session s).pendingRequests = 0)
    (hdangling : (st'.session s).dangling = false)
    (hworker : (φ'.stage = .fresh → φ'.slot = false) ∧ (φ'.stage = .held → φ'.slot = true)) :
    Counted s st' (Function.update phase (.worker ⟨s, i⟩) φ') held' slots' := by
  have hphase (j : Nat) : Function.update phase (.worker ⟨s, i⟩) φ' (.worker ⟨s, j⟩) =
      if j = i then φ' else phase (.worker ⟨s, j⟩) := by
    by_cases hj : j = i
    · subst hj
      simp
    · simp [hj]
  have hconnection : Function.update phase (.worker ⟨s, i⟩) φ' (.connection s) =
      phase (.connection s) := by simp
  have hr := h.refs
  have hp := h.pending
  constructor
  case held_iff =>
    intro j
    rw [hheld, hphase]
    split
    · rfl
    · exact h.held_iff j
  case slots_iff =>
    intro j
    rw [hslots, hphase]
    split
    · rfl
    · exact h.slots_iff j
  case refs => rw [hconnection]; omega
  case pending => rw [hconnection]; omega
  case created => rw [hconnection, hcreated, ← h.created, hcreated']
  case absent => simp [hcreated]
  case destroyed => exact fun _ => hdestroyed
  case surplus => exact hover
  case dangling => exact hdangling
  case fresh => rw [hconnection]; exact h.fresh
  case outside => rw [hconnection, hregistered]; exact h.outside
  case refused => rw [hconnection]; exact h.refused
  case worker =>
    intro j
    rw [hphase]
    split
    · exact hworker
    · exact h.worker j

section Worker

variable {i : Nat} (h : Counted s st phase held slots) (hexec : exec choice st o = some (b, st'))
  (hafter : workerAfter inputs ⟨s, i⟩ (phase (.worker ⟨s, i⟩)) o b = some φ')
include h hexec hafter

/-- The worker takes over the reference and the slot of a queued request. -/
theorem Counted.dequeue {l : LineId} (ho : o = .dequeue l) :
    Counted s st' (Function.update phase (.worker ⟨s, i⟩) φ') (insert i held) (insert i slots) := by
  subst ho
  obtain ⟨⟨rfl, hstage⟩, rfl⟩ := permit_eq_some.mp hafter
  have hslot := (h.worker i).1 hstage
  have hnotHeld : i ∉ held := fun hi => by
    have hheld := (h.held_iff i).mp hi
    rw [hstage] at hheld
    cases hheld
  have hnotSlot : i ∉ slots := fun hi => by
    have hslots := (h.slots_iff i).mp hi
    rw [hslot] at hslots
    cases hslots
  simp only [exec] at hexec
  split at hexec <;> cases hexec
  rename_i hmem
  obtain ⟨before, rest, hsplit, herase⟩ := erase_split hmem
  have hwait : { st with queued := st.queued.erase ⟨s, i⟩ }.waiting s + 1 = st.waiting s := by
    show (st.queued.erase _).countP _ + 1 = st.queued.countP _
    rw [herase, hsplit]
    simp only [List.countP_append, List.countP_cons, decide_true, if_true]
    omega
  have halive := h.alive (.inl (by
    have hrefs := h.refs
    omega))
  refine h.of_worker ?_ ?_ rfl ?_ ?_ halive.1 halive.1 (h.destroyed halive.1) h.surplus h.dangling
    ⟨nofun, fun _ => rfl⟩
  · intro j
    by_cases hj : j = i <;> simp [hj]
  · intro j
    by_cases hj : j = i <;> simp [hj]
  · rw [Finset.card_insert_of_notMem hnotHeld]
    simp only at hwait ⊢
    omega
  · rw [Finset.card_insert_of_notMem hnotSlot]
    simp only at hwait ⊢
    omega

/-- The worker gives back its reference. It still has its slot, so in the runs considered the
reference is not the last one. -/
theorem Counted.workerRelease (ho : o = .release s)
    (hcond : KeepsReferences (.worker ⟨s, i⟩) o b st) :
    Counted s st' (Function.update phase (.worker ⟨s, i⟩) φ') (held.erase i) slots := by
  subst ho
  obtain ⟨⟨-, hstage, -⟩, rfl⟩ := permit_eq_some.mp hafter
  have hslot := (h.worker i).2 hstage
  cases hexec
  have halive := h.alive_worker hslot
  have hmem : i ∈ held := (h.held_iff i).mpr hstage
  have hpos := Finset.card_pos.mpr ⟨i, hmem⟩
  have hpos' := Finset.card_pos.mpr ⟨i, (h.slots_iff i).mpr hslot⟩
  have hrefs := h.refs
  have hpending := h.pending
  have hlast : (st.session s).refCount ≠ 1 := fun hone => by
    have hnone := hcond.1 s rfl hone
    omega
  have hsession : (st.onSession s (·.release)).session s =
      { st.session s with refCount := (st.session s).refCount - 1 } := by
    simp [ConnectionSession.touch_of_alive halive,
      ConnectionSession.release_of_lt (x := st.session s) (by omega)]
  refine h.of_worker ?_ ?_ rfl ?_ ?_ ?_ halive.1 ?_ ?_ ?_
    ⟨nofun, nofun⟩
  · intro j
    by_cases hj : j = i <;> simp [hj]
  · intro j
    by_cases hj : j = i
    · simp [hj, h.slots_iff]
    · simp [hj]
  · rw [hsession, Finset.card_erase_of_mem hmem]
    simp only [State.onSession_waiting]
    omega
  · rw [hsession]
    simp
  · rw [hsession]
    exact halive.1
  · rw [hsession, if_neg (by simp only; omega)]
    exact halive.2
  · rw [hsession]
    simp only
    omega
  · rw [hsession]
    exact h.dangling

/-- The worker gives back its slot. -/
theorem Counted.workerFinish (ho : o = .finishPendingRequest s) :
    Counted s st' (Function.update phase (.worker ⟨s, i⟩) φ') held (slots.erase i) := by
  subst ho
  obtain ⟨⟨-, hstage, hslot⟩, rfl⟩ := permit_eq_some.mp hafter
  cases hexec
  have halive := h.alive_worker hslot
  have hmem : i ∈ slots := (h.slots_iff i).mpr hslot
  have hpos := Finset.card_pos.mpr ⟨i, hmem⟩
  have hpending := h.pending
  have hsession : (st.onSession s (·.finishPendingRequest)).session s =
      (st.session s).finishPendingRequest := by
    simp [ConnectionSession.touch_of_alive halive]
  refine h.of_worker ?_ ?_ rfl ?_ ?_ ?_ halive.1 ?_ ?_ ?_
    (by simp [hstage])
  · intro j
    by_cases hj : j = i
    · simp [hj, h.held_iff]
    · simp [hj]
  · intro j
    by_cases hj : j = i <;> simp [hj]
  · rw [hsession]
    rfl
  · rw [hsession, Finset.card_erase_of_mem hmem]
    simp only [State.onSession_waiting, ConnectionSession.finishPendingRequest]
    omega
  · rw [hsession]
    exact halive.1
  · rw [hsession]
    exact h.destroyed halive.1
  · rw [hsession]
    intro hz
    have hnone := h.surplus hz
    simp only [ConnectionSession.finishPendingRequest]
    omega
  · rw [hsession]
    exact h.dangling

/-- A counting step of a worker. -/
theorem Counted.step_worker (hcond : KeepsReferences (.worker ⟨s, i⟩) o b st)
    (hcounts : o.Counts s) :
    ∃ held' slots', Counted s st' (Function.update phase (.worker ⟨s, i⟩) φ') held' slots' := by
  cases o
  case dequeue l => exact ⟨_, _, h.dequeue hexec hafter rfl⟩
  case release t => exact ⟨_, _, h.workerRelease hexec hafter (congrArg Op.release hcounts) hcond⟩
  case finishPendingRequest t =>
    exact ⟨_, _, h.workerFinish hexec hafter (congrArg Op.finishPendingRequest hcounts)⟩
  all_goals first
    | exact hcounts.elim
    | cases hafter

end Worker

/-- Every step keeps the counts of every session. -/
theorem AllCounted.step (h : AllCounted st phase) (hexec : exec choice st o = some (b, st'))
    (hafter : after inputs p (phase p) o b = some φ') (hcond : KeepsReferences p o b st) :
    AllCounted st' (Function.update phase p φ') := by
  intro s
  obtain ⟨held, slots, hs⟩ := h s
  by_cases hcounts : o.Counts s
  · have hof := of_counts hafter (.inl hcounts)
    cases p with
    | connection t =>
        obtain rfl : t = s := hof
        exact ⟨held, slots, hs.step_connection hexec hafter h.backed hcond hcounts⟩
    | worker l =>
        obtain rfl : l.session = s := hof
        exact hs.step_worker hexec hafter hcond hcounts
    | reader l => exact hof.elim
    | client t thread => exact hof.elim
    | maintenance => exact hof.elim
  · exact ⟨held, slots, hs.step_quiet h.backed hexec hafter hcond hcounts⟩

end Steps

/-! ## Runs -/

theorem allCounted_start : AllCounted .start fun _ => .start := by
  intro s
  refine ⟨∅, ∅, ?_⟩
  constructor
  all_goals simp [State.start, ConnectionSession.absent, Phase.start, Stage.refs, Hand.refs, State.waiting,
    State.registered]

theorem reaches_allCounted {inputs : Inputs} {c : Machine.Config Party Op State Phase}
    (h : (machine inputs).Reaches KeepsReferences inputs.start c) : AllCounted c.state c.phase :=
  h.invariant (scripts_follow inputs) allCounted_start
    fun _ _ _ _ _ _ _ _ hi hexec hafter hcond => hi.step hexec hafter hcond

/-- No thread is left that could still call on session `s`: its connection has ended, no request of
it waits in a lane, and none is being run. -/
def Over (s : Nat) (c : Machine.Config Party Op State Phase) : Prop :=
  (∃ r, c.script (.connection s) = .done r) ∧
    ∀ i, (⟨s, i⟩ : LineId) ∉ c.state.queued ∧ (c.phase (.worker ⟨s, i⟩)).stage ≠ .held

/-- In the runs in which no step gives back the last reference of a session while one of its slots is
pending, and every acknowledgement of a projection stream is written: no call ever reaches a session
that is not in memory, a session is destroyed exactly when its count has gone down to zero, and that
has happened once when no thread is left that could call on it. -/
theorem session_references {inputs : Inputs} {c : Machine.Config Party Op State Phase}
    (h : (machine inputs).Reaches KeepsReferences inputs.start c) (s : Nat) :
    (c.state.session s).dangling = false ∧
      ((c.state.session s).created = true →
        (c.state.session s).destroyed = if (c.state.session s).refCount = 0 then 1 else 0) ∧
      (Over s c → (c.state.session s).destroyed = 1) := by
  obtain ⟨held, slots, hs⟩ := reaches_allCounted h s
  refine ⟨hs.dangling, hs.destroyed, ?_⟩
  rintro ⟨⟨r, hdone⟩, hall⟩
  have hend := h.conforms (scripts_follow inputs) (.connection s)
  rw [hdone] at hend
  have hstage : (c.phase (.connection s)).stage = .released := hend
  obtain ⟨hextra, hhand, hregistered⟩ := hs.outside (by rw [hstage]; simp)
  have hwait : c.state.waiting s = 0 := by
    rw [State.waiting, List.countP_eq_zero]
    intro l hl
    have := (hall l.line).1
    rintro hsession
    obtain rfl : l.session = s := of_decide_eq_true hsession
    exact this hl
  have hheld : held = ∅ :=
    Finset.eq_empty_of_forall_notMem fun i hi => (hall i).2 ((hs.held_iff i).mp hi)
  have hrefs := hs.refs
  rw [hstage, hextra, hhand, hwait, hregistered, hheld] at hrefs
  have hzero : (c.state.session s).refCount = 0 := by rw [hrefs]; rfl
  rw [hs.destroyed (hs.created.mpr (by rw [hstage]; simp)), if_pos hzero]

/-- One connection that reads one ordinary request. -/
def onePing : Inputs :=
  .ofLines fun s => if s = 0 then [.compatibility ⟨some (ascii "1"), some ⟨true, none, .ping, none⟩⟩]
    else []

/-- The client sends the line, the connection queues it, the worker answers it and is done before
the connection ends. -/
def pingInOrder : List (Party × Choice) :=
  steps (.client 0 0) 1 ++ steps (.connection 0) 6 ++ steps (.worker ⟨0, 0⟩) 7 ++
    steps (.connection 0) 4

theorem session_references_ping :
    ∃ c, (machine onePing).Reaches KeepsReferences onePing.start c ∧
      (c.state.session 0).destroyed = 1 ∧ (c.state.session 0).dangling = false := by
  obtain ⟨c, hc, htest⟩ := Machine.Reaches.exists_of_follow (M := machine onePing)
    KeepsReferences onePing.start pingInOrder
    (fun c => (c.state.session 0).destroyed = 1) (by decide +kernel)
  exact ⟨c, hc, of_decide_eq_true htest, (session_references hc 0).1⟩

/-- The connection ends while the worker still has its slot. -/
def pingTooLate : List (Party × Choice) :=
  steps (.client 0 0) 1 ++ steps (.connection 0) 10 ++ steps (.worker ⟨0, 0⟩) 4

theorem worker_reaches_destroyed_session :
    ∃ c, (machine onePing).Reaches Machine.anyStep onePing.start c ∧
      (c.state.session 0).dangling = true := by
  obtain ⟨c, hc, htest⟩ := Machine.Reaches.exists_of_follow (M := machine onePing)
    Machine.anyStep onePing.start pingTooLate
    (fun c => (c.state.session 0).dangling) (by decide +kernel)
  exact ⟨c, hc, htest⟩

end Muxly.Server
