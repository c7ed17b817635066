/-
# Muxly.Server.Registry -- what leaves the projection registry, and what it releases

Every handle in the registry holds a reference to its session. The ways out of the registry differ:
the close of a session, a close request, the stale handles of a broadcast. All of them take handles
out one by one and release one reference for each, which `Sheds` states session by session. `Backed`
says that a registered handle never holds the last reference, so that no way out destroys a session.
-/
import Mathlib.Data.List.Basic
import Muxly.Server.State

namespace Muxly.Server

open Muxly.Core Muxly.Daemon

/-! ## Lists that lose an element -/

/-- What is left after the first hit of a search is taken out. -/
theorem find?_split {α : Type} {q : α → Bool} {xs : List α} {x : α} (h : xs.find? q = some x) :
    ∃ before rest, xs = before ++ x :: rest ∧ xs.eraseP q = before ++ rest := by
  obtain ⟨hq, before, rest, rfl, hbefore⟩ := List.find?_eq_some_iff_append.mp h
  refine ⟨before, rest, rfl, ?_⟩
  rw [List.eraseP_append_right _ fun y hy => by simpa using hbefore y hy, List.eraseP_cons_of_pos hq]

theorem erase_split {α : Type} [DecidableEq α] {xs : List α} {x : α} (h : x ∈ xs) :
    ∃ before rest, xs = before ++ x :: rest ∧ xs.erase x = before ++ rest := by
  obtain ⟨before, rest, -, hxs, herase⟩ := List.exists_erase_eq h
  exact ⟨before, rest, hxs, herase⟩

/-! ## Sessions -/

namespace ConnectionSession

/-- What a release and a write leave as it was while the session lives. -/
structure Same (x x' : ConnectionSession) : Prop where
  created : x'.created = x.created
  pendingRequests : x'.pendingRequests = x.pendingRequests
  destroyed : x'.destroyed = x.destroyed
  dangling : x'.dangling = x.dangling

theorem Same.refl (x : ConnectionSession) : Same x x := ⟨rfl, rfl, rfl, rfl⟩

theorem Same.trans {x y z : ConnectionSession} (h : Same x y) (h' : Same y z) : Same x z :=
  ⟨h'.created.trans h.created, h'.pendingRequests.trans h.pendingRequests,
    h'.destroyed.trans h.destroyed, h'.dangling.trans h.dangling⟩

theorem Same.alive {x y : ConnectionSession} (h : Same x y) (ha : x.Alive) : y.Alive :=
  ⟨h.created.trans ha.1, h.destroyed.trans ha.2⟩

/-- A call on a session in memory is no dangling one. -/
theorem touch_of_alive {x : ConnectionSession} (h : x.Alive) : x.touch = x := by
  simp [touch, h]

/-- A release that is not the last. -/
theorem release_of_lt {x : ConnectionSession} (h : 1 < x.refCount) :
    x.release = { x with refCount := x.refCount - 1 } := by
  rw [release, if_neg (by omega)]

end ConnectionSession

/-! ## Shedding -/

namespace State

/-- How many projection handles of a session are registered. -/
def registered (st : State) (s : Nat) : Nat := st.projectionStreams.countP (·.session = s)

/-- How many requests of a session wait in the lanes. -/
def waiting (st : State) (s : Nat) : Nat := st.queued.countP (·.session = s)

@[simp] theorem onSession_session (st : State) (s t : Nat)
    (f : ConnectionSession → ConnectionSession) :
    (st.onSession s f).session t = if t = s then f (st.session s).touch else st.session t := by
  by_cases h : t = s
  · subst h
    simp [onSession]
  · simp [onSession, h]

@[simp] theorem onSession_projectionStreams (st : State) (s : Nat)
    (f : ConnectionSession → ConnectionSession) :
    (st.onSession s f).projectionStreams = st.projectionStreams := rfl

@[simp] theorem onSession_queued (st : State) (s : Nat)
    (f : ConnectionSession → ConnectionSession) : (st.onSession s f).queued = st.queued := rfl

@[simp] theorem onSession_waiting (st : State) (s t : Nat)
    (f : ConnectionSession → ConnectionSession) : (st.onSession s f).waiting t = st.waiting t := rfl

@[simp] theorem onSession_registered (st : State) (s t : Nat)
    (f : ConnectionSession → ConnectionSession) :
    (st.onSession s f).registered t = st.registered t := rfl

@[simp] theorem onProjection_session (st : State) (h : LineId)
    (f : ProjectionStreamHandle → ProjectionStreamHandle) :
    (st.onProjection h f).session = st.session := rfl

@[simp] theorem onProjection_projectionStreams (st : State) (h : LineId)
    (f : ProjectionStreamHandle → ProjectionStreamHandle) :
    (st.onProjection h f).projectionStreams = st.projectionStreams := rfl

@[simp] theorem onProjection_queued (st : State) (h : LineId)
    (f : ProjectionStreamHandle → ProjectionStreamHandle) :
    (st.onProjection h f).queued = st.queued := rfl

end State

/-- From `st` to `st'` a number of handles of session `s` leave the registry, each with its
reference, and nothing else about the references and slots of the session changes. -/
structure ShedsAt (s : Nat) (st st' : State) : Prop where
  waiting : st'.waiting s = st.waiting s
  same : ConnectionSession.Same (st.session s) (st'.session s)
  left : ∃ n, st'.registered s + n = st.registered s ∧
    (st'.session s).refCount + n = (st.session s).refCount

/-- `ShedsAt` for every session. -/
def Sheds (st st' : State) : Prop := ∀ s, ShedsAt s st st'

/-- A session with registered handles has one more reference at least. -/
def Backed (st : State) : Prop :=
  ∀ s, 0 < st.registered s → (st.session s).Alive ∧ st.registered s < (st.session s).refCount

theorem ShedsAt.of_eq {s : Nat} {st st' : State} (hq : st'.queued = st.queued)
    (hp : st'.projectionStreams = st.projectionStreams) (hs : st'.session s = st.session s) :
    ShedsAt s st st' where
  waiting := by rw [State.waiting, State.waiting, hq]
  same := hs ▸ .refl _
  left := ⟨0, by simp [State.registered, hp], by simp [hs]⟩

theorem ShedsAt.trans {s : Nat} {st st' st'' : State} (h : ShedsAt s st st')
    (h' : ShedsAt s st' st'') : ShedsAt s st st'' := by
  obtain ⟨n, hn, hrefs⟩ := h.left
  obtain ⟨m, hm, hrefs'⟩ := h'.left
  exact ⟨h'.waiting.trans h.waiting, h.same.trans h'.same, n + m, by omega, by omega⟩

theorem Sheds.refl (st : State) : Sheds st st := fun _ => .of_eq rfl rfl rfl

theorem Sheds.trans {st st' st'' : State} (h : Sheds st st') (h' : Sheds st' st'') :
    Sheds st st'' := fun s => (h s).trans (h' s)

theorem Backed.sheds {st st' : State} (hb : Backed st) (h : Sheds st st') : Backed st' := by
  intro s hpos
  obtain ⟨n, hn, hrefs⟩ := (h s).left
  obtain ⟨halive, hlt⟩ := hb s (by omega)
  exact ⟨(h s).same.alive halive, by omega⟩

/-- What a registry counts before and after one of its handles has left. -/
theorem registered_split {st : State} {h : LineId} {before rest : List LineId}
    (hsplit : st.projectionStreams = before ++ h :: rest) (s : Nat) :
    (before ++ rest).countP (fun l : LineId => l.session = s) + (if h.session = s then 1 else 0) =
      st.registered s := by
  simp only [State.registered, hsplit, List.countP_append, List.countP_cons, decide_eq_true_eq]
  omega

/-- One handle leaves the registry and is deinitialised. -/
theorem Backed.drop {st : State} (hb : Backed st) {h : LineId} {before rest : List LineId}
    (hsplit : st.projectionStreams = before ++ h :: rest) :
    Sheds st ({ st with projectionStreams := before ++ rest }.projectionDeinit h) := by
  intro s
  have hcount := registered_split hsplit s
  by_cases hs : h.session = s
  · rw [if_pos hs] at hcount
    obtain ⟨halive, hlt⟩ := hb s (by omega)
    have hrelease : (st.session s).touch.release =
        { st.session s with refCount := (st.session s).refCount - 1 } := by
      rw [ConnectionSession.touch_of_alive halive, ConnectionSession.release_of_lt (by omega)]
    have hsession : ({ st with projectionStreams := before ++ rest }.projectionDeinit h).session s =
        { st.session s with refCount := (st.session s).refCount - 1 } := by
      simp [State.projectionDeinit, hs, ← hrelease]
    refine ⟨rfl, ?_, 1, hcount, ?_⟩
    · rw [hsession]
      exact ⟨rfl, rfl, rfl, rfl⟩
    · rw [hsession]
      show (st.session s).refCount - 1 + 1 = _
      omega
  · rw [if_neg hs] at hcount
    have hsession : ({ st with projectionStreams := before ++ rest }.projectionDeinit h).session s =
        st.session s := by
      simp [State.projectionDeinit, Ne.symm hs]
    exact ⟨rfl, hsession ▸ .refl _, 0, hcount, by rw [hsession]; rfl⟩

/-- A call on a live session that leaves its references and slots. -/
theorem Sheds.onSession {st : State} {s : Nat} (halive : (st.session s).Alive)
    {f : ConnectionSession → ConnectionSession} (hsame : ∀ x, ConnectionSession.Same x (f x))
    (hrefs : ∀ x, (f x).refCount = x.refCount) : Sheds st (st.onSession s f) := by
  intro t
  by_cases ht : t = s
  · subst ht
    have hsession : (st.onSession t f).session t = f (st.session t) := by
      simp [ConnectionSession.touch_of_alive halive]
    exact ⟨rfl, hsession ▸ hsame _, 0, rfl, by rw [hsession, hrefs]; rfl⟩
  · exact .of_eq rfl rfl (by simp [ht])

/-- A write to a live session. -/
theorem Sheds.writeFrame {st : State} {origin : LineId}
    (halive : (st.session origin.session).Alive) (role : Role) (frame : Frame) (succeeds : Bool) :
    Sheds st (st.writeFrame origin role frame succeeds).2 := by
  unfold State.writeFrame
  split
  · exact .onSession halive (fun _ => .refl _) fun _ => rfl
  · split
    · exact .onSession halive (f := fun session => { session with broken := true })
        (fun _ => ⟨rfl, rfl, rfl, rfl⟩) fun _ => rfl
    · have h : Sheds st (st.onSession origin.session id) :=
        .onSession halive (fun _ => .refl _) fun _ => rfl
      exact fun s => ⟨(h s).waiting, (h s).same, (h s).left⟩

@[simp] theorem writeFrame_projectionStreams (st : State) (origin : LineId) (role : Role)
    (frame : Frame) (succeeds : Bool) :
    (st.writeFrame origin role frame succeeds).2.projectionStreams = st.projectionStreams := by
  unfold State.writeFrame
  split
  · rfl
  · split <;> rfl

@[simp] theorem writeFrame_queued (st : State) (origin : LineId) (role : Role) (frame : Frame)
    (succeeds : Bool) : (st.writeFrame origin role frame succeeds).2.queued = st.queued := by
  unfold State.writeFrame
  split
  · rfl
  · split <;> rfl

theorem writeFrame_session_of_ne {st : State} {origin : LineId} (role : Role) (frame : Frame)
    (succeeds : Bool) {s : Nat} (h : s ≠ origin.session) :
    (st.writeFrame origin role frame succeeds).2.session s = st.session s := by
  unfold State.writeFrame
  split
  · simp [h]
  · split <;> simp [h]

/-! ## Ways out -/

/-- A state that is reached by writes to registered handles and by taking handles out of the
registry one by one. -/
inductive Exits (st : State) : State → Prop
  | refl : Exits st st
  | write {st' : State} {h : LineId} (role : Role) (frame : Frame) (succeeds : Bool) :
      Exits st st' → h ∈ st'.projectionStreams →
      Exits st (st'.writeFrame h role frame succeeds).2
  | drop {st' : State} {before rest : List LineId} {h : LineId} :
      Exits st st' → st'.projectionStreams = before ++ h :: rest →
      Exits st ({ st' with projectionStreams := before ++ rest }.projectionDeinit h)

theorem Exits.projectionUnregister {st st' : State} (h : Exits st st') (conversationId : Bytes) :
    Exits st (st'.projectionUnregister conversationId).2 := by
  unfold State.projectionUnregister
  split
  · rename_i l hfind
    obtain ⟨before, rest, hsplit, herase⟩ := find?_split hfind
    simp only [herase]
    exact h.drop hsplit
  · exact h

/-- `ProjectionStreamRegistry.closeSession`. -/
theorem exits_closeSession (st : State) (s : Nat) : Exits st (st.closeSession s) := by
  unfold State.closeSession
  suffices hfold : ∀ (hs : List LineId) (st' : State), Exits st st' →
      List.Sublist hs st'.projectionStreams → Exits st (hs.foldl State.dropStream st') from
    hfold _ st .refl List.filter_sublist
  intro hs
  induction hs with
  | nil => intro st' h _; exact h
  | cons l rest ih =>
      intro st' h hsub
      obtain ⟨before, after, hsplit, herase⟩ := erase_split (hsub.subset (List.mem_cons_self ..))
      refine ih _ ?_ ?_
      · rw [State.dropStream, herase]
        exact h.drop hsplit
      · show rest.Sublist (st'.projectionStreams.erase l)
        simpa using hsub.erase l

/-- The sending loop of a broadcast. -/
theorem Exits.sendEvents {st : State} (choice : Choice) (hs : List LineId)
    {acc : State × List Bytes} (h : Exits st acc.1) (hsub : hs ⊆ acc.1.projectionStreams) :
    Exits st (hs.foldl (State.sendEvent choice) acc).1 := by
  induction hs generalizing acc with
  | nil => exact h
  | cons l rest ih =>
      obtain ⟨hl, hrest⟩ := List.cons_subset.mp hsub
      refine ih ?_ ?_
      · unfold State.sendEvent
        split
        · exact h.write .data (acc.1.eventFrame l) (!choice.fails l) hl
        · exact h
      · unfold State.sendEvent
        split
        · simpa using hrest
        · exact hrest

/-- `ProjectionStreamRegistry.broadcast`. -/
theorem exits_broadcast (st : State) (choice : Choice) : Exits st (st.broadcast choice) := by
  have hsent := @Exits.sendEvents st choice st.projectionStreams (st, []) .refl fun _ h => h
  have hstale : ∀ (stale : List Bytes) (st' : State), Exits st st' →
      Exits st (stale.foldl (fun st conversationId =>
        (st.projectionUnregister conversationId).2) st') := by
    intro stale
    induction stale with
    | nil => intro st' h; exact h
    | cons conversationId rest ih =>
        intro st' h
        exact ih _ (h.projectionUnregister conversationId)
  exact hstale _ _ hsent

/-- No way out destroys a session or miscounts one. -/
theorem Backed.exits {st st' : State} (hb : Backed st) (h : Exits st st') : Sheds st st' := by
  induction h with
  | refl => exact .refl st
  | write role frame succeeds _ hmem ih =>
      refine ih.trans (Sheds.writeFrame ?_ role frame succeeds)
      exact ((hb.sheds ih) _ (List.countP_pos_iff.mpr ⟨_, hmem, by simp⟩)).1
  | drop _ hsplit ih => exact ih.trans ((hb.sheds ih).drop hsplit)

/-- A session loses all its handles when it is closed. -/
theorem registered_closeSession (st : State) (s : Nat) : (st.closeSession s).registered s = 0 := by
  suffices hfold : ∀ (hs : List LineId) (st : State), List.Sublist hs st.projectionStreams →
      (∀ h ∈ hs, h.session = s) →
      (hs.foldl State.dropStream st).registered s + hs.length = st.registered s by
    have hall : ∀ h ∈ st.projectionStreams.filter (·.session = s), h.session = s :=
      fun h hh => of_decide_eq_true (List.mem_filter.mp hh).2
    have hlength : (st.projectionStreams.filter (·.session = s)).length = st.registered s :=
      (List.countP_eq_length_filter ..).symm
    have := hfold _ st List.filter_sublist hall
    rw [State.closeSession]
    omega
  intro hs
  induction hs with
  | nil => intro st _ _; rfl
  | cons h rest ih =>
      intro st hsub hsession
      obtain ⟨before, after, hsplit, herase⟩ := erase_split (hsub.subset (List.mem_cons_self ..))
      have hdrop := registered_split hsplit s
      rw [if_pos (hsession h (List.mem_cons_self ..)), ← herase] at hdrop
      have hrest := ih (st.dropStream h) (by
        show rest.Sublist (st.projectionStreams.erase h)
        simpa using hsub.erase h) fun l hl => hsession l (List.mem_cons_of_mem _ hl)
      have hcount : (st.dropStream h).registered s =
        (st.projectionStreams.erase h).countP fun l => l.session = s := rfl
      rw [List.foldl_cons, List.length_cons]
      omega

end Muxly.Server
