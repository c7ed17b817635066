/-
# Muxly.Daemon.Invalidation -- no invalidation of the tmux projection is lost

After an invalidation every known session projection has to be reconciled against a listing made
since, before the state is clean again. The pump does so. An explicit rebuild sets the state to clean
after it has reconciled one session, with or without a control connection; it loses nothing when
`Allows` holds.
-/
import Muxly.Daemon.KnownProjections

namespace Muxly.Daemon

open Muxly.Control Muxly.Core Muxly.Sync Muxly.Tree
open Action Document

/-! ## Histories -/

/-- `invalidateTmuxProjection` was called. -/
def Mark.isInvalidation : Mark → Bool
  | .invalidated _ => true
  | _ => false

/-- The control connection was lost. -/
def Mark.isDisconnect : Mark → Bool
  | .invalidated cause => cause = .invalidatedByControlDisconnect
  | _ => false

/-- What happened after the last invalidation. -/
def sinceInvalidation (marks : List Mark) : List Mark := marks.takeWhile (!·.isInvalidation)

/-- What happened after the last loss of the control connection. -/
def sinceDisconnect (marks : List Mark) : List Mark := marks.takeWhile (!·.isDisconnect)

/-- The state that a history leads to. -/
def stateAfter : List Mark → TmuxProjectionState
  | [] => .clean
  | .invalidated cause :: older =>
    if cause = .invalidatedByControlDisconnect then cause
    else if stateAfter older = .clean then cause
    else stateAfter older
  | .cleaned _ _ :: _ => .clean
  | _ :: older => stateAfter older

/-- A projection was reconciled, after the last invalidation, against a listing made after it. -/
def UpToDate (marks : List Mark) (parentId : Nat) (sessionId : Bytes) : Prop :=
  ∃ serial, .reconciled parentId sessionId serial ∈ sinceInvalidation marks ∧
    .listed serial ∈ sinceInvalidation marks

/-- The state may go from `before` to clean with the document. -/
structure Justified (marks : List Mark) (before : TmuxProjectionState) (d : Document) : Prop where
  upToDate : before ≠ .clean → ∀ p t, KnownProjection d p t → UpToDate marks p t
  attached : before = .invalidatedByControlDisconnect → .attached ∈ sinceDisconnect marks

/-- Whenever the state was set to clean it could be. -/
def NeverLost (marks : List Mark) : Prop :=
  ∀ newer before d older, marks = newer ++ .cleaned before d :: older →
    stateAfter older = before ∧ Justified older before d

section Histories

variable {marks : List Mark} {m : Mark}

theorem mem_sinceInvalidation_cons (hm : m.isInvalidation = false) {m' : Mark} :
    m' ∈ sinceInvalidation (m :: marks) ↔ m' = m ∨ m' ∈ sinceInvalidation marks := by
  rw [sinceInvalidation, List.takeWhile_cons_of_pos (by simp [hm]), List.mem_cons]
  rfl

theorem mem_sinceDisconnect_cons (hm : m.isDisconnect = false) {m' : Mark} :
    m' ∈ sinceDisconnect (m :: marks) ↔ m' = m ∨ m' ∈ sinceDisconnect marks := by
  rw [sinceDisconnect, List.takeWhile_cons_of_pos (by simp [hm]), List.mem_cons]
  rfl

theorem isDisconnect_of_isInvalidation (hm : m.isInvalidation = false) : m.isDisconnect = false := by
  cases m with
  | invalidated cause => cases hm
  | listed serial => rfl
  | reconciled p t serial => rfl
  | attached => rfl
  | cleaned before d => rfl

theorem UpToDate.cons (hm : m.isInvalidation = false) {p : Nat} {t : Bytes}
    (h : UpToDate marks p t) : UpToDate (m :: marks) p t := by
  obtain ⟨serial, hreconciled, hlisted⟩ := h
  exact ⟨serial, (mem_sinceInvalidation_cons hm).mpr (.inr hreconciled),
    (mem_sinceInvalidation_cons hm).mpr (.inr hlisted)⟩

theorem neverLost_nil : NeverLost [] := by
  intro newer before d older h
  cases newer <;> cases h

theorem NeverLost.cons (h : NeverLost marks) (hm : ∀ before d, m ≠ .cleaned before d) :
    NeverLost (m :: marks) := by
  intro newer before d older heq
  cases newer with
  | nil =>
      cases heq
      exact absurd rfl (hm before d)
  | cons m' newer =>
      cases heq
      exact h newer before d older rfl

theorem NeverLost.cleaned (h : NeverLost marks) {before : TmuxProjectionState} {d : Document}
    (hbefore : stateAfter marks = before) (hjustified : Justified marks before d) :
    NeverLost (.cleaned before d :: marks) := by
  intro newer before' d' older heq
  cases newer with
  | nil =>
      cases heq
      exact ⟨hbefore, hjustified⟩
  | cons m' newer =>
      cases heq
      exact h newer before' d' older rfl

end Histories

/-! ## The invariant -/

/-- What holds between two steps. -/
structure Inv (s : TmuxStore) : Prop where
  sane : Sane s.entry
  state : s.tmuxProjectionState = stateAfter s.marks
  attached : s.controlConnection = true → .attached ∈ sinceDisconnect s.marks
  neverLost : NeverLost s.marks

/-- The snapshots are from a listing made after the last invalidation. -/
def FreshListing (s : TmuxStore) : Prop := .listed s.serial ∈ sinceInvalidation s.marks

/-- Every known projection is up to date. -/
def Current (s : TmuxStore) : Prop :=
  ∀ p t, KnownProjection s.entry.document p t → UpToDate s.marks p t

theorem inv_init (title : Bytes) (maxContentBytes : UInt64) :
    Inv (TmuxStore.init title maxContentBytes) where
  sane := sane_cappedEntry rootDocumentPath 1 title maxContentBytes
  state := rfl
  attached h := by cases h
  neverLost := neverLost_nil

/-- Something happens that neither invalidates nor cleans the state. -/
theorem Inv.push {s : TmuxStore} (h : Inv s) {m : Mark} (hm : m.isInvalidation = false)
    (hclean : ∀ before d, m ≠ .cleaned before d) {s' : TmuxStore} (hsane : Sane s'.entry)
    (hmarks : s'.marks = m :: s.marks) (hstate : s'.tmuxProjectionState = s.tmuxProjectionState)
    (hconnection : s'.controlConnection = true → s.controlConnection = true ∨ m = .attached) :
    Inv s' where
  sane := hsane
  state := by
    rw [hstate, h.state, hmarks]
    cases m with
    | invalidated cause => cases hm
    | cleaned before d => exact absurd rfl (hclean before d)
    | listed serial => rfl
    | reconciled p t serial => rfl
    | attached => rfl
  attached hc := by
    rw [hmarks, mem_sinceDisconnect_cons (isDisconnect_of_isInvalidation hm)]
    exact (hconnection hc).elim (fun hc => .inr (h.attached hc)) fun hm => .inl hm.symm
  neverLost := by
    rw [hmarks]
    exact h.neverLost.cons hclean

/-- The document changes. -/
theorem Inv.onEntry {s : TmuxStore} (h : Inv s) {e : DocumentEntry} (he : Sane e) :
    Inv { s with entry := e } := ⟨he, h.state, h.attached, h.neverLost⟩

/-- An invalidation; with the connection when that is what was lost. -/
theorem Inv.invalidate {s : TmuxStore} (h : Inv s) {cause : TmuxProjectionState} {connection : Bool}
    (hconnection : connection = true →
      s.controlConnection = true ∧ cause ≠ .invalidatedByControlDisconnect) :
    Inv { s with
      controlConnection := connection
      tmuxProjectionState := stateAfter (.invalidated cause :: s.marks)
      marks := .invalidated cause :: s.marks } where
  sane := h.sane
  state := rfl
  attached hc := by
    obtain ⟨hbefore, hcause⟩ := hconnection hc
    have hkept : (Mark.invalidated cause).isDisconnect = false := decide_eq_false hcause
    exact (mem_sinceDisconnect_cons hkept).mpr (.inr (h.attached hbefore))
  neverLost := h.neverLost.cons fun _ _ => nofun

/-- The state is set to clean. -/
theorem Inv.cleaned {s : TmuxStore} (h : Inv s)
    (hjustified : Justified s.marks s.tmuxProjectionState s.entry.document) :
    Inv { s with
      tmuxProjectionState := .clean
      marks := .cleaned s.tmuxProjectionState s.entry.document :: s.marks } where
  sane := h.sane
  state := rfl
  attached hc := (mem_sinceDisconnect_cons rfl).mpr (.inr (h.attached hc))
  neverLost := h.neverLost.cleaned h.state.symm hjustified

/-! ## Listing and attaching -/

/-- An assertion that holds on when the panes are listed or a connection is attached. -/
structure Unaffected (J : TmuxStore → Prop) : Prop where
  cleared : ∀ s, J s → J { s with tmuxPaneSnapshots := [] }
  listed : ∀ s snapshots, J s → J { s with
    tmuxPaneSnapshots := snapshots
    serial := Pump.listings s.marks
    marks := .listed (Pump.listings s.marks) :: s.marks }
  attached : ∀ s, J s → J { s with controlConnection := true, marks := .attached :: s.marks }

theorem unaffected_inv : Unaffected Inv where
  cleared _ h := ⟨h.sane, h.state, h.attached, h.neverLost⟩
  listed s _ h :=
    h.push (m := .listed (Pump.listings s.marks)) rfl (fun _ _ => nofun) h.sane rfl rfl .inl
  attached _ h := h.push (m := .attached) rfl (fun _ _ => nofun) h.sane rfl rfl fun _ => .inr rfl

theorem unaffected_fresh : Unaffected fun s => Inv s ∧ FreshListing s where
  cleared s h := ⟨unaffected_inv.cleared s h.1, h.2⟩
  listed s snapshots h :=
    ⟨unaffected_inv.listed s snapshots h.1, (mem_sinceInvalidation_cons rfl).mpr (.inl rfl)⟩
  attached s h := ⟨unaffected_inv.attached s h.1, (mem_sinceInvalidation_cons rfl).mpr (.inr h.2)⟩

namespace Pump

variable {w : TmuxEnv}

section Unaffected

variable {J : TmuxStore → Prop} (hJ : Unaffected J)
include hJ

theorem keeps_refreshTmuxPaneSnapshots (place : Nat) :
    Keeps J (refreshTmuxPaneSnapshots w place) := by
  refine (keeps_of fun s hs => hJ.cleared s hs).bind always_progress fun _ => ?_
  refine (advances_lift always_progress _).bind always_progress fun snapshots => ?_
  exact keeps_of fun s hs => hJ.listed s snapshots hs

theorem keeps_ensureControlConnection (place : Nat) (sessionName : Bytes) :
    Keeps J (ensureControlConnection w place sessionName) := by
  refine (keeps_of fun s hs => hs : Keeps J get).bind always_progress fun s => ?_
  split
  · exact advances_pure always_progress _
  · refine (advances_lift always_progress _).bind always_progress fun made => ?_
    split
    · exact keeps_of fun s hs => hJ.attached s hs
    · exact advances_pure always_progress _

theorem keeps_listIfEmpty (place : Nat) : Keeps J (listIfEmpty w place) := by
  refine (keeps_of fun s hs => hs : Keeps J get).bind always_progress fun s => ?_
  split
  · exact keeps_refreshTmuxPaneSnapshots hJ place
  · exact advances_pure always_progress _

theorem keeps_ensureForKnownTmuxState (place : Nat) :
    Keeps J (ensureControlConnectionForKnownTmuxState w place) := by
  refine (keeps_of fun s hs => hs : Keeps J get).bind always_progress fun s => ?_
  split
  · exact advances_pure always_progress _
  · refine (keeps_listIfEmpty hJ place).bind always_progress fun _ => ?_
    refine (keeps_of fun s hs => hs : Keeps J get).bind always_progress fun s => ?_
    split
    · exact advances_pure always_progress _
    · exact keeps_ensureControlConnection hJ place _

end Unaffected

/-- What a listing that succeeds leaves. -/
theorem refreshTmuxPaneSnapshots_ok {place : Nat} {s s' : TmuxStore}
    (h : refreshTmuxPaneSnapshots w place s = (.ok (), s')) :
    w.listPaneSnapshots place = .ok s'.tmuxPaneSnapshots ∧
      s' = { s with
        tmuxPaneSnapshots := s'.tmuxPaneSnapshots
        serial := listings s.marks
        marks := .listed (listings s.marks) :: s.marks } := by
  unfold refreshTmuxPaneSnapshots at h
  rw [bind_apply, modify_apply, next_ok, bind_apply, lift_apply] at h
  rcases hlist : w.listPaneSnapshots place with f | snapshots
  · rw [hlist] at h
    cases h
  · rw [hlist, next_ok, modify_apply] at h
    cases h
    exact ⟨rfl, rfl⟩

/-! ## The document -/

/-- A reading of the document. -/
theorem onEntry_view {α : Type} (f : DocumentEntry → Except Failure α) :
    onEntry (Action.view f) = Action.view fun s => f s.entry := rfl

/-- Sound code on the document keeps the invariant. -/
theorem inv_onEntry {α : Type} {f : EntryAction α} (hf : SoundEntry f) : Keeps Inv (onEntry f) :=
  keeps_of fun s hs => hs.onEntry (hf s.entry hs.sane).1

theorem inv_refreshSources (visit : Nat) : Keeps Inv (refreshSources w visit) :=
  (inv_onEntry (Sequential.sound_refreshSourcesForDocument w.env visit)).bind always_progress
    fun _ => advances_lift always_progress _

/-- Code that leaves the outline of the document as it is. -/
abbrev SameOutline {α : Type} (f : EntryAction α) : Prop :=
  Advances (fun _ => True) (fun e e' => outline e'.document = outline e.document) f

theorem outline_progress :
    Progress fun e e' : DocumentEntry => outline e'.document = outline e.document where
  refl _ := rfl
  trans h h' := h'.trans h

theorem sameOutline_replace (x : Nat) (content : Bytes) :
    SameOutline (Sequential.replaceNodeContentWithAccounting x content) :=
  (advances_view outline_progress _).bind outline_progress fun _ e _ =>
    ⟨trivial, (writesContent_replace x content).outline_eq e.document⟩

theorem sameOutline_refreshSource (env : Env) (visit x : Nat) :
    SameOutline (Sequential.refreshSource env visit x) := by
  refine (advances_view outline_progress _).bind outline_progress fun node => ?_
  split
  · refine (sameOutline_replace x _).bind outline_progress fun changed => ?_
    split
    · exact advances_view outline_progress _
    · exact advances_pure outline_progress _
  · exact advances_pure outline_progress _

theorem sameOutline_refreshSourcesForDocument (env : Env) (visit : Nat) :
    SameOutline (Sequential.refreshSourcesForDocument env visit) :=
  (advances_view outline_progress _).bind outline_progress fun _ =>
    Advances.forM_of outline_progress fun x _ => sameOutline_refreshSource env visit x

/-- The invariant, with every known projection up to date. -/
def Ready (s : TmuxStore) : Prop := Inv s ∧ Current s

theorem ready_refreshSources (visit : Nat) : Keeps Ready (refreshSources w visit) := by
  refine Advances.bind always_progress (keeps_of fun s hs => ?_) fun _ =>
    advances_lift always_progress _
  have hsame : outline (onEntry (Sequential.refreshSourcesForDocument w.env visit) s).2.entry.document
      = outline s.entry.document :=
    (sameOutline_refreshSourcesForDocument w.env visit s.entry trivial).2
  refine ⟨hs.1.onEntry (Sequential.sound_refreshSourcesForDocument w.env visit s.entry
    hs.1.sane).1, fun p t hknown => ?_⟩
  exact hs.2 p t ((knownProjection_of_outline hsame).mp hknown)

/-! ## Events -/

/-- The invariant while the connection is read. -/
def Connected (s : TmuxStore) : Prop := Inv s ∧ s.controlConnection = true

theorem connected_onEntry {α : Type} {f : EntryAction α} (hf : SoundEntry f) :
    Keeps Connected (onEntry f) :=
  keeps_of fun s hs => ⟨hs.1.onEntry (hf s.entry hs.1.sane).1, hs.2⟩

theorem invalidate_eq (cause : TmuxProjectionState) (s : TmuxStore) :
    Inv s → invalidateTmuxProjection cause s = (.ok ⟨⟩, { s with
      tmuxProjectionState := stateAfter (.invalidated cause :: s.marks)
      marks := .invalidated cause :: s.marks }) := by
  intro hs
  rw [stateAfter, ← hs.state]
  rfl

theorem connected_invalidate :
    Keeps Connected (invalidateTmuxProjection .invalidatedByNotification) := by
  refine keeps_of fun s hs => ?_
  rw [invalidate_eq _ s hs.1]
  refine ⟨?_, hs.2⟩
  exact hs.1.invalidate fun hc => ⟨hc, by decide⟩

theorem connected_tryApply (env : Env) (name payload : Bytes) :
    Keeps Connected (tryApplyIncrementalNotification env name payload) := by
  unfold tryApplyIncrementalNotification
  split
  · split
    · exact connected_onEntry (Sequential.sound_tryApplyWindowRenamed env _ _)
    · exact advances_pure always_progress _
  · split
    · split
      · exact (connected_onEntry (Sequential.sound_tryApplyWindowClose env _)).bind always_progress
          fun _ => advances_pure always_progress _
      · exact advances_pure always_progress _
    · exact advances_pure always_progress _

theorem connected_handleEvent (env : Env) (event : ControlEvent) :
    Keeps Connected (handleEvent env event) := by
  cases event with
  | paneOutput paneId normalized =>
      refine Advances.tryCatch always_progress
        (connected_onEntry (Sequential.sound_appendTmuxPaneOutput env paneId normalized)) ?_
      intro failure
      cases failure with
      | error e => exact connected_invalidate
      | panic p => exact advances_throw always_progress _
      | outOfFuel => exact advances_throw always_progress _
  | notification name payload =>
      refine (connected_tryApply env name payload).bind always_progress fun applied => ?_
      split
      · exact connected_invalidate
      · exact advances_pure always_progress _
  | exit => exact advances_pure always_progress _
  | other => exact advances_pure always_progress _

/-- When the connection exits, the invariant holds once it is dropped. -/
theorem triple_drainEvents (events : List ControlEvent) :
    Triple Connected (drainEvents w events)
      (fun exited s => Inv { s with controlConnection := !exited }) Inv := by
  induction events with
  | nil =>
      refine Triple.bind (Q := fun _ => Connected)
        (triple_lift (fun s _ hs _ => hs) fun s hs => hs.1) fun _ => ?_
      exact triple_pure fun s hs => ⟨hs.1.sane, hs.1.state, fun _ => hs.1.attached hs.2, hs.1.neverLost⟩
  | cons event rest ih =>
      have hturn : Triple Connected (handleEvent w.env event >>= fun _ => drainEvents w rest)
          (fun exited s => Inv { s with controlConnection := !exited }) Inv :=
        ((connected_handleEvent w.env event).triple.stops fun _ hs => hs.1).bind fun _ => ih
      cases event with
      | exit =>
          intro s hs
          show Inv { s with
            controlConnection := false
            tmuxProjectionState := .invalidatedByControlDisconnect
            marks := .invalidated .invalidatedByControlDisconnect :: s.marks }
          have hlost : (false : Bool) = true → s.controlConnection = true ∧
              TmuxProjectionState.invalidatedByControlDisconnect
                ≠ .invalidatedByControlDisconnect := nofun
          exact hs.1.invalidate hlost
      | paneOutput paneId normalized => exact hturn
      | notification name payload => exact hturn
      | other => exact hturn

theorem inv_drainConnection : Keeps Inv (drainConnection w) := by
  apply Triple.keeps
  refine triple_getting fun s₀ => ?_
  split
  · rename_i hc
    have hconnected : ∀ s, Inv s ∧ s = s₀ → Connected s := by
      rintro s ⟨hs, rfl⟩
      exact ⟨hs, hc⟩
    refine Triple.bind ((triple_drainEvents w.events).pre hconnected) fun exited => ?_
    exact triple_modify fun s hs => hs
  · exact triple_pure fun s hs => hs.1

/-! ## The pump -/

/-- What one turn of the loop leaves. -/
theorem reconcileProjection_ok {ref : SessionProjectionRef} {s s' : TmuxStore}
    (h : reconcileProjection ref s = (.ok (), s')) :
    ∃ d', Sequential.reconcileProjection s.tmuxPaneSnapshots ref s.entry.document = (.ok (), d') ∧
      s' = { s with
        entry := { s.entry with document := d' }
        marks := .reconciled ref.parentId ref.sessionId s.serial :: s.marks } := by
  unfold reconcileProjection at h
  rw [bind_apply, get_apply, next_ok, bind_apply] at h
  rcases hpass : Sequential.reconcileProjection s.tmuxPaneSnapshots ref s.entry.document
    with ⟨f | _, d'⟩
  · have hentry : onEntry (DocumentEntry.onDocument (Sequential.reconcileProjection
        s.tmuxPaneSnapshots ref)) s
        = (.error f, { s with entry := { s.entry with document := d' } }) := by
      show (_, _) = _
      simp only [DocumentEntry.onDocument, hpass]
    rw [hentry] at h
    cases h
  · have hentry : onEntry (DocumentEntry.onDocument (Sequential.reconcileProjection
        s.tmuxPaneSnapshots ref)) s
        = (.ok (), { s with entry := { s.entry with document := d' } }) := by
      show (_, _) = _
      simp only [DocumentEntry.onDocument, hpass]
    rw [hentry, next_ok] at h
    cases h
    exact ⟨d', rfl, rfl⟩

theorem inv_mark {m : Mark} (hm : m.isInvalidation = false)
    (hclean : ∀ before d, m ≠ .cleaned before d) : Keeps Inv (mark m) :=
  keeps_of fun _ hs => hs.push hm hclean hs.sane rfl rfl .inl

theorem inv_reconcileProjection (ref : SessionProjectionRef) :
    Keeps Inv (reconcileProjection ref) := by
  refine (keeps_of fun s hs => hs : Keeps Inv get).bind always_progress fun s => ?_
  refine (inv_onEntry (soundEntry_onDocument
    (Sequential.settled_reconcileProjection s.tmuxPaneSnapshots ref))).bind always_progress
    fun _ => ?_
  exact inv_mark rfl fun _ _ => nofun

/-- After some turns: the listing is fresh, the projections are among those the loop goes over, and
those it is done with were reconciled against the listing. -/
structure Passed (refs done : List SessionProjectionRef) (s : TmuxStore) : Prop where
  fresh : FreshListing s
  known : ∀ p t, KnownProjection s.entry.document p t →
    ∃ ref ∈ refs, ref.parentId = p ∧ ref.sessionId = t
  reconciled : ∀ ref ∈ done,
    .reconciled ref.parentId ref.sessionId s.serial ∈ sinceInvalidation s.marks

theorem passed_turn {refs done : List SessionProjectionRef} {ref : SessionProjectionRef}
    (href : ref ∈ refs) {s s' : TmuxStore} (hs : Inv s) (h : Passed refs done s)
    (hturn : reconcileProjection ref s = (.ok (), s')) : Passed refs (done ++ [ref]) s' := by
  obtain ⟨d', hpass, rfl⟩ := reconcileProjection_ok hturn
  have hkeep : ∀ {m}, m ∈ sinceInvalidation s.marks → m ∈ sinceInvalidation
      (.reconciled ref.parentId ref.sessionId s.serial :: s.marks) :=
    fun hm => (mem_sinceInvalidation_cons rfl).mpr (.inr hm)
  refine ⟨hkeep h.fresh, fun p t hknown => ?_, fun r hr => ?_⟩
  · rcases known_of_reconcileProjection hs.sane.valid hpass hknown with hbefore | ⟨rfl, rfl⟩
    · exact h.known p t hbefore
    · exact ⟨ref, href, rfl, rfl⟩
  · rcases List.mem_append.mp hr with hr | hr
    · exact hkeep (h.reconciled r hr)
    · rw [List.mem_singleton.mp hr]
      exact (mem_sinceInvalidation_cons rfl).mpr (.inl rfl)

theorem triple_reconcileKnownTmuxProjections :
    Triple (fun s => Inv s ∧ FreshListing s) reconcileKnownTmuxProjections (fun _ => Ready)
      Inv := by
  refine Triple.bind (Q := fun refs s => Inv s ∧ Passed refs [] s) ?_ fun refs => ?_
  · rw [onEntry_view]
    refine triple_view (fun s refs hs hlist => ?_) fun s hs => hs.1
    refine ⟨hs.1, hs.2, fun p t hknown => ?_, fun _ hr => by cases hr⟩
    exact mem_listSessionProjections hs.1.sane.valid hlist hknown
  · refine Triple.bind (triple_forM (fun done s => Inv s ∧ Passed refs done s) refs ?_) fun _ => ?_
    · intro done ref rest hrefs
      have href : ref ∈ refs := by
        rw [hrefs]
        exact List.mem_append_right _ (List.mem_cons_self ..)
      exact (inv_reconcileProjection ref).triple_of fun s _ s' hpassed hs hturn hs' =>
        ⟨hs', passed_turn href hs hpassed hturn⟩
    · intro s hs
      refine ⟨hs.1.onEntry ⟨hs.1.sane.valid, hs.1.sane.tidy⟩, fun p t hknown => ?_⟩
      obtain ⟨ref, href, rfl, rfl⟩ := hs.2.known p t hknown
      exact ⟨s.serial, hs.2.reconciled ref href, hs.2.fresh⟩

theorem triple_setCleanIfAttached : Triple Ready setCleanIfAttached (fun _ => Inv) Inv := by
  refine triple_getting fun s₀ => ?_
  split
  · rename_i hc
    refine triple_modify fun s hs => ?_
    obtain ⟨⟨hinv, hcurrent⟩, rfl⟩ := hs
    exact hinv.cleaned ⟨fun _ => hcurrent, fun _ => hinv.attached hc⟩
  · exact triple_pure fun s hs => hs.1.1

theorem fresh_reattach : Keeps (fun s => Inv s ∧ FreshListing s) (reattach w) := by
  refine (keeps_of fun s hs => hs : Keeps (fun s => Inv s ∧ FreshListing s) get).bind
    always_progress fun s => ?_
  split
  · exact keeps_ensureForKnownTmuxState unaffected_fresh 2
  · exact advances_pure always_progress _

theorem triple_refreshTmuxPaneSnapshots (place : Nat) :
    Triple Inv (refreshTmuxPaneSnapshots w place) (fun _ s => Inv s ∧ FreshListing s) Inv := by
  refine ((keeps_refreshTmuxPaneSnapshots unaffected_inv place).triple_of (P := fun _ => True)
    fun s _ s' _ _ h hs' => ?_).pre fun _ hs => ⟨hs, trivial⟩
  obtain ⟨-, heq⟩ := refreshTmuxPaneSnapshots_ok h
  refine ⟨hs', ?_⟩
  rw [heq]
  exact (mem_sinceInvalidation_cons rfl).mpr (.inl rfl)

/-- The pump keeps the invariant: when it cleans the state, it has reconciled every projection. -/
theorem inv_pumpTmuxBackend : Keeps Inv (pumpTmuxBackend w) := by
  apply Triple.keeps
  refine (keeps_ensureForKnownTmuxState unaffected_inv 0).triple.bind fun _ => ?_
  refine inv_drainConnection.triple.bind fun _ => ?_
  refine triple_getting fun s₀ => ?_
  split
  · exact triple_pure fun s hs => hs.1
  · refine Triple.bind ((triple_refreshTmuxPaneSnapshots 1).pre fun _ hs => hs.1) fun _ => ?_
    refine Triple.bind (fresh_reattach.triple.stops fun _ hs => hs.1) fun _ => ?_
    refine triple_reconcileKnownTmuxProjections.bind fun _ => ?_
    refine Triple.bind ((ready_refreshSources 0).triple.stops fun _ hs => hs.1) fun _ => ?_
    exact triple_setCleanIfAttached

end Pump

/-! ## Explicit rebuilds -/

/-- A rebuild of the session below the parent loses no invalidation: all other projections are up
to date, the snapshots are from a listing made since, and there is a connection again. -/
structure Covered (s : TmuxStore) (parentId : Nat) (sessionId : Bytes) (serial : Nat) : Prop where
  projections : s.tmuxProjectionState ≠ .clean → ∀ q t, KnownProjection s.entry.document q t →
    UpToDate s.marks q t ∨ (q = parentId ∧ t = sessionId)
  listed : s.tmuxProjectionState ≠ .clean → .listed serial ∈ sinceInvalidation s.marks
  connection : s.tmuxProjectionState = .invalidatedByControlDisconnect → s.controlConnection = true

/-- A rebuild of the session where it is projected, or below any parent where it is not, after a
listing, loses no invalidation. -/
structure Allowed (s : TmuxStore) (sessionId : Bytes) : Prop where
  projections : s.tmuxProjectionState ≠ .clean → ∀ p t, KnownProjection s.entry.document p t →
    UpToDate s.marks p t ∨
      (t = sessionId ∧ ∀ q, KnownProjection s.entry.document q sessionId → q = p)
  connection : s.tmuxProjectionState = .invalidatedByControlDisconnect → s.controlConnection = true

/-- The same of the session of a pane, once the panes are listed. -/
def AllowsPane (w : TmuxEnv) (place : Nat) (paneId : Bytes) (s : TmuxStore) : Prop :=
  ∀ listing snapshot, w.listPaneSnapshots place = .ok listing →
    listing.find? (fun snapshot => snapshot.paneId == paneId) = some snapshot →
    Allowed s snapshot.sessionId

/-- Listing the panes and taking nodes away change nothing about it. -/
theorem Allowed.later {s s' : TmuxStore} {sessionId : Bytes} (h : Allowed s sessionId)
    (hknown : ∀ p t, KnownProjection s'.entry.document p t → KnownProjection s.entry.document p t)
    (hcurrent : ∀ p t, UpToDate s.marks p t → UpToDate s'.marks p t)
    (hstate : s'.tmuxProjectionState = s.tmuxProjectionState)
    (hconnection : s'.controlConnection = s.controlConnection) : Allowed s' sessionId where
  projections hs p t hpt := by
    rw [hstate] at hs
    rcases h.projections hs p t (hknown p t hpt) with hdone | ⟨ht, honly⟩
    · exact .inl (hcurrent p t hdone)
    · exact .inr ⟨ht, fun q hq => honly q (hknown q _ hq)⟩
  connection hs := by
    rw [hconnection]
    exact h.connection (hstate ▸ hs)

/-- What a change of the document that is followed by `markTopologyChanged` leaves. -/
theorem onTopology_ok {α : Type} {m : DocM α} {e e' : DocumentEntry} {a : α}
    (h : Sequential.onTopology m e = (.ok a, e')) : m e.document = (.ok a, e'.document) := by
  rw [Sequential.onTopology, bind_apply] at h
  unfold DocumentEntry.onDocument at h
  rcases hm : m e.document with ⟨f | b, d'⟩
  · rw [hm] at h
    cases h
  · rw [hm, next_ok] at h
    cases h
    rfl

/-- Once the pass is on record, the state may be cleaned. -/
theorem Covered.justified {p : Nat} {t : Bytes} {serial : Nat} {s : TmuxStore} (hs : Inv s)
    (h : Covered s p t serial) :
    Justified (.reconciled p t serial :: s.marks) s.tmuxProjectionState s.entry.document where
  upToDate hstate q t' hknown := by
    rcases h.projections hstate q t' hknown with hdone | ⟨rfl, rfl⟩
    · exact hdone.cons rfl
    · exact ⟨serial, (mem_sinceInvalidation_cons rfl).mpr (.inl rfl),
        (mem_sinceInvalidation_cons rfl).mpr (.inr (h.listed hstate))⟩
  attached hstate := (mem_sinceDisconnect_cons rfl).mpr (.inr (hs.attached (h.connection hstate)))

/-- The parent that a rebuild for a pane chooses. -/
theorem Allowed.covered {s : TmuxStore} (hs : Inv s) (hfresh : FreshListing s)
    {snapshot : PaneSnapshot} (h : Allowed s snapshot.sessionId)
    (hmem : snapshot ∈ s.tmuxPaneSnapshots) {parentId : Option Nat}
    (hparent : Sequential.findProjectionParentForSession s.entry.document snapshot.sessionId
      = .ok parentId) (preferredParentId : Nat) :
    Covered s (parentId.getD preferredParentId) (Pump.sessionOf
      (s.tmuxPaneSnapshots.filter fun item => item.sessionId == snapshot.sessionId)) s.serial where
  projections hstate q t hknown := by
    rcases h.projections hstate q t hknown with hdone | ⟨rfl, honly⟩
    · exact .inl hdone
    · refine .inr ⟨?_, ?_⟩
      · rw [findProjectionParent_of_known hs.sane.valid hknown honly] at hparent
        cases hparent
        rfl
      · have hne : s.tmuxPaneSnapshots.filter (fun item => item.sessionId == snapshot.sessionId)
            ≠ [] := List.ne_nil_of_mem (List.mem_filter.mpr ⟨hmem, beq_self_eq_true _⟩)
        exact (sessionOf_filter hne).symm
  listed _ := hfresh
  connection := h.connection

namespace Pump

variable {w : TmuxEnv}

/-- What code on the document that succeeds leaves. -/
theorem onEntry_ok {α : Type} {f : EntryAction α} {s s' : TmuxStore} {a : α}
    (h : onEntry f s = (.ok a, s')) :
    ∃ e', f s.entry = (.ok a, e') ∧ s' = { s with entry := e' } := by
  unfold onEntry at h
  rcases hf : f s.entry with ⟨r, e'⟩
  rw [hf] at h
  cases h
  exact ⟨e', rfl, rfl⟩

/-- The pass of a rebuild that is covered leaves it so. -/
theorem covered_reconcile {p : Nat} {snapshots : List PaneSnapshot} {serial x : Nat}
    {s s' : TmuxStore} (hs : Inv s) (h : Covered s p (sessionOf snapshots) serial)
    (hpass : onEntry (Sequential.onTopology (reconcileSessionSnapshots p snapshots)) s = (.ok x, s')) :
    Covered s' p (sessionOf snapshots) serial := by
  obtain ⟨e', hentry, rfl⟩ := onEntry_ok hpass
  refine ⟨fun hstate q t hknown => ?_, h.listed, h.connection⟩
  rcases known_of_reconcile hs.sane.valid (onTopology_ok hentry) hknown with hbefore | hnew
  · exact h.projections hstate q t hbefore
  · exact .inr hnew

theorem triple_rebuildTmuxSessionProjection (visit p : Nat) (snapshots : List PaneSnapshot)
    (serial : Nat) :
    Triple (fun s => Inv s ∧ Covered s p (sessionOf snapshots) serial)
      (rebuildTmuxSessionProjection w visit p snapshots serial) (fun _ => Inv) Inv := by
  have hsound := Sequential.sound_onTopology (reconcileSessionSnapshots_settled p snapshots)
  refine Triple.bind (Q := fun _ s => Inv s ∧ Covered s p (sessionOf snapshots) serial)
    ((inv_onEntry hsound).triple_of fun s x s' hcovered hs hpass hs' =>
      ⟨hs', covered_reconcile hs hcovered hpass⟩) fun x => ?_
  refine Triple.bind (Q := fun _ s =>
      Inv s ∧ Justified s.marks s.tmuxProjectionState s.entry.document) ?_ fun _ => ?_
  · refine (inv_mark (m := .reconciled p (sessionOf snapshots) serial) rfl fun _ _ => nofun).triple_of
      fun s _ s' hcovered hs hmark hs' => ?_
    cases hmark
    exact ⟨hs', hcovered.justified hs⟩
  · refine Triple.bind (Q := fun _ => Inv) (triple_modify fun s hs => hs.1.cleaned hs.2) fun _ => ?_
    refine (inv_refreshSources visit).triple.bind fun _ => ?_
    refine (inv_onEntry (Sequential.sound_notifyInvalidate w.env x .structural)).triple.bind
      fun _ => ?_
    exact triple_pure fun s hs => hs

theorem triple_rebuildForPane (place preferredParentId : Nat) (paneId : Bytes) :
    Triple (fun s => Inv s ∧ AllowsPane w place paneId s)
      (rebuildTmuxSessionProjectionForPane w place preferredParentId paneId) (fun _ => Inv) Inv := by
  -- After the listing the pane is looked up in what was listed.
  refine Triple.bind (Q := fun _ s => Inv s ∧ FreshListing s ∧
      ∀ snapshot, s.tmuxPaneSnapshots.find? (fun snapshot => snapshot.paneId == paneId)
        = some snapshot → Allowed s snapshot.sessionId)
    ((keeps_refreshTmuxPaneSnapshots unaffected_inv place).triple_of ?_) fun _ => ?_
  · intro s _ s' hallows hs h hs'
    obtain ⟨hlisting, heq⟩ := refreshTmuxPaneSnapshots_ok h
    refine ⟨hs', ?_, fun snapshot hfind => ?_⟩
    · rw [heq]
      exact (mem_sinceInvalidation_cons rfl).mpr (.inl rfl)
    · rw [heq]
      exact (hallows _ snapshot hlisting hfind).later (fun _ _ hk => hk) (fun _ _ hu => hu.cons rfl) rfl rfl
  · refine triple_getting fun s₀ => ?_
    cases hfind : s₀.tmuxPaneSnapshots.find? fun snapshot => snapshot.paneId == paneId with
    | none => exact triple_throw fun s hs => hs.1.1
    | some snapshot =>
        refine Triple.bind (Q := fun parentId s => Inv s ∧
            Covered s (parentId.getD preferredParentId) (sessionOf (s₀.tmuxPaneSnapshots.filter
              fun item => item.sessionId == snapshot.sessionId)) s₀.serial) ?_ fun parentId => ?_
        · rw [onEntry_view]
          refine triple_view (fun s parentId hs hparent => ?_) fun s hs => hs.1.1
          obtain ⟨⟨hinv, hfresh, hallowed⟩, rfl⟩ := hs
          exact ⟨hinv, (hallowed snapshot hfind).covered hinv hfresh
            (List.mem_of_find?_eq_some hfind) hparent preferredParentId⟩
        · refine (triple_rebuildTmuxSessionProjection place _ _ _).bind fun _ => ?_
          refine (keeps_ensureControlConnection unaffected_inv place _).triple.bind fun _ => ?_
          refine Triple.bind (Q := fun _ => Inv) ?_ fun nodeId => ?_
          · rw [onEntry_view]
            exact triple_view (fun _ _ hs _ => hs) fun _ hs => hs
          · cases nodeId with
            | none => exact triple_throw fun _ hs => hs
            | some x => exact triple_pure fun _ hs => hs

theorem triple_createTmuxSession (p : Nat) (sessionName : Bytes) (created : Except Failure Bytes) :
    Triple (fun s => Inv s ∧ ∀ paneId, created = .ok paneId → AllowsPane w 0 paneId s)
      (createTmuxSession w p sessionName created) (fun _ => Inv) Inv := by
  refine Triple.bind (Q := fun paneId s => Inv s ∧ AllowsPane w 0 paneId s)
    (triple_lift (fun s paneId hs hcreated => ⟨hs.1, hs.2 paneId hcreated⟩) fun s hs => hs.1)
    fun paneId => ?_
  refine (triple_rebuildForPane 0 p paneId).bind fun x => ?_
  refine (keeps_ensureControlConnection unaffected_inv 1 sessionName).triple.bind fun _ => ?_
  exact (inv_onEntry (Sequential.sound_notifyInvalidate w.env x .structural)).triple

theorem triple_createTmuxPane (created : Except Failure Bytes) :
    Triple (fun s => Inv s ∧ ∀ paneId, created = .ok paneId → AllowsPane w 0 paneId s)
      (createTmuxPane w created) (fun _ => Inv) Inv := by
  refine Triple.bind (Q := fun paneId s => Inv s ∧ AllowsPane w 0 paneId s)
    (triple_lift (fun s paneId hs hcreated => ⟨hs.1, hs.2 paneId hcreated⟩) fun s hs => hs.1)
    fun paneId => ?_
  refine triple_getting fun s₀ => ?_
  refine Triple.bind ((triple_rebuildForPane 0 _ paneId).pre fun s hs => hs.1) fun x => ?_
  exact (inv_onEntry (Sequential.sound_notifyInvalidate w.env x .structural)).triple

end Pump

/-! ### Closing a pane -/

theorem AllowsPane.later {w : TmuxEnv} {place : Nat} {paneId : Bytes} {s s' : TmuxStore}
    (h : AllowsPane w place paneId s)
    (hknown : ∀ p t, KnownProjection s'.entry.document p t → KnownProjection s.entry.document p t)
    (hcurrent : ∀ p t, UpToDate s.marks p t → UpToDate s'.marks p t)
    (hstate : s'.tmuxProjectionState = s.tmuxProjectionState)
    (hconnection : s'.controlConnection = s.controlConnection) : AllowsPane w place paneId s' :=
  fun listing snapshot hlisting hfind =>
    (h listing snapshot hlisting hfind).later hknown hcurrent hstate hconnection

/-- What is left of a session may be projected again. -/
def AllowsRemaining (w : TmuxEnv) (sessionId : Bytes) (s : TmuxStore) : Prop :=
  ∀ listing surviving, w.listPaneSnapshots 0 = .ok listing →
    listing.find? (fun snapshot => snapshot.sessionId == sessionId) = some surviving →
    AllowsPane w 1 surviving.paneId s

/-- What is left of the session of a pane that is closed may be projected again. -/
def AllowsClose (w : TmuxEnv) (paneId : Bytes) (closed : Except Failure Unit) (s : TmuxStore) :
    Prop :=
  ∀ x sessionId, Sequential.findNodeIdByPaneId s.entry.document paneId = .ok (some x) →
    findSessionIdForPaneNode s.entry.document x = .ok (some sessionId) → closed = .ok () →
    AllowsRemaining w sessionId s

/-- Removing the node of a pane adds no projection, also when it fails. -/
theorem known_of_removePaneNode {e : DocumentEntry} (hv : Valid e.document) {x : Nat} (hx : x ≠ 1)
    {p : Nat} {t : Bytes}
    (hknown : KnownProjection (Sequential.removePaneNode x e).2.document p t) :
    KnownProjection e.document p t := by
  rw [Sequential.removePaneNode, bind_apply, tryCatch_apply] at hknown
  unfold DocumentEntry.onDocument at hknown
  rcases hremove : Document.removeNode x e.document with ⟨f | _, d'⟩
  · have hsame : d' = e.document := by
      rcases Document.removeNode_cases hv hx with ⟨n, p, -, -, -, heq⟩ | ⟨f', heq⟩
      · rw [heq] at hremove
        cases hremove
      · rw [heq] at hremove
        cases hremove
        rfl
    subst hsame
    rw [hremove] at hknown
    cases f with
    | error e => exact hknown
    | panic p => exact hknown
    | outOfFuel => exact hknown
  · rw [hremove] at hknown
    exact knownProjection_of_drop (removeNode_outline hv hx hremove).2 hknown

namespace Pump

variable {w : TmuxEnv}

theorem triple_projectRemaining (sessionId : Bytes) :
    Triple (fun s => Inv s ∧ AllowsRemaining w sessionId s) (projectRemaining w sessionId)
      (fun _ => Inv) Inv := by
  refine Triple.bind (Q := fun _ s => Inv s ∧ ∀ surviving,
      s.tmuxPaneSnapshots.find? (fun snapshot => snapshot.sessionId == sessionId) = some surviving →
      AllowsPane w 1 surviving.paneId s)
    ((keeps_refreshTmuxPaneSnapshots unaffected_inv 0).triple_of ?_) fun _ => ?_
  · intro s _ s' hallows hs h hs'
    obtain ⟨hlisting, heq⟩ := refreshTmuxPaneSnapshots_ok h
    refine ⟨hs', fun surviving hfind => ?_⟩
    rw [heq]
    exact (hallows _ surviving hlisting hfind).later (fun _ _ hk => hk)
      (fun _ _ hu => hu.cons rfl) rfl rfl
  · refine triple_getting fun s₀ => ?_
    cases hfind : s₀.tmuxPaneSnapshots.find? fun snapshot => snapshot.sessionId == sessionId with
    | none =>
        have hsound := Sequential.sound_onTopology (removeSessionProjection_settled sessionId)
        exact ((inv_onEntry hsound).triple.pre fun s hs => hs.1.1).bind fun _ =>
          triple_pure fun _ hs => hs
    | some surviving =>
        refine Triple.bind ((triple_rebuildForPane 1 _ surviving.paneId).pre ?_) fun _ =>
          triple_pure fun _ hs => hs
        rintro s ⟨⟨hs, hallows⟩, rfl⟩
        exact ⟨hs, hallows surviving hfind⟩

/-- The node of the pane goes; what is left of its session may still be projected again. -/
theorem triple_removePaneNode {x : Nat} {sessionId : Option Bytes} :
    Triple (fun s => Inv s ∧ x ≠ 1 ∧ ∀ t, sessionId = some t → AllowsRemaining w t s)
      (onEntry (Sequential.removePaneNode x))
      (fun _ s => Inv s ∧ ∀ t, sessionId = some t → AllowsRemaining w t s) Inv := by
  rintro s ⟨hs, hx, hallows⟩
  refine (inv_onEntry (Sequential.sound_removePaneNode hx)).triple_of (P := fun s' => s' = s)
    ?_ s ⟨hs, rfl⟩
  rintro s _ s' rfl hs hremove hs'
  refine ⟨hs', fun t ht listing surviving hlisting hfind => ?_⟩
  refine (hallows t ht listing surviving hlisting hfind).later ?_ (fun _ _ hu => ?_) ?_ ?_
  · obtain ⟨e', hentry, rfl⟩ := onEntry_ok hremove
    intro p t hknown
    refine known_of_removePaneNode hs.sane.valid hx ?_
    rw [hentry]
    exact hknown
  · obtain ⟨e', -, rfl⟩ := onEntry_ok hremove
    exact hu
  · obtain ⟨e', -, rfl⟩ := onEntry_ok hremove
    rfl
  · obtain ⟨e', -, rfl⟩ := onEntry_ok hremove
    rfl

theorem triple_afterClose (sessionId : Option Bytes) :
    Triple (fun s => Inv s ∧ ∀ t, sessionId = some t → AllowsRemaining w t s)
      (do
        if let some knownSessionId := sessionId then projectRemaining w knownSessionId
        refreshSources w 2) (fun _ => Inv) Inv := by
  cases sessionId with
  | none =>
      exact (inv_refreshSources 2).triple.pre fun _ hs => hs.1
  | some t =>
      exact ((triple_projectRemaining t).pre fun s hs => ⟨hs.1, hs.2 t rfl⟩).bind fun _ =>
        (inv_refreshSources 2).triple

theorem triple_closeTmuxPane (paneId : Bytes) (closed : Except Failure Unit) :
    Triple (fun s => Inv s ∧ AllowsClose w paneId closed s) (closeTmuxPane w paneId closed)
      (fun _ => Inv) Inv := by
  refine Triple.bind (Q := fun nodeId s => Inv s ∧ ∀ x, nodeId = some x → x ≠ 1 ∧
      ∀ t, findSessionIdForPaneNode s.entry.document x = .ok (some t) → closed = .ok () →
        AllowsRemaining w t s) ?_ fun nodeId => ?_
  · rw [onEntry_view]
    refine triple_view (fun s nodeId hs hfound => ⟨hs.1, ?_⟩) fun s hs => hs.1
    rintro x rfl
    exact ⟨Sequential.ne_root_of_findNodeIdByPaneId hs.1.sane.tidy hfound,
      fun t => hs.2 x t hfound⟩
  · refine Triple.bind (Q := fun sessionId s => Inv s ∧ (∀ x, nodeId = some x → x ≠ 1) ∧
        ∀ t, sessionId = some t → closed = .ok () → AllowsRemaining w t s) ?_ fun sessionId => ?_
    · rw [onEntry_view]
      refine triple_view (fun s sessionId hs hfound => ?_) fun s hs => hs.1
      refine ⟨hs.1, fun x hx => (hs.2 x hx).1, ?_⟩
      rintro t rfl hclosed
      cases nodeId with
      | none => cases hfound
      | some x => exact (hs.2 x rfl).2 t hfound hclosed
    · refine Triple.bind (Q := fun _ s => Inv s ∧ (∀ x, nodeId = some x → x ≠ 1) ∧
          ∀ t, sessionId = some t → AllowsRemaining w t s) ?_ fun _ => ?_
      · exact triple_lift (fun s _ hs hclosed => ⟨hs.1, hs.2.1, fun t ht => hs.2.2 t ht hclosed⟩)
          fun s hs => hs.1
      · cases nodeId with
        | none =>
            exact (triple_afterClose sessionId).pre fun s hs => ⟨hs.1, hs.2.2⟩
        | some x =>
            exact (triple_removePaneNode.pre fun s hs => ⟨hs.1, hs.2.1 x rfl, hs.2.2⟩).bind fun _ =>
              triple_afterClose sessionId

end Pump

/-! ## Runs -/

/-- When the step loses no invalidation. Only explicit rebuilds can. -/
def TmuxStep.Allows (w : TmuxEnv) (s : TmuxStore) : TmuxStep → Prop
  | .rebuild parentId snapshots serial => Covered s parentId (Pump.sessionOf snapshots) serial
  | .createSession _ _ created => ∀ paneId, created = .ok paneId → AllowsPane w 0 paneId s
  | .createPane created => ∀ paneId, created = .ok paneId → AllowsPane w 0 paneId s
  | .closePane paneId closed => AllowsClose w paneId closed s
  | .pump => True
  | .listPanes => True
  | .other _ _ => True

theorem inv_step {w : TmuxEnv} {s : TmuxStore} (hs : Inv s) {step : TmuxStep}
    (hstep : step.Allows w s) : Inv (step.code w s).2 := by
  have hleaves : ∀ {m : TmuxAction Unit} {P : TmuxStore → Prop},
      Triple (fun s => Inv s ∧ P s) m (fun _ => Inv) Inv → P s → Inv (m s).2 := by
    intro m P h hp
    have hrun := h s ⟨hs, hp⟩
    rcases hm : m s with ⟨_ | _, s'⟩ <;> rw [hm] at hrun <;> exact hrun
  cases step with
  | pump => exact (Pump.inv_pumpTmuxBackend s hs).1
  | rebuild p snapshots serial =>
      exact hleaves ((Pump.triple_rebuildTmuxSessionProjection 0 p snapshots serial).bind fun _ =>
        triple_pure fun _ hs => hs) hstep
  | createSession p sessionName created =>
      exact hleaves (Pump.triple_createTmuxSession p sessionName created) hstep
  | createPane created => exact hleaves (Pump.triple_createTmuxPane created) hstep
  | closePane paneId closed => exact hleaves (Pump.triple_closeTmuxPane paneId closed) hstep
  | listPanes => exact (Pump.keeps_refreshTmuxPaneSnapshots unaffected_inv 0 s hs).1
  | other env call => exact (Pump.inv_onEntry (sound_storeCall env rootDocumentPath call) s hs).1

theorem inv_afterSteps {s : TmuxStore} (hs : Inv s) (steps : List (TmuxEnv × TmuxStep))
    (hsteps : ∀ earlier w step later, steps = earlier ++ (w, step) :: later →
      step.Allows w (afterSteps s earlier)) : Inv (afterSteps s steps) := by
  induction steps generalizing s with
  | nil => exact hs
  | cons first rest ih =>
      obtain ⟨w, step⟩ := first
      refine ih (inv_step hs (hsteps [] w step rest rfl)) ?_
      intro earlier w' step' later heq
      exact hsteps ((w, step) :: earlier) w' step' later (by rw [heq]; rfl)

/-- In every run of pumps, rebuilds and other calls, each of which is allowed where it runs, the
state is the one its history leads to, and whenever it went from invalidated to clean every known
projection was reconciled against a listing made after the last invalidation, and after a
disconnect a connection was attached. -/
theorem invalidation_never_lost (title : Bytes) (maxContentBytes : UInt64)
    (steps : List (TmuxEnv × TmuxStep))
    (hsteps : ∀ earlier w step later, steps = earlier ++ (w, step) :: later →
      step.Allows w (afterSteps (TmuxStore.init title maxContentBytes) earlier)) :
    (afterSteps (TmuxStore.init title maxContentBytes) steps).tmuxProjectionState
        = stateAfter (afterSteps (TmuxStore.init title maxContentBytes) steps).marks ∧
      NeverLost (afterSteps (TmuxStore.init title maxContentBytes) steps).marks := by
  have h := inv_afterSteps (inv_init title maxContentBytes) steps hsteps
  exact ⟨h.state, h.neverLost⟩

/-- tmux with the panes `%1` and `%2` of one window and `%3` of another, where a control connection
can be attached or not. -/
def answering (attaches : Bool) (events : List ControlEvent) : TmuxEnv where
  env := sampleEnv
  listPaneSnapshots _ := .ok beforeMove
  initAttach _ _ := .ok attaches
  events := events
  drained := .ok ()
  otherSources := .ok ()

/-- A session is made, a window is added to it from elsewhere, and a pane is made. -/
def quietRun : List (TmuxEnv × TmuxStep) :=
  [(answering true [], .createSession 1 (ascii "work") (.ok (ascii "%1"))),
    (answering true [.notification (ascii "window-add") (ascii "@2")], .pump),
    (answering true [], .createPane (.ok (ascii "%2")))]

/-- A rebuild in a clean state is allowed. -/
theorem allowed_of_clean {s : TmuxStore} (h : s.tmuxProjectionState = .clean) (sessionId : Bytes) :
    Allowed s sessionId where
  projections hs := absurd h hs
  connection hs := by
    rw [h] at hs
    cases hs

theorem quietRun_neverLost :
    (afterSteps (TmuxStore.init [] 1000) quietRun).tmuxProjectionState
        = stateAfter (afterSteps (TmuxStore.init [] 1000) quietRun).marks ∧
      NeverLost (afterSteps (TmuxStore.init [] 1000) quietRun).marks := by
  have hclean : (afterSteps (TmuxStore.init [] 1000) (quietRun.take 2)).tmuxProjectionState
      = .clean := by decide +kernel
  refine invalidation_never_lost [] 1000 quietRun fun earlier w step later heq => ?_
  rcases earlier with _ | ⟨first, _ | ⟨second, _ | ⟨third, rest⟩⟩⟩
  · cases heq
    exact fun _ _ _ _ _ _ => allowed_of_clean rfl _
  · cases heq
    trivial
  · cases heq
    exact fun _ _ _ _ _ _ => allowed_of_clean hclean _
  · cases rest <;> cases heq

/-- The state went from a disconnect to clean and no connection was attached. -/
def forgetsDisconnect : List Mark → Bool
  | [] => false
  | .cleaned .invalidatedByControlDisconnect _ :: older =>
    Mark.attached ∉ sinceDisconnect older || forgetsDisconnect older
  | _ :: older => forgetsDisconnect older

theorem not_neverLost {marks : List Mark} (h : forgetsDisconnect marks = true) :
    ¬ NeverLost marks := by
  intro hnever
  induction marks using forgetsDisconnect.induct with
  | case1 => cases h
  | case2 d older ih =>
      rw [forgetsDisconnect, Bool.or_eq_true, decide_eq_true_iff] at h
      rcases h with hlost | hlater
      · exact hlost ((hnever [] _ d older rfl).2.attached rfl)
      · exact ih hlater fun newer before d' older' heq =>
          hnever (_ :: newer) before d' older' (by rw [heq]; rfl)
  | case3 m older hm ih =>
      rw [forgetsDisconnect] at h
      · exact ih h fun newer before d' older' heq =>
          hnever (m :: newer) before d' older' (by rw [heq]; rfl)
      · exact hm

/-- A session is made, the connection exits and cannot be attached again, and a pane is made. -/
def disconnectRun : List (TmuxEnv × TmuxStep) :=
  [(answering true [], .createSession 1 (ascii "work") (.ok (ascii "%1"))),
    (answering false [.exit], .pump),
    (answering false [], .createPane (.ok (ascii "%2")))]

/-- Making a pane sets the state to clean while there is no control connection. -/
theorem create_pane_forgets_disconnect : ¬ ∀ (title : Bytes) (maxContentBytes : UInt64)
    (steps : List (TmuxEnv × TmuxStep)),
    (afterSteps (TmuxStore.init title maxContentBytes) steps).tmuxProjectionState
        = stateAfter (afterSteps (TmuxStore.init title maxContentBytes) steps).marks ∧
      NeverLost (afterSteps (TmuxStore.init title maxContentBytes) steps).marks := by
  intro h
  have hforgets : forgetsDisconnect (afterSteps (TmuxStore.init [] 1000) disconnectRun).marks
      = true := by decide +kernel
  exact not_neverLost hforgets (h [] 1000 disconnectRun).2

end Muxly.Daemon
