/-
# Muxly.Server.Identity -- which handle a removal reaches

Both registries are searched by conversation id, and a conversation id is what the client of a
connection chose. The exit of a tty stream, a close request and the stale handles of a broadcast all
take the first handle that has the id, whoever registered it; only `closeSession` compares sessions.

`stream_identity` says, for every step of a run, exactly which handles it takes out of a registry
and which it closes. It holds of the runs in which no search by conversation id finds a second
handle, or the handle of another client. A destroyed handle is read as it was: the order of `deinit`
and `unregister` is the subject of `Muxly.Server.Lifetime`.
-/
import Muxly.Server.Lifetime

namespace Muxly.Server

open Muxly.Core Muxly.Daemon Muxly.Sync

/-! ## The runs considered -/

section Clients

variable {Client : Type} (client : Nat → Client)

/-- At most one of the handles has the conversation id. -/
def Unambiguous (streams : List LineId) (id : LineId → Bytes) (conversationId : Bytes) : Prop :=
  ∀ h ∈ streams, ∀ h' ∈ streams, id h = conversationId → id h' = conversationId → h = h'

instance (streams : List LineId) (id : LineId → Bytes) (conversationId : Bytes) :
    Decidable (Unambiguous streams id conversationId) :=
  inferInstanceAs (Decidable (∀ h ∈ streams, ∀ h' ∈ streams, _))

/-- Only handles of the client of connection `s` have the conversation id. -/
def Owns (s : Nat) (streams : List LineId) (id : LineId → Bytes) (conversationId : Bytes) : Prop :=
  ∀ h ∈ streams, id h = conversationId → client h.session = client s

instance [DecidableEq Client] (s : Nat) (streams : List LineId) (id : LineId → Bytes)
    (conversationId : Bytes) : Decidable (Owns client s streams id conversationId) :=
  inferInstanceAs (Decidable (∀ h ∈ streams, _ → _))

namespace State

variable (st : State)

/-- The conversation ids of the tty handles. -/
def ttyId (h : LineId) : Bytes := (st.tty h).conversationId

/-- The conversation ids of the projection handles. -/
def projectionId (h : LineId) : Bytes := (st.projection h).conversationId

end State

/-- Every search of a registry by conversation id finds one handle at most, and a close request finds
none of another client. -/
def KeepsIdentity (_ : Party) (o : Op) (_ : Bool) (st : State) : Prop :=
  match o with
  | .ttyUnregister h => Unambiguous st.ttyStreams st.ttyId (st.ttyId h)
  | .ttyRegistryRequestClose s conversationId =>
    Unambiguous st.ttyStreams st.ttyId conversationId ∧
      Owns client s st.ttyStreams st.ttyId conversationId
  | .projectionUnregister s conversationId =>
    Unambiguous st.projectionStreams st.projectionId conversationId ∧
      Owns client s st.projectionStreams st.projectionId conversationId
  | .broadcast =>
    ∀ h ∈ st.projectionStreams, Unambiguous st.projectionStreams st.projectionId (st.projectionId h)
  | _ => True

instance [DecidableEq Client] (p : Party) (o : Op) (b : Bool) (st : State) :
    Decidable (KeepsIdentity client p o b st) := by
  unfold KeepsIdentity
  split <;> infer_instance

/-! ## What a call is about -/

/-- The tty handle that a call takes out of the registry: the stream that exits. -/
def Op.LeavesTty : Op → LineId → Prop
  | .ttyUnregister h, l => l = h
  | _, _ => False

/-- The tty handle that a call closes: the stream that exits or stops, or the one that the client of
the connection has opened under the conversation id. -/
def Op.ClosesTty (st : State) : Op → LineId → Prop
  | .ttyDeinit h, l | .ttyRequestClose h, l => l = h
  | .ttyRegistryRequestClose s conversationId, l =>
    l ∈ st.ttyStreams ∧ client l.session = client s ∧ st.ttyId l = conversationId
  | _, _ => False

/-- The projection handles that a call takes out of the registry: the one that the client of the
connection has opened under the conversation id, those of the session that ends, those whose event
could not be written. -/
def Op.LeavesProjection (choice : Choice) (st st' : State) : Op → LineId → Prop
  | .projectionUnregister s conversationId, l =>
    l ∈ st.projectionStreams ∧ client l.session = client s ∧ st.projectionId l = conversationId
  | .closeSession s, l => l ∈ st.projectionStreams ∧ l.session = s
  | .broadcast, l =>
    l ∈ st.projectionStreams ∧ choice.addresses l = true ∧
      ∀ out ∈ st'.output.drop st.output.length, out.origin ≠ l
  | _, _ => False

end Clients

/-! ## Searches that find one handle -/

theorem mem_eraseP_iff {α : Type} {q : α → Bool} {xs : List α} (hnodup : xs.Nodup)
    (hone : ∀ x ∈ xs, ∀ y ∈ xs, q x = true → q y = true → x = y) (z : α) :
    z ∈ xs.eraseP q ↔ z ∈ xs ∧ q z = false := by
  induction xs with
  | nil => simp
  | cons x rest ih =>
      obtain ⟨hx, hrest⟩ := List.nodup_cons.mp hnodup
      by_cases hq : q x = true
      · rw [List.eraseP_cons_of_pos hq]
        constructor
        · intro hz
          refine ⟨List.mem_cons_of_mem _ hz, Bool.eq_false_iff.mpr fun hqz => hx ?_⟩
          rw [hone x (List.mem_cons_self ..) z (List.mem_cons_of_mem _ hz) hq hqz]
          exact hz
        · rintro ⟨hz, hqz⟩
          obtain rfl | hz := List.mem_cons.mp hz
          · rw [hq] at hqz
            cases hqz
          · exact hz
      · rw [List.eraseP_cons_of_neg hq, List.mem_cons, List.mem_cons,
          ih hrest fun y hy z hz => hone y (List.mem_cons_of_mem _ hy) z (List.mem_cons_of_mem _ hz)]
        constructor
        · rintro (rfl | ⟨hz, hqz⟩)
          · exact ⟨.inl rfl, Bool.eq_false_iff.mpr hq⟩
          · exact ⟨.inr hz, hqz⟩
        · rintro ⟨rfl | hz, hqz⟩
          · exact .inl rfl
          · exact .inr ⟨hz, hqz⟩

section Registry

variable {st : State}

theorem mem_ttyUnregister {conversationId : Bytes} (hnodup : st.ttyStreams.Nodup)
    (hone : Unambiguous st.ttyStreams st.ttyId conversationId) (l : LineId) :
    l ∈ (st.ttyUnregister conversationId).ttyStreams ↔
      l ∈ st.ttyStreams ∧ st.ttyId l ≠ conversationId := by
  have := mem_eraseP_iff (q := fun h => (st.tty h).conversationId = conversationId) hnodup
    (fun h hh h' hh' hid hid' => hone h hh h' hh' (of_decide_eq_true hid) (of_decide_eq_true hid')) l
  simpa [State.ttyUnregister, State.ttyId] using this

@[simp] theorem projectionDeinit_projectionId (h : LineId) :
    (st.projectionDeinit h).projectionId = st.projectionId := by
  funext l
  by_cases hl : l = h
  · subst hl
    simp [State.projectionId, State.projectionDeinit, State.onSession, State.onProjection]
  · simp [State.projectionId, State.projectionDeinit, State.onSession, State.onProjection, hl]

/-- `ProjectionStreamRegistry.unregister` with an id that one handle has at most. -/
theorem projectionUnregister_spec {conversationId : Bytes} (hnodup : st.projectionStreams.Nodup)
    (hone : Unambiguous st.projectionStreams st.projectionId conversationId) :
    (∀ l, l ∈ (st.projectionUnregister conversationId).2.projectionStreams ↔
        l ∈ st.projectionStreams ∧ st.projectionId l ≠ conversationId) ∧
      (st.projectionUnregister conversationId).2.projectionId = st.projectionId ∧
      (st.projectionUnregister conversationId).2.output = st.output := by
  have hmem := mem_eraseP_iff (q := fun h => (st.projection h).conversationId = conversationId)
    hnodup fun h hh h' hh' hid hid' =>
      hone h hh h' hh' (of_decide_eq_true hid) (of_decide_eq_true hid')
  unfold State.projectionUnregister
  split
  · rename_i h hfind
    refine ⟨fun l => ?_, ?_, rfl⟩
    · simpa [State.projectionId, State.projectionDeinit] using hmem l
    · rw [projectionDeinit_projectionId]
      rfl
  · rename_i hfind
    refine ⟨fun l => ⟨fun hl => ⟨hl, ?_⟩, fun hl => hl.1⟩, rfl, rfl⟩
    simpa [State.projectionId] using List.find?_eq_none.mp hfind l hl

theorem Exits.sublist {st' : State} (h : Exits st st') :
    st'.projectionStreams.Sublist st.projectionStreams := by
  induction h with
  | refl => exact .refl _
  | write role frame succeeds _ _ ih =>
      rw [writeFrame_projectionStreams]
      exact ih
  | @drop st' before rest h _ hsplit ih =>
      refine List.Sublist.trans ?_ ih
      rw [hsplit]
      exact (List.sublist_cons_self h rest).append_left before

/-- `ProjectionStreamRegistry.closeSession` takes out the handles of the session and no others. -/
theorem mem_closeSession (st : State) (s : Nat) (l : LineId) :
    l ∈ (st.closeSession s).projectionStreams ↔ l ∈ st.projectionStreams ∧ l.session ≠ s := by
  constructor
  · intro hl
    refine ⟨(exits_closeSession st s).sublist.subset hl, fun hs => ?_⟩
    have hzero := registered_closeSession st s
    rw [State.registered, List.countP_eq_zero] at hzero
    exact hzero l hl (decide_eq_true hs)
  · rintro ⟨hl, hs⟩
    suffices hfold : ∀ (hs : List LineId) (st : State), (∀ h ∈ hs, h.session = s) →
        l ∈ st.projectionStreams → l ∈ (hs.foldl State.dropStream st).projectionStreams from
      hfold _ st (fun h hh => of_decide_eq_true (List.mem_filter.mp hh).2) hl
    intro hs'
    induction hs' with
    | nil => exact fun _ _ h => h
    | cons h rest ih =>
        intro st hall hl
        refine ih _ (fun h' hh' => hall h' (List.mem_cons_of_mem _ hh')) ?_
        have hne : l ≠ h := fun heq => hs (heq ▸ hall h (List.mem_cons_self ..))
        exact (List.mem_erase_of_ne hne).mpr hl

/-! ## A broadcast -/

@[simp] theorem writeFrame_output (st : State) (origin : LineId) (role : Role) (frame : Frame)
    (succeeds : Bool) : (st.writeFrame origin role frame succeeds).2.output =
      st.output ++ if (st.writeFrame origin role frame succeeds).1 then [⟨origin, role, frame⟩]
        else [] := by
  unfold State.writeFrame
  split
  · simp [State.onSession]
  · split <;> simp [State.onSession]

/-- The sending loop of a broadcast goes from `acc` to `acc'`: it writes to the handles that the
event concerns, and fails at some. -/
structure Sent (choice : Choice) (hs : List LineId) (acc acc' : State × List Bytes)
    (failed : List LineId) (written : List Output) : Prop where
  stale : acc'.2 = acc.2 ++ failed.map acc.1.projectionId
  output : acc'.1.output = acc.1.output ++ written
  id : acc'.1.projectionId = acc.1.projectionId
  streams : acc'.1.projectionStreams = acc.1.projectionStreams
  origin : ∀ out ∈ written, out.origin ∈ hs
  failed : ∀ h, h ∈ failed ↔
    h ∈ hs ∧ choice.addresses h = true ∧ ∀ out ∈ written, out.origin ≠ h

/-- One turn. -/
theorem sent_one (choice : Choice) (acc : State × List Bytes) (h : LineId) :
    ∃ failed written, Sent choice [h] acc (State.sendEvent choice acc h) failed written := by
  unfold State.sendEvent
  by_cases ha : choice.addresses h = true
  · rw [if_pos ha]
    have hid : (acc.1.writeFrame h .data (acc.1.eventFrame h) (!choice.fails h)).2.projectionId =
        acc.1.projectionId := by
      funext l
      simp [State.projectionId]
    cases hwrote : (acc.1.writeFrame h .data (acc.1.eventFrame h) (!choice.fails h)).1 with
    | true =>
        refine ⟨[], [⟨h, .data, acc.1.eventFrame h⟩], ?_, ?_, hid, ?_, ?_, ?_⟩
        all_goals simp [hwrote]
    | false =>
        refine ⟨[h], [], ?_, ?_, hid, ?_, ?_, ?_⟩
        case refine_1 => simp [hwrote, State.projectionId]
        all_goals simp [hwrote, ha]
  · refine ⟨[], [], ?_, ?_, ?_, ?_, ?_, ?_⟩
    all_goals simp [ha]

theorem sent_all (choice : Choice) {hs : List LineId} (hnodup : hs.Nodup)
    (acc : State × List Bytes) :
    ∃ failed written,
      Sent choice hs acc (hs.foldl (State.sendEvent choice) acc) failed written := by
  induction hs generalizing acc with
  | nil => exact ⟨[], [], by simp, by simp, rfl, rfl, by simp, by simp⟩
  | cons h rest ih =>
      obtain ⟨hh, hrest⟩ := List.nodup_cons.mp hnodup
      obtain ⟨failed, written, hone⟩ := sent_one choice acc h
      obtain ⟨failed', written', hmore⟩ := ih hrest (State.sendEvent choice acc h)
      refine ⟨failed ++ failed', written ++ written', ?_, ?_, ?_, ?_, ?_, ?_⟩
      · rw [List.foldl_cons, hmore.stale, hone.stale, hone.id, List.map_append, List.append_assoc]
      · rw [List.foldl_cons, hmore.output, hone.output, List.append_assoc]
      · rw [List.foldl_cons, hmore.id, hone.id]
      · rw [List.foldl_cons, hmore.streams, hone.streams]
      · intro out hout
        obtain hout | hout := List.mem_append.mp hout
        · rw [List.mem_singleton.mp (hone.origin out hout)]
          exact List.mem_cons_self ..
        · exact List.mem_cons_of_mem _ (hmore.origin out hout)
      · intro l
        -- the handles of one turn and those of the others are different ones
        have hne (hl : l ∈ rest) : ∀ out ∈ written, out.origin ≠ l := by
          intro out hout heq
          rw [List.mem_singleton.mp (hone.origin out hout)] at heq
          exact hh (heq ▸ hl)
        have hne' (hl : l = h) : ∀ out ∈ written', out.origin ≠ l :=
          fun out hout heq => hh (hl ▸ heq ▸ hmore.origin out hout)
        rw [List.mem_append, hone.failed, hmore.failed, List.mem_singleton, List.mem_cons]
        constructor
        · rintro (⟨hl, ha, hout⟩ | ⟨hl, ha, hout⟩)
          · refine ⟨.inl hl, ha, fun out hmem => ?_⟩
            exact (List.mem_append.mp hmem).elim (hout out) (hne' hl out)
          · refine ⟨.inr hl, ha, fun out hmem => ?_⟩
            exact (List.mem_append.mp hmem).elim (hne hl out) (hout out)
        · rintro ⟨hl | hl, ha, hout⟩
          · exact .inl ⟨hl, ha, fun out hmem => hout out (List.mem_append_left _ hmem)⟩
          · exact .inr ⟨hl, ha, fun out hmem => hout out (List.mem_append_right _ hmem)⟩

/-- The removing loop of a broadcast, when no two handles have the same id. -/
theorem unregistered_all (stale : List Bytes) (hnodup : st.projectionStreams.Nodup)
    (hone : ∀ conversationId,
      Unambiguous st.projectionStreams st.projectionId conversationId) :
    (∀ l, l ∈ (stale.foldl (fun st conversationId =>
        (st.projectionUnregister conversationId).2) st).projectionStreams ↔
          l ∈ st.projectionStreams ∧ st.projectionId l ∉ stale) ∧
      (stale.foldl (fun st conversationId =>
        (st.projectionUnregister conversationId).2) st).output = st.output := by
  induction stale generalizing st with
  | nil => simp
  | cons conversationId rest ih =>
      obtain ⟨hmem, hid, houtput⟩ := projectionUnregister_spec hnodup (hone conversationId)
      obtain ⟨hmem', houtput'⟩ := ih
        (hnodup.sublist (Exits.refl.projectionUnregister conversationId).sublist)
        (fun conversationId' h hh h' hh' => by
          rw [hid]
          exact hone conversationId' h ((hmem h).mp hh).1 h' ((hmem h').mp hh').1)
      refine ⟨fun l => ?_, houtput'.trans houtput⟩
      rw [List.foldl_cons, hmem', hmem, hid, List.mem_cons, not_or, and_assoc]

/-- `ProjectionStreamRegistry.broadcast` takes out the handles whose event could not be written. -/
theorem mem_broadcast (choice : Choice) (hnodup : st.projectionStreams.Nodup)
    (hone : ∀ h ∈ st.projectionStreams,
      Unambiguous st.projectionStreams st.projectionId (st.projectionId h)) (l : LineId) :
    l ∈ (st.broadcast choice).projectionStreams ↔ l ∈ st.projectionStreams ∧
      ¬(choice.addresses l = true ∧
        ∀ out ∈ (st.broadcast choice).output.drop st.output.length, out.origin ≠ l) := by
  obtain ⟨failed, written, hsent⟩ := sent_all choice hnodup (st, [])
  have hall (conversationId : Bytes) :
      Unambiguous st.projectionStreams st.projectionId conversationId := by
    rintro h hh h' hh' rfl hid
    exact hone h hh h hh h' hh' rfl hid
  unfold State.broadcast
  generalize st.projectionStreams.foldl (State.sendEvent choice) (st, []) = acc at hsent ⊢
  obtain ⟨hmem, houtput⟩ := unregistered_all acc.2
    (show acc.1.projectionStreams.Nodup by rw [hsent.streams]; exact hnodup)
    (by rw [hsent.streams, hsent.id]; exact hall)
  simp only
  rw [hmem, houtput, hsent.streams, hsent.id, hsent.stale, hsent.output, List.drop_left]
  refine and_congr_right fun hl => not_congr ?_
  rw [List.nil_append, List.mem_map]
  constructor
  · rintro ⟨h, hh, heq⟩
    obtain ⟨hmem, ha, hout⟩ := (hsent.failed h).mp hh
    obtain rfl : h = l := hall _ h hmem l hl heq rfl
    exact ⟨ha, hout⟩
  · rintro ⟨ha, hout⟩
    exact ⟨l, (hsent.failed l).mpr ⟨hl, ha, hout⟩, rfl⟩

end Registry

/-! ## What one call does to the registries -/

section Calls

variable {Client : Type} {client : Nat → Client} {st st' : State} {p : Party} {o : Op}
  {choice : Choice} {b : Bool}

/-- A call that puts a tty handle into the registry or takes one out. -/
def Op.MovesTty : Op → Prop
  | .ttyRegister _ | .ttyUnregister _ => True
  | _ => False

theorem exec_ttyStreams (ho : ¬o.MovesTty) (h : exec choice st o = some (b, st')) :
    st'.ttyStreams = st.ttyStreams := by
  cases o <;> simp only [Op.MovesTty, not_true_eq_false] at ho <;> simp only [exec] at h
  case writeFrame origin role frame =>
    obtain rfl : (st.writeFrame origin role frame choice.succeeds).2 = st' :=
      congrArg Prod.snd (Option.some.inj h)
    exact (writeFrame_tty ..).2
  case projectionUnregister s conversationId =>
    obtain rfl : (st.projectionUnregister conversationId).2 = st' :=
      congrArg Prod.snd (Option.some.inj h)
    exact (Exits.refl.projectionUnregister conversationId).tty.2
  case closeSession s =>
    cases h
    exact (exits_closeSession st s).tty.2
  case broadcast =>
    cases h
    exact (exits_broadcast st choice).tty.2
  case ttyRegistryRequestClose s conversationId =>
    simp only [State.ttyRegistryRequestClose] at h
    split at h <;> cases h <;> rfl
  all_goals
    repeat' split at h
    all_goals cases h <;> rfl

theorem exec_projectionStreams (ho : ∀ h, o ≠ .projectionRegister h)
    (h : exec choice st o = some (b, st')) :
    st'.projectionStreams.Sublist st.projectionStreams := by
  cases o <;> simp only [exec] at h
  case projectionRegister l => exact absurd rfl (ho l)
  case writeFrame origin role frame =>
    obtain rfl : (st.writeFrame origin role frame choice.succeeds).2 = st' :=
      congrArg Prod.snd (Option.some.inj h)
    simp
  case projectionUnregister s conversationId =>
    obtain rfl : (st.projectionUnregister conversationId).2 = st' :=
      congrArg Prod.snd (Option.some.inj h)
    exact (Exits.refl.projectionUnregister conversationId).sublist
  case closeSession s =>
    cases h
    exact (exits_closeSession st s).sublist
  case broadcast =>
    cases h
    exact (exits_broadcast st choice).sublist
  case ttyRegistryRequestClose s conversationId =>
    simp only [State.ttyRegistryRequestClose] at h
    split at h <;> cases h <;> exact .refl _
  all_goals
    repeat' split at h
    all_goals cases h <;> exact .refl _

/-- A handle is closed by the calls on it that close it. -/
theorem closing_onTty {h : LineId} {f : TtyStreamHandle → TtyStreamHandle} (closes : Bool)
    (hf : (st.tty h).closing = false → (f (st.tty h)).closing = closes) {l : LineId}
    (hl : (st.tty l).closing = false) :
    ((st.onTty h f).tty l).closing = true ↔ closes = true ∧ l = h := by
  by_cases heq : l = h
  · subst heq
    simp [State.onTty, hf hl]
  · simp [State.onTty, heq, hl]

theorem closing_of_eq (ht : st'.tty = st.tty) {l : LineId} (hl : (st.tty l).closing = false) :
    ¬(st'.tty l).closing = true := by
  rw [ht, hl]
  exact Bool.false_ne_true

theorem enqueueOwnedChunk_closing (handle : TtyStreamHandle) (length : Nat) :
    (handle.enqueueOwnedChunk length).closing = handle.closing := by
  unfold TtyStreamHandle.enqueueOwnedChunk
  split <;> rfl

/-- A close request by conversation id closes what it is meant for. -/
theorem closing_ttyRegistryRequestClose {s : Nat} {conversationId : Bytes}
    (hone : Unambiguous st.ttyStreams st.ttyId conversationId)
    (howns : Owns client s st.ttyStreams st.ttyId conversationId) {l : LineId}
    (hl : (st.tty l).closing = false) :
    ((st.ttyRegistryRequestClose conversationId).2.tty l).closing = true ↔
      (Op.ttyRegistryRequestClose s conversationId).ClosesTty client st l := by
  unfold State.ttyRegistryRequestClose
  split
  · rename_i h hfind
    have hid : st.ttyId h = conversationId := by
      simpa [State.ttyId] using List.find?_some hfind
    have hmem := List.mem_of_find?_eq_some hfind
    rw [closing_onTty true (fun _ => rfl) hl]
    constructor
    · rintro ⟨-, rfl⟩
      exact ⟨hmem, howns l hmem hid, hid⟩
    · rintro ⟨hmem', -, hid'⟩
      exact ⟨rfl, hone l hmem' h hmem hid' hid⟩
  · rename_i hfind
    constructor
    · exact fun h => absurd h (closing_of_eq rfl hl)
    · rintro ⟨hmem, -, hid⟩
      exact absurd (decide_eq_true hid) (List.find?_eq_none.mp hfind l hmem)

theorem exec_closing (hcond : KeepsIdentity client p o b st)
    (h : exec choice st o = some (b, st')) {l : LineId} (hl : (st.tty l).closing = false) :
    (st'.tty l).closing = true ↔ o.ClosesTty client st l := by
  have hexits {st'' : State} (he : Exits st st'') : (st''.tty l).closing = true ↔ False :=
    iff_false_intro (closing_of_eq he.tty.1 hl)
  have hkeep (h' : LineId) {f : TtyStreamHandle → TtyStreamHandle}
      (hf : (f (st.tty h')).closing = (st.tty h').closing) :
      ((st.onTty h' f).tty l).closing = true ↔ False := by
    rw [closing_onTty false (fun hc => hf.trans hc) hl]
    simp
  cases o <;> simp only [exec] at h
  case writeFrame origin role frame =>
    obtain rfl : (st.writeFrame origin role frame choice.succeeds).2 = st' :=
      congrArg Prod.snd (Option.some.inj h)
    exact iff_false_intro (closing_of_eq (writeFrame_tty ..).1 hl)
  case projectionUnregister s conversationId =>
    obtain rfl : (st.projectionUnregister conversationId).2 = st' :=
      congrArg Prod.snd (Option.some.inj h)
    exact hexits (.projectionUnregister .refl conversationId)
  case closeSession s =>
    cases h
    exact hexits (exits_closeSession st s)
  case broadcast =>
    cases h
    exact hexits (exits_broadcast st choice)
  case ttyRegistryRequestClose s conversationId =>
    obtain rfl : (st.ttyRegistryRequestClose conversationId).2 = st' :=
      congrArg Prod.snd (Option.some.inj h)
    exact closing_ttyRegistryRequestClose hcond.1 hcond.2 hl
  case ttyInit h' conversationId =>
    cases h
    rw [closing_onTty false (fun _ => rfl) hl]
    simp [Op.ClosesTty]
  case ttyDeinit h' | ttyRequestClose h' =>
    cases h
    rw [closing_onTty true (fun _ => rfl) hl]
    simp [Op.ClosesTty]
  case waitNextChunk h' =>
    split at h
    · cases h
      exact hkeep h' rfl
    · split at h <;> cases h
      exact iff_false_intro (closing_of_eq rfl hl)
  case spawnReader h' =>
    split at h <;> cases h
    · exact hkeep h' rfl
    · exact iff_false_intro (closing_of_eq rfl hl)
  case enqueueChunk h' length =>
    cases h
    exact hkeep h' (enqueueOwnedChunk_closing ..)
  case finishReader h' =>
    cases h
    exact hkeep h' rfl
  all_goals
    repeat' split at h
    all_goals cases h <;> exact iff_false_intro (closing_of_eq rfl hl)

theorem exec_leavesProjection (hnodup : st.projectionStreams.Nodup)
    (hcond : KeepsIdentity client p o b st) (h : exec choice st o = some (b, st')) (l : LineId) :
    (l ∈ st.projectionStreams ∧ l ∉ st'.projectionStreams) ↔
      o.LeavesProjection client choice st st' l := by
  have hkeep {st'' : State} (hs : st''.projectionStreams = st.projectionStreams) :
      (l ∈ st.projectionStreams ∧ l ∉ st''.projectionStreams) ↔ False := by
    rw [hs]
    exact iff_false_intro fun h => h.2 h.1
  cases o <;> simp only [exec] at h
  case writeFrame origin role frame =>
    obtain rfl : (st.writeFrame origin role frame choice.succeeds).2 = st' :=
      congrArg Prod.snd (Option.some.inj h)
    exact hkeep (writeFrame_projectionStreams ..)
  case projectionRegister h' =>
    cases h
    exact iff_false_intro fun h => h.2 (List.mem_append_left _ h.1)
  case projectionUnregister s conversationId =>
    obtain rfl : (st.projectionUnregister conversationId).2 = st' :=
      congrArg Prod.snd (Option.some.inj h)
    rw [(projectionUnregister_spec hnodup hcond.1).1, not_and, not_not]
    constructor
    · rintro ⟨hl, hid⟩
      exact ⟨hl, hcond.2 l hl (hid hl), hid hl⟩
    · rintro ⟨hl, -, hid⟩
      exact ⟨hl, fun _ => hid⟩
  case closeSession s =>
    cases h
    rw [mem_closeSession, not_and, not_not]
    exact ⟨fun h => ⟨h.1, h.2 h.1⟩, fun h => ⟨h.1, fun _ => h.2⟩⟩
  case broadcast =>
    cases h
    rw [mem_broadcast choice hnodup hcond, not_and, not_not]
    exact ⟨fun h => ⟨h.1, h.2 h.1⟩, fun h => ⟨h.1, fun _ => h.2⟩⟩
  case ttyRegistryRequestClose s conversationId =>
    simp only [State.ttyRegistryRequestClose] at h
    split at h <;> cases h <;> exact hkeep rfl
  all_goals
    repeat' split at h
    all_goals cases h <;> exact hkeep rfl

end Calls

/-! ## The invariant -/

/-- The handle of line `i` is in the tty registry, as far as its connection knows. -/
def Phase.ListsTty (φ : Phase) (i : Nat) : Prop :=
  φ.read = i + 1 ∧ (φ.hand = .ttyRegistered ∨ φ.hand = .ttyDestroyed)

/-- The connection has not yet come to registering a projection handle for line `i`. -/
def Phase.Unlisted (φ : Phase) (i : Nat) : Prop :=
  φ.read ≤ i ∨ φ.read = i + 1 ∧ (φ.hand = .empty ∨ φ.hand = .projectionPrivate)

/-- The registries list every handle once, and the tty registry exactly those of the streams that
are being served. -/
structure Identities (st : State) (phase : Party → Phase) : Prop where
  ttyNodup : st.ttyStreams.Nodup
  tty : ∀ h, h ∈ st.ttyStreams ↔ (phase (.connection h.session)).ListsTty h.line
  projectionNodup : st.projectionStreams.Nodup
  projection : ∀ h ∈ st.projectionStreams, ¬(phase (.connection h.session)).Unlisted h.line

section Steps

variable {Client : Type} {client : Nat → Client} {inputs : Inputs} {st st' : State}
  {phase : Party → Phase} {p : Party} {o : Op} {choice : Choice} {b : Bool} {φ φ' : Phase}

/-- A call that registers or unregisters nothing leaves what the connection knows to be listed. -/
theorem after_listed {s : Nat} (h : connectionAfter inputs s φ o b = some φ') (ho : ¬o.MovesTty)
    (ho' : ∀ l, o ≠ .projectionRegister l) :
    (∀ i, φ'.ListsTty i ↔ φ.ListsTty i) ∧ ∀ i, φ'.Unlisted i → φ.Unlisted i := by
  cases o <;> simp only [connectionAfter, permit_eq_some, reduceCtorEq] at h <;>
    simp only [Op.MovesTty, not_true_eq_false] at ho
  case projectionRegister l => exact absurd rfl (ho' l)
  case writeFrame l role frame =>
    split at h
    · cases role <;> simp only [connectionWrites, permit_eq_some] at h <;>
        obtain ⟨hpermit, rfl⟩ := h
      case projectionAck =>
        obtain ⟨-, -, -, hhand⟩ := hpermit
        cases b <;> simp [Phase.ListsTty, Phase.Unlisted, Phase.wrote, hhand]
      all_goals exact ⟨fun _ => .rfl, fun _ h => h⟩
    · cases h
  case release t =>
    split at h <;> obtain ⟨-, rfl⟩ := permit_eq_some.mp h <;> exact ⟨fun _ => .rfl, fun _ h => h⟩
  case readMessageLine t =>
    obtain ⟨⟨-, hidle⟩, rfl⟩ := h
    cases b
    · exact ⟨fun _ => .rfl, fun _ h => h⟩
    · have hhand : ¬(φ.hand = .ttyRegistered ∨ φ.hand = .ttyDestroyed) := by
        obtain h | h | h | h := hidle.hand <;> simp [h]
      refine ⟨fun i => ⟨fun h => absurd h.2 (by simp), fun h => absurd h.2 hhand⟩, fun i hi => ?_⟩
      simp only [Phase.Unlisted, if_true] at hi ⊢
      omega
  case enqueue l =>
    obtain ⟨-, rfl⟩ := h
    cases b <;> exact ⟨fun _ => .rfl, fun _ h => h⟩
  case ttyDeinit l =>
    obtain ⟨⟨-, -, hhand⟩, rfl⟩ := h
    obtain hhand | hhand := hhand <;> simp [Phase.ListsTty, Phase.Unlisted, hhand]
  case ttyInit l conversationId =>
    obtain ⟨⟨-, -, -, hhand⟩, rfl⟩ := h
    refine ⟨by simp [Phase.ListsTty, hhand], fun i hu => ?_⟩
    exact .inl (hu.resolve_right (by simp))
  case projectionInit l conversationId target =>
    obtain ⟨⟨-, -, -, hhand⟩, rfl⟩ := h
    simp [Phase.ListsTty, Phase.Unlisted, hhand]
  case projectionDeinit l =>
    obtain ⟨⟨-, -, hhand⟩, rfl⟩ := h
    simp [Phase.ListsTty, Phase.Unlisted, hhand]
  case consult what =>
    obtain ⟨-, rfl⟩ := h
    simp [Phase.ListsTty, Phase.Unlisted]
  all_goals
    obtain ⟨-, rfl⟩ := h
    exact ⟨fun _ => .rfl, fun _ h => h⟩

/-- Only connections register and unregister. -/
theorem mover_eq (h : after inputs p φ o b = some φ')
    (ho : o.MovesTty ∨ ∃ l, o = .projectionRegister l) :
    ∃ s, p = .connection s ∧ connectionAfter inputs s φ o b = some φ' := by
  cases p with
  | connection s => exact ⟨s, rfl, h⟩
  | worker l => cases o <;> simp_all [after, workerAfter, Op.MovesTty]
  | reader l => cases o <;> simp_all [after, readerAfter, Op.MovesTty]
  | client s thread => cases o <;> simp_all [after, clientAfter, Op.MovesTty]
  | maintenance => cases o <;> simp_all [after, Op.MovesTty]

theorem Identities.step_keep (h : Identities st phase)
    (hexec : exec choice st o = some (b, st')) (hafter : after inputs p (phase p) o b = some φ')
    (ho : ¬o.MovesTty) (ho' : ∀ l, o ≠ .projectionRegister l) :
    Identities st' (Function.update phase p φ') := by
  have htty := exec_ttyStreams ho hexec
  have hsub := exec_projectionStreams ho' hexec
  have hphase (l : LineId) :
      ((Function.update phase p φ' (.connection l.session)).ListsTty l.line ↔
        (phase (.connection l.session)).ListsTty l.line) ∧
      ((Function.update phase p φ' (.connection l.session)).Unlisted l.line →
        (phase (.connection l.session)).Unlisted l.line) := by
    by_cases hp : p = .connection l.session
    · subst hp
      obtain ⟨hlists, hunlisted⟩ := after_listed hafter ho ho'
      rw [Function.update_self]
      exact ⟨hlists l.line, hunlisted l.line⟩
    · rw [Function.update_of_ne (Ne.symm hp)]
      exact ⟨.rfl, id⟩
  refine ⟨htty ▸ h.ttyNodup, fun l => ?_, h.projectionNodup.sublist hsub, fun l hl hu => ?_⟩
  · rw [htty, h.tty, (hphase l).1]
  · exact h.projection l (hsub.subset hl) ((hphase l).2 hu)

section WithHand

variable {s : Nat} {l : LineId} {hand : Hand}

/-- The handles of the other lines are listed as before. -/
theorem listsTty_withHand (hl : l.session = s ∧ (phase (.connection s)).At l) {h : LineId}
    (hne : h ≠ l) : (withHand phase s hand (.connection h.session)).ListsTty h.line ↔
      (phase (.connection h.session)).ListsTty h.line := by
  rw [withHand_connection]
  split
  · rename_i hs
    rw [hs]
    have hread : (phase (.connection s)).read ≠ h.line + 1 := fun hr => hne (eq_of_at hl hs hr)
    exact ⟨fun h' => absurd h'.1 hread, fun h' => absurd h'.1 hread⟩
  · rfl

theorem listsTty_self (hl : l.session = s ∧ (phase (.connection s)).At l) :
    (withHand phase s hand (.connection l.session)).ListsTty l.line ↔
      hand = .ttyRegistered ∨ hand = .ttyDestroyed := by
  rw [withHand_connection, if_pos hl.1]
  exact ⟨fun h => h.2, fun h => ⟨hl.2.2, h⟩⟩

theorem unlisted_withHand {h : LineId}
    (hu : (withHand phase s hand (.connection h.session)).Unlisted h.line)
    (hhand : ¬(hand = .empty ∨ hand = .projectionPrivate)) :
    (phase (.connection h.session)).Unlisted h.line := by
  rw [withHand_connection] at hu
  split at hu
  · rename_i hs
    rw [hs]
    exact .inl (hu.resolve_right fun hc => hhand hc.2)
  · exact hu

theorem Identities.ttyRegister (h : Identities st phase)
    (hl : l.session = s ∧ (phase (.connection s)).At l)
    (hhand : (phase (.connection s)).hand = .ttyPrivate) :
    Identities { st with ttyStreams := st.ttyStreams ++ [l] } (withHand phase s .ttyRegistered) := by
  have hnew : l ∉ st.ttyStreams := fun hmem => by
    have := ((h.tty l).mp hmem).2
    rw [hl.1, hhand] at this
    simp at this
  refine ⟨List.concat_eq_append ▸ h.ttyNodup.concat hnew, fun l' => ?_, h.projectionNodup, fun l' hl' hu => ?_⟩
  · by_cases hne : l' = l
    · subst hne
      simp [listsTty_self hl]
    · rw [listsTty_withHand hl hne, ← h.tty]
      simp [hne]
  · exact h.projection l' hl' (unlisted_withHand hu (by simp))

theorem Identities.ttyUnregister (h : Identities st phase)
    (hone : Unambiguous st.ttyStreams st.ttyId (st.ttyId l))
    (hl : l.session = s ∧ (phase (.connection s)).At l)
    (hhand : (phase (.connection s)).hand = .ttyDestroyed) :
    Identities (st.ttyUnregister (st.ttyId l)) (withHand phase s .ttyGone) := by
  have hmem : l ∈ st.ttyStreams := (h.tty l).mpr (by
    rw [hl.1]
    exact ⟨hl.2.2, .inr hhand⟩)
  refine ⟨h.ttyNodup.sublist List.eraseP_sublist, fun l' => ?_, h.projectionNodup,
    fun l' hl' hu => ?_⟩
  · rw [mem_ttyUnregister h.ttyNodup hone]
    by_cases hne : l' = l
    · subst hne
      simp [listsTty_self hl]
    · rw [listsTty_withHand hl hne, ← h.tty]
      exact ⟨fun hin => hin.1, fun hin => ⟨hin, fun hid => hne (hone l' hin l hmem hid rfl)⟩⟩
  · exact h.projection l' hl' (unlisted_withHand hu (by simp))

theorem Identities.projectionRegister (h : Identities st phase)
    (hl : l.session = s ∧ (phase (.connection s)).At l)
    (hhand : (phase (.connection s)).hand = .projectionPrivate) :
    Identities { st with projectionStreams := st.projectionStreams ++ [l] }
      (withHand phase s .projectionRegistered) := by
  have hnew : l ∉ st.projectionStreams := fun hmem => h.projection l hmem (by
    rw [hl.1]
    exact .inr ⟨hl.2.2, .inr hhand⟩)
  have hnone : l ∉ st.ttyStreams := fun hmem => by
    have := ((h.tty l).mp hmem).2
    rw [hl.1, hhand] at this
    simp at this
  refine ⟨h.ttyNodup, fun l' => ?_, List.concat_eq_append ▸ h.projectionNodup.concat hnew, fun l' hl' hu => ?_⟩
  · by_cases hne : l' = l
    · subst hne
      simp [listsTty_self hl, hnone]
    · rw [listsTty_withHand hl hne, ← h.tty]
  · obtain hl' | hl' := List.mem_append.mp hl'
    · exact h.projection l' hl' (unlisted_withHand hu (by simp))
    · obtain rfl := List.mem_singleton.mp hl'
      rw [withHand_connection, if_pos hl.1] at hu
      have hread := hl.2.2
      obtain hu | ⟨-, hu⟩ := hu
      · simp only at hu
        omega
      · simp at hu

end WithHand

theorem Identities.step (h : Identities st phase) (hexec : exec choice st o = some (b, st'))
    (hafter : after inputs p (phase p) o b = some φ') (hcond : KeepsIdentity client p o b st) :
    Identities st' (Function.update phase p φ') := by
  by_cases hmoves : o.MovesTty ∨ ∃ l, o = .projectionRegister l
  · obtain ⟨s, rfl, hown⟩ := mover_eq hafter hmoves
    clear hafter
    cases o <;> simp only [Op.MovesTty, reduceCtorEq, exists_false, or_self] at hmoves <;>
      simp only [connectionAfter, permit_eq_some] at hown <;> simp only [exec] at hexec
    case ttyRegister l =>
      obtain ⟨⟨hs, hat, hhand⟩, rfl⟩ := hown
      cases hexec
      exact h.ttyRegister ⟨hs, hat⟩ hhand
    case ttyUnregister l =>
      obtain ⟨⟨hs, hat, hhand⟩, rfl⟩ := hown
      cases hexec
      exact h.ttyUnregister hcond ⟨hs, hat⟩ hhand
    case projectionRegister l =>
      obtain ⟨⟨hs, hat, hhand⟩, rfl⟩ := hown
      cases hexec
      exact h.projectionRegister ⟨hs, hat⟩ hhand
  · exact h.step_keep hexec hafter (fun hm => hmoves (.inl hm)) fun l hl => hmoves (.inr ⟨l, hl⟩)

end Steps

/-! ## Runs -/

section Runs

variable {Client : Type} {client : Nat → Client} {inputs : Inputs}
  {c c' : Machine.Config Party Op State Phase} {p : Party} {o : Op} {choice : Choice} {b : Bool}

theorem identities_start : Identities .start fun _ => .start := by
  constructor
  all_goals simp [State.start, Phase.start, Phase.ListsTty]

theorem reaches_identities (h : (machine inputs).Reaches (KeepsIdentity client) inputs.start c) :
    Identities c.state c.phase :=
  h.invariant (scripts_follow inputs) identities_start
    fun _ _ _ _ _ _ _ _ hi hexec hafter hcond => hi.step hexec hafter hcond

/-- In the runs in which a search by conversation id never finds a second handle or the handle of
another client, every step takes out of the registries, and closes, exactly the handles that it is
about. -/
theorem stream_identity (h : (machine inputs).Reaches (KeepsIdentity client) inputs.start c)
    (hstep : (machine inputs).Steps c c' p o choice b) (hcond : KeepsIdentity client p o b c.state)
    (l : LineId) :
    ((l ∈ c.state.ttyStreams ∧ l ∉ c'.state.ttyStreams) ↔ o.LeavesTty l) ∧
      ((c.state.tty l).closing = false →
        ((c'.state.tty l).closing = true ↔ o.ClosesTty client c.state l)) ∧
      ((l ∈ c.state.projectionStreams ∧ l ∉ c'.state.projectionStreams) ↔
        o.LeavesProjection client choice c.state c'.state l) := by
  have hi := reaches_identities h
  obtain ⟨φ', hafter, -⟩ := (h.conforms (scripts_follow inputs)).permits hstep
  have hexec := hstep.exec
  refine ⟨?_, exec_closing hcond hexec, exec_leavesProjection hi.projectionNodup hcond hexec l⟩
  by_cases ho : o.MovesTty
  · obtain ⟨s, rfl, hown⟩ := mover_eq hafter (.inl ho)
    cases o <;> simp only [Op.MovesTty] at ho <;> simp only [machine_exec, exec] at hexec <;>
      simp only [connectionAfter, permit_eq_some] at hown
    case ttyRegister l' =>
      obtain ⟨-, hst⟩ := Prod.mk.inj (Option.some.inj hexec)
      rw [← hst]
      exact iff_false_intro fun hl => hl.2 (List.mem_append_left _ hl.1)
    case ttyUnregister l' =>
      obtain ⟨⟨hs, hat, hhand⟩, -⟩ := hown
      have hmem : l' ∈ c.state.ttyStreams := (hi.tty l').mpr (by
        rw [hs]
        exact ⟨hat.2, .inr hhand⟩)
      obtain ⟨-, hst⟩ := Prod.mk.inj (Option.some.inj hexec)
      rw [← hst, show (c.state.tty l').conversationId = c.state.ttyId l' from rfl,
        mem_ttyUnregister hi.ttyNodup hcond, not_and, not_not]
      constructor
      · rintro ⟨hl, hid⟩
        exact hcond l hl l' hmem (hid hl) rfl
      · rintro rfl
        exact ⟨hmem, fun _ => rfl⟩
  · rw [exec_ttyStreams ho hexec]
    refine ⟨fun hl => absurd hl.1 hl.2, fun hl => ?_⟩
    cases o <;> first | exact absurd trivial ho | cases hl

end Runs

/-- Two connections whose clients both open a tty stream as `c-1`. -/
def twoStreams : Inputs :=
  .ofLines fun s => if s < 2 then [rpcLine "c-1" 1 "tty.stream.open" none] else []

/-- The stream of connection `s` is opened, its pane exits, and its request comes to `unregister`. -/
def openThenExit (s : Nat) : List (Party × Choice) :=
  steps (.client s 0) 1 ++ steps (.connection s) 9 ++ steps (.reader ⟨s, 0⟩) 4 ++
    steps (.connection s) 4

/-- The party's next call is the `unregister` of the tty handle. -/
def atUnregister (c : Machine.Config Party Op State Phase) (l : LineId) : Bool :=
  match c.next (.connection l.session) with
  | some (.ttyUnregister l') => l' = l
  | _ => false

theorem next_of_atUnregister {c : Machine.Config Party Op State Phase} {l : LineId}
    (h : atUnregister c l = true) : c.next (.connection l.session) = some (.ttyUnregister l) := by
  unfold atUnregister at h
  split at h
  · rename_i l' hnext
    rw [hnext, of_decide_eq_true h]
  · cases h

theorem stream_identity_exit :
    ∃ c c' choice b, (machine twoStreams).Reaches (KeepsIdentity id) twoStreams.start c ∧
      (machine twoStreams).Steps c c' (.connection 0) (.ttyUnregister ⟨0, 0⟩) choice b ∧
      ∀ l, (l ∈ c.state.ttyStreams ∧ l ∉ c'.state.ttyStreams) ↔ l = ⟨0, 0⟩ := by
  obtain ⟨c, hc, htest⟩ := Machine.Reaches.exists_of_follow
    (M := machine twoStreams) (KeepsIdentity id) twoStreams.start
    (openThenExit 0) (fun c => atUnregister c ⟨0, 0⟩ &&
      decide (KeepsIdentity id (.connection 0) (.ttyUnregister ⟨0, 0⟩) true c.state))
    (by decide +kernel)
  simp only [Bool.and_eq_true, decide_eq_true_eq] at htest
  obtain ⟨hnext, hcond⟩ := htest
  obtain ⟨c', hstep, -⟩ := Machine.Steps.of_next (M := machine twoStreams) .fine
    (next_of_atUnregister hnext) rfl
  exact ⟨c, c', .fine, true, hc, hstep, fun l => (stream_identity hc hstep hcond l).1⟩

/-- The second of the two streams exits, and takes the handle of the first out of the registry. -/
theorem exit_unregisters_other_client :
    ∃ c c' choice b, (machine twoStreams).Reaches Machine.anyStep twoStreams.start c ∧
      (machine twoStreams).Steps c c' (.connection 1) (.ttyUnregister ⟨1, 0⟩) choice b ∧
      (⟨0, 0⟩ : LineId) ∈ c.state.ttyStreams ∧ (⟨0, 0⟩ : LineId) ∉ c'.state.ttyStreams ∧
      (⟨1, 0⟩ : LineId) ∈ c'.state.ttyStreams := by
  obtain ⟨c, hc, htest⟩ := Machine.Reaches.exists_of_follow
    (M := machine twoStreams) Machine.anyStep twoStreams.start
    (steps (.client 0 0) 1 ++ steps (.connection 0) 9 ++ openThenExit 1)
    (fun c => atUnregister c ⟨1, 0⟩ && decide ((⟨0, 0⟩ : LineId) ∈ c.state.ttyStreams) &&
      decide ((c.state.ttyUnregister (c.state.tty ⟨1, 0⟩).conversationId).ttyStreams = [⟨1, 0⟩]))
    (by decide +kernel)
  simp only [Bool.and_eq_true, decide_eq_true_eq] at htest
  obtain ⟨⟨hnext, hmem⟩, hleft⟩ := htest
  obtain ⟨c', hstep, hst⟩ := Machine.Steps.of_next (M := machine twoStreams) .fine
    (next_of_atUnregister hnext) rfl
  refine ⟨c, c', .fine, true, hc, hstep, hmem, ?_, ?_⟩
  · rw [hst, hleft]
    decide
  · rw [hst, hleft]
    decide

end Muxly.Server
