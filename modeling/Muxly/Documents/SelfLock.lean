/-
# Muxly.Documents.SelfLock -- the one request that waits for itself

A request on a document other than the root document is executed under a guard of that document.
Handlers of one document run under it as `Muxly.Daemon` shows, and the others leave the documents
alone, but for the list of all documents: it takes a reader's guard of every document, and waits for
its own guard when it reaches the document that it was aimed at.
-/
import Muxly.Documents.Requests

namespace Muxly.Documents

open Muxly.Control Muxly.Core Muxly.Core.Document Muxly.Daemon Muxly.Sync Muxly.Sync.Program

variable {α : Type} {held : List StoreMutex}

/-! ## Code that leaves the documents alone -/

/-- The code ends with the mutexes it started with; it may put documents behind the others, and
leaves those that are there as they are. -/
def Plain (held : List StoreMutex) (p : StoreM α) : Prop :=
  ∀ documents, Executes held (fun s => Sound s ∧ documents <+: s.documents) p
    fun _ s => Sound s ∧ documents <+: s.documents

theorem plain_ret (r : Except Failure α) : Plain held (.ret r : StoreM α) :=
  fun _ => executes_ret fun _ hs => hs

theorem Plain.bindResult {p : StoreM α} (hp : Plain held p) {β : Type}
    {k : Except Failure α → StoreM β} (hk : ∀ r, Plain held (k r)) :
    Plain held (Program.bindResult p k) :=
  fun documents => (hp documents).bindResult fun r => hk r documents

theorem Plain.bind {p : StoreM α} (hp : Plain held p) {β : Type} {k : α → StoreM β}
    (hk : ∀ a, Plain held (k a)) : Plain held (p >>= k) :=
  fun documents => (hp documents).bind (fun a => hk a documents) fun _ _ hs => hs

theorem plain_act {f : Store → Except Failure α × Store}
    (h : ∀ s, (f s).2.documents = s.documents) : Plain held (act f) := by
  refine fun documents => executes_act fun s hs => ?_
  have hlists : Lists s.paths s := ⟨hs.1, List.prefix_rfl⟩
  have horderly : Orderly held (act f) := orderly_act h
  obtain ⟨_, _, hsolo, hs'⟩ := horderly.executes s.paths s hlists
  have hend : (f s).2 = _ := congrArg (fun stop => stop.2.2) hsolo
  exact ⟨hend ▸ hs'.sound, by rw [h s]; exact hs.2⟩

theorem plain_read (f : Store → Except Failure α) : Plain held (read f) := plain_act fun _ => rfl

/-- Code on the root document that only looks at it, under mutexes of its own. -/
theorem plain_onRoot {p : EntryM α} {f : DocumentEntry → Except Failure α}
    (hp : Alone [] p (Action.view f)) (hfree : ∀ m, (0, m) ∉ held) : Plain held (onRoot p) := by
  intro documents s hs
  have hroot := hs.1.place_root
  have hinj : Function.Injective fun m : Mutex => (0, m) := fun _ _ h => (Prod.ext_iff.mp h).2
  have hhas : (entryPart 0).Has s := (place_some hroot).1
  have hzoom := solo_zoom (k := Unit) hinj p [] hfree hhas
  rw [hp] at hzoom
  have hsame : (entryPart 0).put (s.entryAt 0) s = s := (entryPart 0).put_get (place_some hroot).1
  refine ⟨f (s.entryAt 0), s, ?_, hs⟩
  show solo (bindResult rootDocument _) held s = _
  rw [solo_bindResult, rootDocument, solo_placeOr, hroot]
  exact hzoom.trans (congrArg (fun s' => (Stop.done (f (s.entryAt 0)), held, s')) hsame)

theorem plain_createDocument (documentPath : Bytes) (title : Option Bytes) :
    Plain held (createDocument documentPath title) := by
  unfold createDocument
  split
  · exact plain_ret _
  · rename_i hcanonical
    split
    · exact plain_ret _
    · refine fun documents => executes_act fun s hs => ?_
      split
      · exact hs
      · rename_i hnew
        split
        · exact ⟨sound_withDocument (by simpa using hcanonical) hnew _ hs.1,
            hs.2.trans (List.prefix_append _ _)⟩
        · exact hs

theorem plain_handleDocumentCreate (request : RequestEnvelope) :
    Plain held (handleDocumentCreate request) := by
  unfold handleDocumentCreate required
  split
  · refine (plain_createDocument _ _).bindResult fun r => ?_
    split
    · exact (plain_read _).bind fun _ => plain_ret _
    · split
      · exact plain_ret _
      · exact plain_ret _
    · exact plain_ret _
  · exact plain_ret _

theorem plain_handleList {w : Backend} {answer : List PaneSnapshot → StoreM Body}
    (h : ∀ snapshots, Plain held (answer snapshots)) : Plain held (handleList w answer) := by
  refine Plain.bind (plain_act fun s => ?_) fun _ => (plain_read _).bind h
  split
  · rfl
  · rfl

theorem plain_writePaneList (hfree : ∀ m, (0, m) ∉ held) (snapshots : List PaneSnapshot) :
    Plain held (writePaneList snapshots) := by
  induction snapshots with
  | nil => exact plain_ret _
  | cons snapshot rest ih =>
      exact (plain_onRoot (alone_findNodeIdByPaneId _) hfree).bind fun _ => ih.bind fun _ =>
        plain_ret _

theorem plain_handlePlainRequest (w : Backend) (request : RequestEnvelope)
    (hfree : ∀ m, (0, m) ∉ held) : Plain held (handlePlainRequest w request) := by
  unfold handlePlainRequest
  split
  · exact plain_handleList fun _ => plain_ret _
  · exact plain_handleList fun _ => plain_ret _
  · exact plain_handleList fun snapshots => (plain_writePaneList hfree snapshots).bind fun _ =>
      plain_ret _
  all_goals exact plain_ret _

/-- A method of the root document is refused on every other one. -/
theorem rootOnly_refuses (request : RequestEnvelope) {documentPath : Bytes}
    (hpath : documentPath ≠ rootDocumentPath) (k : StoreM Body) :
    ∃ r, rootOnly request documentPath k = .ret r := by
  unfold rootOnly
  split
  · rename_i hvalid
    unfold validateRootDocumentOnlyTarget at hvalid
    rw [if_pos hpath] at hvalid
    split at hvalid
    · cases hvalid
    · cases hvalid
  · exact ⟨_, rfl⟩
  · exact ⟨_, rfl⟩
  · exact ⟨_, rfl⟩

/-! ## Requests under a guard -/

/-- A request takes a guard of the document at a place. -/
structure Guarded (s : Store) (request : RequestEnvelope) (documentPath : Bytes) (index : Nat) :
    Prop where
  target : requestDocumentPath request = .ok documentPath
  notRoot : documentPath ≠ rootDocumentPath
  place : s.place documentPath = some index

theorem Guarded.ne_zero {s : Store} {request : RequestEnvelope} {documentPath : Bytes} {index : Nat}
    (h : Guarded s request documentPath index) (hs : s.Named) : index ≠ 0 := by
  rintro rfl
  apply h.notRoot
  rw [← (place_some h.place).2, (place_some hs.place_root).2]

section Guarded

variable (w : Backend) {s : Store} {request : RequestEnvelope} {documentPath : Bytes} {index : Nat}
  (h : Guarded s request documentPath index)
include h

theorem solo_handleOnPath (held : List StoreMutex) :
    solo (handleOnPath w request documentPath) held s
      = solo (handleFound w request documentPath (.ok index)) held s := by
  unfold handleOnPath requestEntry
  rw [if_neg h.notRoot, solo_bindResult, documentEntryForPath, solo_placeOr, h.place]
  rfl

omit h in
theorem Plain.result {p : StoreM Body} (hp : Plain held p) (hs : Sound s) :
    ∃ r s', solo p held s = (.done r, held, s') ∧ Sound s' ∧ s.documents <+: s'.documents :=
  hp s.documents s ⟨hs, List.prefix_rfl⟩

omit h in
theorem plain_rootOnly (hpath : documentPath ≠ rootDocumentPath) (k : StoreM Body) :
    Plain held (rootOnly request documentPath k) := by
  obtain ⟨r, hrefused⟩ := rootOnly_refuses request hpath k
  rw [hrefused]
  exact plain_ret r

/-- A method that is none of the document's leaves the documents alone. -/
theorem plain_handleFound (hfree : ∀ m, (0, m) ∉ held)
    (hdebug : handleDebugRequest (w.env documentPath) documentPath request = none)
    (hdocument : handleDocumentRequest (w.env documentPath) documentPath request = none) :
    Plain held (handleFound w request documentPath (.ok index)) := by
  unfold handleFound
  rw [hdebug]
  refine Plain.bind ?_ fun _ => ?_
  · unfold pumpFor
    rw [if_neg h.notRoot]
    exact plain_ret _
  · unfold handleMethod
    rw [hdocument]
    simp only
    split
    · exact plain_rootOnly h.notRoot _
    · exact plain_handlePlainRequest w request hfree

/-- The list of all documents apart, a request runs on its own document, or leaves the documents
alone. -/
theorem handleRequest_cases (hlist : ¬ (request.jsonrpcIsTwo = true ∧ request.method = .documentList)) :
    (request.method ≠ .documentList ∧ ∀ held, solo (handleRequest w (some request)) held s
      = solo (onEntry index (handleOnDocument (w.env documentPath) documentPath request)) held s) ∨
    ∀ held, (∀ m, (0, m) ∉ held) → Sound s → ∃ r s',
      solo (handleRequest w (some request)) held s = (.done r, held, s') ∧ Sound s' ∧
        s.documents <+: s'.documents := by
  cases hjson : request.jsonrpcIsTwo with
  | false =>
      refine .inr fun held _ hs => Plain.result ?_ hs
      unfold handleRequest
      simp only [hjson, Bool.not_false, if_true]
      exact plain_ret _
  | true =>
      unfold handleRequest handleOnDocument
      simp only [hjson, Bool.not_true, Bool.false_eq_true, if_false, h.target]
      split
      · exact .inr fun held _ hs => (plain_ret _).result hs
      · exact .inr fun held _ hs => (plain_ret _).result hs
      · exact .inr fun held _ hs => (plain_ret _).result hs
      · rename_i hmethod
        exact absurd ⟨hjson, hmethod⟩ hlist
      · exact .inr fun held _ hs => (plain_handleDocumentCreate request).result hs
      · rename_i hmethod _
        rw [if_neg hmethod]
        cases hdebug : handleDebugRequest (w.env documentPath) documentPath request with
        | some handler =>
            refine .inl ⟨hmethod, fun held => ?_⟩
            rw [solo_handleOnPath w h, handleFound, hdebug]
        | none =>
            cases hdocument : handleDocumentRequest (w.env documentPath) documentPath request with
            | some handler =>
                refine .inl ⟨hmethod, fun held => ?_⟩
                rw [solo_handleOnPath w h, handleFound, hdebug]
                show solo (bindResult (pumpFor w documentPath) _) held s = _
                rw [pumpFor, if_neg h.notRoot]
                show solo (handleMethod w request documentPath index) held s = _
                rw [handleMethod, hdocument]
                rfl
            | none =>
                refine .inr fun held hfree hs => ?_
                rw [solo_handleOnPath w h]
                exact (plain_handleFound w h hfree hdebug hdocument).result hs

/-! ## The guard around a request -/

theorem solo_acquireRequestGuard : solo (acquireRequestGuard (some request)) [] s
    = solo (acquireGuardAt request (some index)) [] s := by
  unfold acquireRequestGuard
  simp only [h.target]
  rw [if_neg h.notRoot, bind_eq, solo_bindResult, solo_read, h.place]
  rfl

/-- The mutexes of an entry, by their names in the store. -/
def ofEntry (index : Nat) (m : Mutex) : StoreMutex := (index, m)

omit h in
theorem ofEntry_injective (index : Nat) : Function.Injective (ofEntry index) :=
  fun _ _ h => (Prod.ext_iff.mp h).2

omit h in
theorem free_of_ne {other : Nat} (hne : other ≠ index) (mutexes : List Mutex) (m : Mutex) :
    (other, m) ∉ mutexes.map (ofEntry index) := by
  intro hm
  obtain ⟨_, -, heq⟩ := List.mem_map.mp hm
  exact hne (Prod.ext_iff.mp heq).1.symm

omit h in
/-- Code on an entry whose mutexes are the only ones held. -/
theorem solo_onEntry {α : Type} (p : EntryM α) (mutexes : List Mutex)
    (hindex : index < s.documents.length) :
    solo (onEntry index p) (mutexes.map (ofEntry index)) s
      = ((solo p mutexes (s.entryAt index)).1.rename (ofEntry index),
          (solo p mutexes (s.entryAt index)).2.1.map (ofEntry index),
          s.withEntry index (solo p mutexes (s.entryAt index)).2.2) := by
  have hhas : (entryPart index).Has s := hindex
  have hfree : ∀ m, ofEntry index m ∉ ([] : List StoreMutex) := fun _ => List.not_mem_nil
  have hzoom := solo_zoom (k := Unit) (ofEntry_injective index) p mutexes hfree hhas
  rw [List.append_nil, List.append_nil] at hzoom
  exact hzoom

/-- The guard fails and nothing is held, or it is held and can be released. -/
theorem guarded_cases (hs : Sound s) :
    (∃ failure e₁, solo (acquireRequestGuardForEntry request) [] (s.entryAt index)
        = (.done (.error failure), [], e₁)) ∨
      ∃ guard mutexes e₁,
        solo (acquireRequestGuardForEntry request) [] (s.entryAt index)
          = (.done (.ok guard), mutexes, e₁) ∧
        ∃ r e₂, solo guard.release mutexes e₁ = (.done r, [], e₂) := by
  have hacquire := wp_acquireRequestGuard (R := .ascending) (t := 0) documentPath request
  unfold Daemon.acquireRequestGuard at hacquire
  rw [if_neg h.notRoot] at hacquire
  rcases solo_acquire (hs.sane _ (entryAt_mem (place_some h.place).1)) hacquire with
    hfail | ⟨guard, _, _, mutexes, e₁, _, hsolo, _, hrelease⟩
  · exact .inl hfail
  · exact .inr ⟨guard, mutexes, e₁, hsolo, hrelease⟩

/-- A guard that is not granted: the request ends there. -/
theorem solo_execute_failed {failure : Failure} {e₁ : DocumentEntry}
    (hacquire : solo (acquireRequestGuardForEntry request) [] (s.entryAt index)
      = (.done (.error failure), [], e₁)) :
    solo (executeQueuedRequest w (some request)) [] s
      = (.done (.error failure), [], s.withEntry index e₁) := by
  have honEntry := solo_onEntry (acquireRequestGuardForEntry request) [] (place_some h.place).1
  rw [hacquire, List.map_nil] at honEntry
  rw [executeQueuedRequest, solo_bindResult, solo_acquireRequestGuard h, acquireGuardAt, bind_eq,
    solo_bindResult, honEntry]
  rfl

/-- A guard that is granted: the request is handled under its mutexes, and then it is released. -/
theorem solo_execute_granted {guard : RequestGuard} {mutexes : List Mutex} {e₁ : DocumentEntry}
    (hacquire : solo (acquireRequestGuardForEntry request) [] (s.entryAt index)
      = (.done (.ok guard), mutexes, e₁)) :
    solo (executeQueuedRequest w (some request)) [] s
      = solo (ensure (handleRequest w (some request)) (onEntry index guard.release))
          (mutexes.map (ofEntry index)) (s.withEntry index e₁) := by
  have honEntry := solo_onEntry (acquireRequestGuardForEntry request) [] (place_some h.place).1
  rw [hacquire, List.map_nil] at honEntry
  rw [executeQueuedRequest, solo_bindResult, solo_acquireRequestGuard h, acquireGuardAt, bind_eq,
    solo_bindResult, honEntry]
  rfl

omit h in
/-- What code leaves on the entry at a place. -/
theorem sound_withEntry {α : Type} {p : EntryM α} (hp : Upkeeps p) (hs : Sound s)
    (hindex : index < s.documents.length) {mutexes mutexes' : List Mutex} {r : Except Failure α}
    {e' : DocumentEntry} (hsolo : solo p mutexes (s.entryAt index) = (.done r, mutexes', e')) :
    Sound (s.withEntry index e') ∧ (s.withEntry index e').paths = s.paths ∧
      (s.withEntry index e').entryAt index = e' := by
  have hsane := hp.sane _ (hs.sane _ (entryAt_mem hindex))
  have hpath := hp.path.unlocked samePath_progress (s.entryAt index)
  rw [unlocked_of_solo hsolo] at hsane hpath
  refine ⟨(Lists.withEntry ⟨hs, List.prefix_rfl⟩ hpath hsane).sound, paths_withEntry hpath, ?_⟩
  exact (entryPart index).get_put hindex

omit h in
theorem entryAt_of_known {s' : Store} (hknown : s.documents <+: s'.documents)
    (hindex : index < s.documents.length) :
    index < s'.documents.length ∧ s'.entryAt index = s.entryAt index := by
  have hlt : index < s'.documents.length := lt_of_lt_of_le hindex hknown.length_le
  refine ⟨hlt, ?_⟩
  rw [entryAt_eq hlt, entryAt_eq hindex]
  exact (hknown.getElem hindex).symm

/-- On its own document the handler and the release of the guard are the rest of `executeRequest`,
which ends. -/
theorem solo_handleOnDocument (hs : Sound s) (hmethod : request.method ≠ .documentList)
    {guard : RequestGuard} {mutexes : List Mutex} {e₁ : DocumentEntry}
    (hacquire : solo (acquireRequestGuardForEntry request) [] (s.entryAt index)
      = (.done (.ok guard), mutexes, e₁)) :
    ∃ r e₂, solo (ensure (handleOnDocument (w.env documentPath) documentPath request) guard.release)
      mutexes e₁ = (.done r, [], e₂) := by
  have hsteady := steady_executeRequest (w.env documentPath) h.notRoot hmethod
  obtain ⟨r, e₂, hsolo, -⟩ := hsteady.executes _ (hs.sane _ (entryAt_mem (place_some h.place).1))
  refine ⟨r, e₂, ?_⟩
  unfold executeRequest Daemon.acquireRequestGuard underGuard at hsolo
  rw [if_neg h.notRoot, solo_bindResult, hacquire] at hsolo
  exact hsolo

/-- Under its guard a request ends and gives the guard back, unless it lists the documents. -/
theorem execute_ends (hs : Sound s)
    (hlist : ¬ (request.jsonrpcIsTwo = true ∧ request.method = .documentList)) :
    ∃ r s', solo (executeQueuedRequest w (some request)) [] s = (.done r, [], s') ∧ Sound s' ∧
      s.paths <+: s'.paths := by
  have hindex := (place_some h.place).1
  have hacquireKeeps := upkeeps_acquireRequestGuardForEntry request
  rcases guarded_cases h hs with ⟨failure, e₁, hacquire⟩ | ⟨guard, mutexes, e₁, hacquire, r₂, e₂, hrelease⟩
  · obtain ⟨hs₁, hpaths₁, -⟩ := sound_withEntry hacquireKeeps hs hindex hacquire
    exact ⟨_, _, solo_execute_failed w h hacquire, hs₁, known_of_eq hpaths₁⟩
  · obtain ⟨hs₁, hpaths₁, hentry₁⟩ := sound_withEntry hacquireKeeps hs hindex hacquire
    have hindex₁ : index < (s.withEntry index e₁).documents.length := (entryPart index).has_put hindex
    have h₁ : Guarded (s.withEntry index e₁) request documentPath index :=
      ⟨h.target, h.notRoot, (Extends.of_paths hpaths₁).place h.place⟩
    rw [solo_execute_granted w h hacquire]
    rcases handleRequest_cases w h₁ hlist with ⟨hmethod, hown⟩ | hplain
    · obtain ⟨r, e₂, hrest⟩ := solo_handleOnDocument w h hs hmethod hacquire
      have hupkeeps : Upkeeps (ensure (handleOnDocument (w.env documentPath) documentPath request)
          guard.release) :=
        (upkeeps_handleOnDocument (w.env documentPath) documentPath request).ensure
          (upkeeps_guardRelease guard)
      rw [← hentry₁] at hrest
      obtain ⟨hs₂, hpaths₂, -⟩ := sound_withEntry hupkeeps hs₁ hindex₁ hrest
      have honEntry := solo_onEntry (ensure (handleOnDocument (w.env documentPath) documentPath
        request) guard.release) mutexes hindex₁
      rw [hrest, onEntry, zoom_ensure] at honEntry
      refine ⟨r, _, ?_, hs₂, known_of_eq (hpaths₂.trans hpaths₁)⟩
      rw [ensure, solo_bindResult, hown, ← solo_bindResult]
      exact honEntry
    · obtain ⟨r, s₂, hhandle, hs₂, hknown⟩ := hplain _
        (free_of_ne (h₁.ne_zero hs₁.toNamed).symm mutexes) hs₁
      obtain ⟨hindex₂, hentry₂⟩ := entryAt_of_known hknown hindex₁
      rw [hentry₁] at hentry₂
      rw [← hentry₂] at hrelease
      obtain ⟨hs₃, hpaths₃, -⟩ := sound_withEntry (upkeeps_guardRelease guard) hs₂ hindex₂ hrelease
      have honEntry := solo_onEntry guard.release mutexes hindex₂
      rw [hrelease] at honEntry
      refine ⟨r, s₂.withEntry index e₂, ?_, hs₃, ?_⟩
      · rw [ensure, solo_bindResult, hhandle]
        show solo (bindResult (onEntry index guard.release) _) _ s₂ = _
        rw [solo_bindResult, honEntry]
        rfl
      · rw [hpaths₃, ← hpaths₁]
        exact hknown.map _

/-! ## The list of all documents -/

omit h in
/-- The list comes to the document whose coordinator is held, and waits. -/
theorem solo_writeDocumentList {paths : List Bytes} {entries : List Nat} (hmem : index ∈ entries)
    (hentries : ∀ i ∈ entries, i < paths.length) (hcoordinator : (index, Mutex.coordinator) ∈ held)
    (hfree : ∀ i, i ≠ index → ∀ m, (i, m) ∉ held) (hs : Lists paths s) :
    ∃ s', solo (writeDocumentList entries) held s = (.selfLock (index, .coordinator), held, s') := by
  induction entries generalizing s with
  | nil => exact absurd hmem List.not_mem_nil
  | cons i rest ih =>
      rw [writeDocumentList, bind_eq, solo_bindResult]
      by_cases hi : i = index
      · subst hi
        refine ⟨s, ?_⟩
        have hwait : ∀ p : EntryM DocumentSummary,
            solo (onEntry i (underGuard acquireQuiescentRead p)) held s
              = (.selfLock (i, .coordinator), held, s) := by
          intro p
          show solo (.lock (i, Mutex.coordinator) _) held s = _
          rw [solo, if_pos hcoordinator]
        rw [hwait]
        rfl
      · -- A document before it is looked at, and the list goes on.
        obtain ⟨_, s₁, hsolo, hs₁, summary, rfl⟩ := executes_onEntry
          (executes_observe fun e => documentSummary e.path e.document) (steady_observe _).path
          (hfree i hi) (hentries i (List.mem_cons_self ..)) s hs
        rw [hsolo]
        have hrest : index ∈ rest := (List.mem_cons.mp hmem).resolve_left fun heq => hi heq.symm
        obtain ⟨s', hwait⟩ := ih hrest (fun j hj => hentries j (List.mem_cons_of_mem _ hj)) hs₁
        refine ⟨s', ?_⟩
        show solo (bindResult (writeDocumentList rest) _) held s₁ = _
        rw [solo_bindResult, hwait]
        rfl

/-- The list of all documents, aimed at one of them that is not the root document. -/
theorem execute_waits (hs : Sound s) (hjson : request.jsonrpcIsTwo = true)
    (hmethod : request.method = .documentList) :
    ∃ mutexes s', solo (executeQueuedRequest w (some request)) [] s
      = (.selfLock (index, .coordinator), mutexes, s') := by
  have hindex := (place_some h.place).1
  have hguard : acquireRequestGuardForEntry request = acquireCoordinatorExclusive := by
    unfold acquireRequestGuardForEntry
    simp [hmethod, requestUsesQuiescentReadGuard, requestSupportsDynamicDomainLane,
      requestIsContentOnlyNodeUpdate, requestIsStructuralDomainWrite, requestIsAppendLike,
      requestIsRemoveLike]
  rcases solo_acquire (hs.sane _ (entryAt_mem hindex)) wp_acquireCoordinatorExclusive with
    ⟨failure, e₁, hacquire⟩ | ⟨guard, _, _, mutexes, e₁, hexclusive, hacquire, hmutexes, -⟩
  · have hgranted := unlocked_of_solo hacquire
    rw [unlocked_acquireCoordinatorExclusive] at hgranted
    cases (Prod.ext_iff.mp hgranted).1
  · rw [← hguard] at hacquire
    obtain ⟨hs₁, hpaths₁, -⟩ := sound_withEntry (upkeeps_acquireRequestGuardForEntry request) hs
      hindex hacquire
    have hindex₁ : index < (s.withEntry index e₁).documents.length := (entryPart index).has_put hindex
    have hcoordinator : (index, Mutex.coordinator) ∈ mutexes.map (ofEntry index) :=
      List.mem_map.mpr ⟨_, (hmutexes _).mpr (RequestGuard.coordinator_mem_mutexes hexclusive), rfl⟩
    have hentries : ∀ i ∈ List.range (s.withEntry index e₁).documents.length,
        i < (s.withEntry index e₁).paths.length := by
      intro i hi
      rw [length_paths]
      exact List.mem_range.mp hi
    obtain ⟨s', hwait⟩ := solo_writeDocumentList (List.mem_range.mpr hindex₁) hentries hcoordinator
      (fun i hi => free_of_ne hi mutexes) ⟨hs₁, List.prefix_rfl⟩
    refine ⟨mutexes.map (ofEntry index), s', ?_⟩
    rw [solo_execute_granted w h hacquire, ensure, solo_bindResult]
    have hhandle : solo (handleRequest w (some request)) (mutexes.map (ofEntry index))
        (s.withEntry index e₁) = (.selfLock (index, .coordinator), mutexes.map (ofEntry index), s') := by
      unfold handleRequest
      simp only [hjson, hmethod, Bool.not_true, Bool.false_eq_true, if_false]
      unfold handleDocumentList
      rw [bind_eq, solo_bindResult, snapshotDocumentEntries, solo_read]
      show solo (bindResult (writeDocumentList _) _) _ _ = _
      rw [solo_bindResult, hwait]
      rfl
    rw [hhandle]
    rfl

end Guarded

end Muxly.Documents
