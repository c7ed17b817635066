/-
# Muxly.Documents.Survival -- no request in range takes the daemon down

A panic in a lane worker ends the daemon for every client. `Muxly.Daemon.Survival` shows that the
handlers of one document do not panic when the numbers of the request are in range and the document
has room. Here the request comes as text to the store of the daemon: its document is looked up, the
guard is taken, one of the handlers runs, and the guard is given back. What runs on the root document
follows tmux first and is left out.
-/
import Muxly.Daemon.Survival
import Muxly.Documents.Isolation

namespace Muxly.Documents

open Muxly.Control Muxly.Core Muxly.Core.Document Muxly.Daemon Muxly.Sync Muxly.Sync.Program

variable {α : Type} {request : RequestEnvelope} {documentPath : Bytes} {index : Nat}

/-! ## Surroundings and stores -/

/-- tmux fails only with errors that a request is told about, and the streams accept what they are
sent. -/
structure Backend.Quiet (w : Backend) : Prop where
  env : ∀ documentPath, (w.env documentPath).Quiet
  panes : ∀ visit, Reports (w.listPaneSnapshots visit)

/-- The request runs on the root document. -/
structure OnRoot (request : RequestEnvelope) : Prop where
  target : requestDocumentPath request = .ok rootDocumentPath
  method : request.method ∉
    [.ping, .initializeSession, .capabilitiesGet, .documentList, .documentCreate]

/-- A store that a request can be carried out on: its own document has room. -/
structure Ready (request : RequestEnvelope) (s : Store) : Prop where
  sound : Sound s
  documents : s.nextDocumentId + 1 < u64Limit
  roomy : ∀ documentPath index, Guarded s request documentPath index →
    Roomy (s.entryAt index).document

/-- The store is ready, and the document of the request is at a place. -/
structure ReadyAt (request : RequestEnvelope) (documentPath : Bytes) (index : Nat) (s : Store) :
    Prop extends Ready request s where
  guarded : Guarded s request documentPath index

theorem Guarded.unique {s : Store} {documentPath' : Bytes} {index' : Nat}
    (h : Guarded s request documentPath index) (h' : Guarded s request documentPath' index') :
    index' = index := by
  have htarget := h'.target
  rw [h.target] at htarget
  cases htarget
  have hplace := h'.place
  rw [h.place] at hplace
  cases hplace
  rfl

theorem Sound.of_documents {s s' : Store} (hs : Sound s) (h : s'.documents = s.documents) :
    Sound s' := by
  have hext : Extends s s' := .of_documents h
  refine ⟨hext.named hs.toNamed, ?_⟩
  rw [h]
  exact hs.sane

/-! ## Code on one document -/

/-- Code on the entry at a place: what it does there is all that happens to the store. -/
theorem yields_onEntry {p : EntryM α} {s : Store} {Q : α → DocumentEntry → Prop}
    {R : α → Store → Prop} (hindex : index < s.documents.length)
    (hp : Yields Reported (fun e => e = s.entryAt index) p Q)
    (hR : ∀ a e, Q a e → R a (s.withEntry index e)) :
    Yields Reported (fun s' => s' = s) (onEntry index p) R := by
  have hhas : (entryPart index).Has s := hindex
  refine (hp.zoom hhas rfl).mono (fun _ h => h) ?_ fun _ _ h => h
  rintro a s' ⟨e, he, rfl⟩
  exact hR a e he

theorem ReadyAt.has {s : Store} (h : ReadyAt request documentPath index s) :
    index < s.documents.length := (place_some h.guarded.place).1

theorem ReadyAt.room {s : Store} (h : ReadyAt request documentPath index s) :
    Roomy (s.entryAt index).document := h.roomy documentPath index h.guarded

/-- The document of the request is changed, keeps its name and its room. -/
theorem ReadyAt.withEntry {s : Store} (h : ReadyAt request documentPath index s)
    {e : DocumentEntry} (hpath : e.path = (s.entryAt index).path) (he : Roomy e.document) :
    ReadyAt request documentPath index (s.withEntry index e) := by
  have hsame := paths_withEntry hpath
  have hlists : Lists s.paths s := ⟨h.sound, List.prefix_rfl⟩
  have hguarded : Guarded (s.withEntry index e) request documentPath index := by
    refine ⟨h.guarded.target, h.guarded.notRoot, ?_⟩
    rw [place_eq, hsame, ← place_eq]
    exact h.guarded.place
  refine ⟨⟨(hlists.withEntry hpath he.sane).sound, h.documents, ?_⟩, hguarded⟩
  intro documentPath' index' h'
  rw [hguarded.unique h']
  have hentry : (s.withEntry index e).entryAt index = e := (entryPart index).get_put h.has
  rw [hentry]
  exact he

theorem readyAt_onEntry {p : EntryM α} (hp : Upholds Roomy p) (hpath : KeepsPath p) :
    Yields Reported (ReadyAt request documentPath index) (onEntry index p)
      fun _ => ReadyAt request documentPath index := by
  refine Action.Ends.of_each fun s hs => ?_
  have hone : Yields Reported (fun e => e = s.entryAt index) p fun _ e =>
      Roomy e.document ∧ e.path = (s.entryAt index).path := by
    refine ((hp.pre ?_).keep (I := fun e => e.path = (s.entryAt index).path) ?_).mono
      (fun _ h => h) (fun _ _ h => h) fun _ _ h => h.1
    · rintro e rfl
      exact hs.room
    · rintro e rfl
      exact hpath.unlocked samePath_progress _
  refine yields_onEntry hs.has hone ?_
  rintro a e ⟨he, hsame⟩
  exact hs.withEntry hsame he

/-- A handler of the document of the request. -/
theorem answers_onEntry {p : EntryM α} (hp : Answers p) :
    Yields Reported (ReadyAt request documentPath index) (onEntry index p) fun _ _ => True := by
  refine Action.Ends.of_each fun s hs => yields_onEntry hs.has (hp.pre ?_) fun _ _ _ => trivial
  rintro e rfl
  exact hs.room

/-! ## The guard -/

theorem ready_acquireGuardAt (hrange : request.InRange) :
    Yields Reported (ReadyAt request documentPath index) (acquireGuardAt request (some index))
      fun _ => Ready request := by
  have hguard : Yields Reported (ReadyAt request documentPath index)
      (onEntry index (acquireRequestGuardForEntry request))
      fun _ => ReadyAt request documentPath index :=
    readyAt_onEntry (upholds_acquireRequestGuardForEntry hrange fun _ hd => hd.valid)
      (upkeeps_acquireRequestGuardForEntry request).path
  exact hguard.bind fun guard => yields_ret fun _ hs => hs.toReady

theorem ready_acquireRequestGuard (hrange : request.InRange) :
    Yields Reported (Ready request) (acquireRequestGuard (some request))
      fun _ => Ready request := by
  unfold acquireRequestGuard
  simp only
  cases htarget : requestDocumentPath request with
  | error failure => exact yields_ret fun _ hs => hs
  | ok documentPath =>
      dsimp only
      split
      · exact yields_ret fun _ hs => hs
      · rename_i hroot
        have hfound : Yields Reported (Ready request)
            (Program.read fun s => .ok (s.place documentPath) : StoreM (Option Nat))
            fun place s => Ready request s ∧ s.place documentPath = place := by
          refine yields_read ?_ fun s _ => stopsWith_ok _
          intro s place hs h
          cases h
          exact ⟨hs, rfl⟩
        refine hfound.bind fun place => ?_
        cases place with
        | none => exact yields_ret fun _ hs => hs.1
        | some index =>
            have hguard : Yields Reported (ReadyAt request documentPath index)
                (acquireGuardAt request (some index)) fun _ => Ready request :=
              ready_acquireGuardAt hrange
            refine hguard.pre ?_
            rintro s ⟨hs, hplace⟩
            exact ⟨hs, htarget, hroot, hplace⟩

/-! ## Methods of the whole store -/

/-- Code of the store that returns, or reports an error. -/
abbrev Replies (P : Store → Prop) (p : StoreM α) : Prop := Yields Reported P p fun _ _ => True

theorem replies_ret {P : Store → Prop} (a : α) : Replies P (.ret (.ok a) : StoreM α) :=
  yields_ret fun _ _ => trivial

/-- A turn of the list leaves the documents in their places. -/
theorem replies_writeDocumentList {count : Nat} {entries : List Nat}
    (hentries : ∀ index ∈ entries, index < count) :
    Replies (fun s => count ≤ s.documents.length) (writeDocumentList entries) := by
  induction entries with
  | nil => exact replies_ret _
  | cons index rest ih =>
      have hlook : Yields Reported (fun _ => True) (underGuard acquireQuiescentRead
          (Program.read fun e => .ok (documentSummary e.path e.document))) fun _ _ => True := by
        have hacquire := upholds_acquireQuiescentRead (P := fun _ => True)
        refine hacquire.bindResult (fun guard => ?_) fun failure hreport => yields_fail hreport
        exact Yields.ensure (Q := fun _ _ => True)
          (yields_read (fun _ _ _ _ => trivial) fun _ _ => stopsWith_ok _) fun _ _ _ => trivial
      have hone : Yields Reported (fun s : Store => count ≤ s.documents.length)
          (onEntry index (underGuard acquireQuiescentRead
            (Program.read fun e => .ok (documentSummary e.path e.document))))
          fun _ s => count ≤ s.documents.length := by
        refine Action.Ends.of_each fun s hs => ?_
        have hindex : index < s.documents.length :=
          lt_of_lt_of_le (hentries index (List.mem_cons_self ..)) hs
        refine yields_onEntry hindex (hlook.pre fun _ _ => trivial) fun _ e _ => ?_
        show count ≤ (s.documents.set index e).length
        rw [List.length_set]
        exact hs
      refine hone.bind fun summary => ?_
      exact (ih fun i hi => hentries i (List.mem_cons_of_mem _ hi)).bind fun _ => replies_ret _

theorem replies_handleDocumentList : Replies (fun _ => True) handleDocumentList := by
  refine Action.Ends.of_each fun s _ => ?_
  have hentries : Yields Reported (fun s' => s' = s) snapshotDocumentEntries
      fun entries s' => s' = s ∧ entries = List.range s.documents.length := by
    refine yields_read ?_ fun _ _ => stopsWith_ok _
    rintro s' entries rfl h
    cases h
    exact ⟨rfl, rfl⟩
  refine hentries.bind fun entries => ?_
  refine Action.Ends.of_each ?_
  rintro s' ⟨rfl, rfl⟩
  have hlist : Replies (fun s => s'.documents.length ≤ s.documents.length)
      (writeDocumentList (List.range s'.documents.length)) :=
    replies_writeDocumentList fun index hindex => List.mem_range.mp hindex
  refine (hlist.bind fun _ => replies_ret _).pre ?_
  rintro _ rfl
  exact le_rfl

theorem replies_createDocument (path : Bytes) (title : Option Bytes) :
    Replies (Ready request) (createDocument path title) := by
  unfold createDocument
  split
  · exact yields_fail (reported_error _)
  · split
    · exact yields_fail (reported_error _)
    · -- The overflow of the document ids is the one panic here.
      refine yields_act ⟨fun _ _ _ _ _ => trivial, fun s failure s' hs h => ?_⟩
      split at h
      · cases h
        exact reported_error _
      · rw [if_pos hs.documents] at h
        cases h

theorem replies_handleDocumentCreate :
    Replies (Ready request) (handleDocumentCreate request) := by
  unfold handleDocumentCreate required
  split
  · refine (replies_createDocument _ _).bindResult (fun index => ?_) fun failure hreport => ?_
    · refine Yields.bind (Q := fun _ _ => True) ?_ fun _ => replies_ret _
      exact yields_read (fun _ _ _ _ => trivial) fun _ _ => stopsWith_ok _
    · obtain ⟨e, rfl⟩ := hreport
      dsimp only
      split
      · exact replies_ret _
      · exact yields_fail (reported_error e)
  · exact replies_ret _

/-! ## Methods without a document -/

section Plain

variable {w : Backend}

/-- A search in the root document leaves the store as it is. -/
theorem sound_findNodeIdByPaneId (paneId : Bytes) :
    Yields Reported Sound (onRoot (findNodeIdByPaneId paneId)) fun _ => Sound := by
  have hroot : Yields Reported Sound rootDocument fun index s => Sound s ∧ index = 0 := by
    refine yields_read ?_ fun s hs => ?_
    · intro s index hs h
      have hplace := place_of_elim h
      rw [hs.place_root] at hplace
      exact ⟨hs, (Option.some.inj hplace).symm⟩
    · rw [hs.place_root]
      exact stopsWith_ok _
  refine hroot.bind fun index => Action.Ends.of_each ?_
  rintro s ⟨hs, rfl⟩
  have hindex : 0 < s.documents.length := (place_some hs.place_root).1
  have hvalid : Valid (s.entryAt 0).document := (hs.sane _ (entryAt_mem hindex)).valid
  have hlook : Yields Reported (fun e => e = s.entryAt 0) (findNodeIdByPaneId paneId)
      fun _ e => e = s.entryAt 0 := by
    obtain ⟨found, hfound⟩ := Sequential.findNodeIdByPaneId_ends hvalid paneId
    refine (alone_findNodeIdByPaneId paneId).yields (E := fun failure _ => Reported failure)
      (Action.ends_view (fun _ _ he _ => he) ?_) fun _ _ h => h
    rintro e failure rfl h
    rw [hfound] at h
    cases h
  refine yields_onEntry hindex hlook ?_
  rintro a e rfl
  have hsame : s.withEntry 0 (s.entryAt 0) = s := (entryPart 0).put_get hindex
  rw [hsame]
  exact hs

theorem replies_writePaneList (snapshots : List PaneSnapshot) :
    Replies Sound (writePaneList snapshots) := by
  induction snapshots with
  | nil => exact replies_ret _
  | cons snapshot rest ih =>
      exact (sound_findNodeIdByPaneId _).bind fun _ => ih.bind fun _ => replies_ret _

theorem sound_refreshTmuxPaneSnapshots (hquiet : w.Quiet) (visit : Nat) :
    Yields Reported Sound (refreshTmuxPaneSnapshots w visit) fun _ => Sound := by
  refine yields_act ⟨fun s a s' hs h => ?_, fun s failure s' _ h => ?_⟩
  · split at h
    · cases h
      exact hs.of_documents rfl
    · cases h
  · split at h
    · cases h
    · rename_i hpanes
      cases h
      exact hquiet.panes visit failure hpanes

theorem replies_handleList (hquiet : w.Quiet) {answer : List PaneSnapshot → StoreM Body}
    (h : ∀ snapshots, Replies Sound (answer snapshots)) : Replies Sound (handleList w answer) := by
  refine (sound_refreshTmuxPaneSnapshots hquiet 2).bind fun _ => ?_
  refine Yields.bind (Q := fun _ => Sound) ?_ h
  exact yields_read (fun _ _ hs _ => hs) fun _ _ => stopsWith_ok _

theorem replies_handlePlainRequest (hquiet : w.Quiet) (request : RequestEnvelope) :
    Replies Sound (handlePlainRequest w request) := by
  unfold handlePlainRequest
  split
  · exact replies_handleList hquiet fun _ => replies_ret _
  · exact replies_handleList hquiet fun _ => replies_ret _
  · exact replies_handleList hquiet fun snapshots =>
      (replies_writePaneList snapshots).bind fun _ => replies_ret _
  all_goals exact replies_ret _

/-! ## Dispatch -/

/-- A method of the root document is refused on another document. -/
theorem replies_rootOnly {P : Store → Prop} (hpath : documentPath ≠ rootDocumentPath)
    (k : StoreM Body) : Replies P (rootOnly request documentPath k) := by
  unfold rootOnly validateRootDocumentOnlyTarget
  by_cases hcanonical : isCanonicalDocumentPath documentPath = true
  · simp only [hcanonical, Bool.not_true, Bool.false_eq_true, if_false, if_pos hpath]
    exact replies_ret _
  · simp only [Bool.not_eq_true] at hcanonical
    simp only [hcanonical, Bool.not_false, if_true]
    exact replies_ret _

variable (hquiet : w.Quiet) (hrange : request.InRange)
include hquiet hrange

theorem replies_handleOnEntry (hpath : documentPath ≠ rootDocumentPath) :
    Replies (ReadyAt request documentPath index) (handleOnEntry w request documentPath index) := by
  unfold handleOnEntry pumpFor
  rw [if_neg hpath]
  show Replies _ (handleMethod w request documentPath index)
  unfold handleMethod
  split
  · rename_i handler hhandler
    exact answers_onEntry
      (answers_handleDocumentRequest (hquiet.env _) documentPath hrange hhandler)
  · split
    · exact replies_rootOnly hpath _
    · exact (replies_handlePlainRequest hquiet request).pre fun _ hs => hs.sound

theorem replies_handleOnPath (htarget : requestDocumentPath request = .ok documentPath)
    (hpath : documentPath ≠ rootDocumentPath) :
    Replies (Ready request) (handleOnPath w request documentPath) := by
  have hentry : Yields Reported (Ready request) (requestEntry documentPath)
      fun index => ReadyAt request documentPath index := by
    unfold requestEntry
    rw [if_neg hpath]
    refine yields_read ?_ fun s _ => ?_
    · intro s index hs h
      exact ⟨hs, htarget, hpath, place_of_elim h⟩
    · cases s.place documentPath with
      | none => exact stopsWith_error (reported_error _)
      | some index => exact stopsWith_ok _
  refine hentry.bindResult (fun index => ?_) fun failure hreport => ?_
  · unfold handleFound
    split
    · rename_i h
      cases h
    · rename_i h
      cases h
    · rename_i index' h
      cases h
      split
      · rename_i handler hhandler
        exact answers_onEntry
          (answers_handleDebugRequest (hquiet.env _) documentPath hrange hhandler)
      · exact replies_handleOnEntry hquiet hrange hpath
  · -- A path that names no document is answered.
    obtain ⟨e, rfl⟩ := hreport
    unfold handleFound
    split
    · exact replies_ret _
    · rename_i h
      cases h
      exact yields_fail (reported_error e)
    · rename_i h
      cases h

theorem replies_handleRequest (helsewhere : ¬ OnRoot request) :
    Replies (Ready request) (handleRequest w (some request)) := by
  unfold handleRequest
  simp only
  split
  · exact replies_ret _
  · split
    · exact replies_ret _
    · exact replies_ret _
    · exact replies_ret _
    · exact replies_handleDocumentList.pre fun _ _ => trivial
    · exact replies_handleDocumentCreate
    · rename_i hping hsession hcapabilities hlist hcreate
      split
      · exact replies_ret _
      · rename_i documentPath htarget
        refine replies_handleOnPath hquiet hrange htarget ?_
        rintro rfl
        refine helsewhere ⟨htarget, ?_⟩
        simp only [List.mem_cons, List.not_mem_nil, or_false, not_or]
        exact ⟨hping, hsession, hcapabilities, hlist, hcreate⟩

theorem replies_executeQueuedRequest (helsewhere : ¬ OnRoot request) :
    Replies (Ready request) (executeQueuedRequest w (some request)) := by
  refine (ready_acquireRequestGuard hrange).bindResult (fun guard => ?_) fun failure hreport => ?_
  · exact (replies_handleRequest hquiet hrange helsewhere).ensure fun _ _ _ => trivial
  · exact yields_fail hreport

end Plain

/-! ## Every request in range is answered -/

/-- The numbers of the request are in range, and its document has room. -/
structure Serviceable (s : Store) (request : RequestEnvelope) : Prop where
  range : request.InRange
  elsewhere : ¬ OnRoot request
  documents : s.nextDocumentId + 1 < u64Limit
  room : ∀ documentPath index, Guarded s request documentPath index →
    Narrow (s.entryAt index).document ∧ (s.entryAt index).document.nextNodeId + 1 < u64Limit

theorem Serviceable.ready {s : Store} (h : Serviceable s request) (hs : Sound s) :
    Ready request s where
  sound := hs
  documents := h.documents
  roomy documentPath index hguarded := by
    have hsane := hs.sane _ (entryAt_mem (place_some hguarded.place).1)
    obtain ⟨hnarrow, hroom⟩ := h.room documentPath index hguarded
    exact ⟨hsane.valid, hsane.tidy, hnarrow, hroom⟩

theorem quiet_stillBackend : stillBackend.Quiet where
  env _ := ⟨fun _ _ _ => rfl, fun _ _ _ => rfl⟩
  panes _ := stopsWith_ok _

/-- In every store of the daemon a request, or a text that is none, is executed to its end, and ends
with an answer or with an error that is reported, never with a panic: when its numbers are in range
and its document has room, when it is not for the root document, and when it is not the list of all
documents aimed at one of them. -/
theorem requests_answered {s : Store} (hs : Reachable s) {w : Backend} (hquiet : w.Quiet)
    {request : Option RequestEnvelope}
    (hserviceable : ∀ envelope, request = some envelope → Serviceable s envelope)
    (hlist : ∀ index, ¬ ListsItself s request index) :
    ∃ r s', solo (executeQueuedRequest w request) [] s = (.done r, [], s') ∧ Reachable s' ∧
      StopsWith Reported r := by
  obtain ⟨r, s', hsolo, -⟩ := execute_sound w hs.sound hlist
  refine ⟨r, s', hsolo, hs.run (.execute w request) (solo_discard hsolo), ?_⟩
  rintro failure rfl
  cases request with
  | none =>
      have hreply : Replies (fun _ => True) (executeQueuedRequest w none) := replies_ret _
      exact hreply.solo trivial hsolo
  | some envelope =>
      have hservice := hserviceable envelope rfl
      exact (replies_executeQueuedRequest hquiet hservice.range hservice.elsewhere).solo
        (hservice.ready hs.sound) hsolo

theorem serviceable_appendDocs : Serviceable docsStore appendDocs where
  range := {
    target := by decide
    selector := show ∀ text ∈ appendDocs.target.bind (·.selector), SelectorInRange text by decide
    nodeId := show ∀ x ∈ appendDocs.integer "nodeId", 0 < x by decide +kernel
    parentId := show ∀ x ∈ appendDocs.integer "parentId", 0 < x by decide +kernel
    ms := show ∀ x ∈ appendDocs.integer "ms", x * 1000000 < u64Limit by decide +kernel
    pauseMs := show ∀ x ∈ appendDocs.integer "pauseMs", x * 1000000 < u64Limit by decide +kernel
    rows := show ∀ x ∈ appendDocs.integer "rows", x < u16Limit by decide +kernel
    cols := show ∀ x ∈ appendDocs.integer "cols", x < u16Limit by decide +kernel }
  elsewhere := by
    intro h
    have htarget : requestDocumentPath appendDocs ≠ .ok rootDocumentPath := by decide +kernel
    exact htarget h.target
  documents := by decide +kernel
  room documentPath index h := by
    have htarget : requestDocumentPath appendDocs = .ok (ascii "/docs") := by decide +kernel
    have hplace : docsStore.place (ascii "/docs") = some 1 := by decide +kernel
    have hdocs : Guarded docsStore appendDocs (ascii "/docs") 1 := ⟨htarget, by decide, hplace⟩
    rw [hdocs.unique h]
    decide +kernel

/-- The request that appends a leaf to `/docs` is answered. -/
theorem requests_answered_append : ∃ r s',
    solo (executeQueuedRequest stillBackend (some appendDocs)) [] docsStore = (.done r, [], s') ∧
      Reachable s' ∧ StopsWith Reported r := by
  refine requests_answered reachable_docsStore quiet_stillBackend ?_ ?_
  · rintro envelope heq
    cases heq
    exact serviceable_appendDocs
  · rintro index ⟨_, _, heq, -, hmethod, -⟩
    cases heq
    cases hmethod

end Muxly.Documents
