/-
# Muxly.Documents.Requests -- every request is orderly when it holds no guard

The dispatcher by its methods: a method of one document runs on the document that the request names,
one that drives tmux on the root document, and a list goes through every document in its place. With
no guard held before, none of them asks for a mutex that it holds.
-/
import Muxly.Documents.Router
import Muxly.Documents.TmuxOrder

namespace Muxly.Documents

open Muxly.Control Muxly.Core Muxly.Core.Document Muxly.Daemon Muxly.Sync Muxly.Sync.Program

variable {α : Type} {held : List StoreMutex}

/-! ## Responses -/

theorem orderly_orError {op : StoreM α} (h : Orderly held op) (code : RpcErrorCode) (text : String)
    (result : α → Payload) : Orderly held (orError code text op result) := by
  refine h.bindResult fun r => ?_
  split
  · exact orderly_ret _
  · exact orderly_ret _
  · exact orderly_ret _

theorem orderly_orFixedError {op : StoreM α} (h : Orderly held op) (code : RpcErrorCode)
    (text : String) (result : α → Payload) : Orderly held (orFixedError code text op result) := by
  refine h.bindResult fun r => ?_
  split
  · exact orderly_ret _
  · exact orderly_ret _
  · exact orderly_ret _

theorem orderly_required {value : Option α} {message : String} {k : α → StoreM Body}
    (hk : ∀ a, Orderly held (k a)) : Orderly held (required value message k) := by
  cases value with
  | none => exact orderly_ret _
  | some a => exact hk a

theorem orderly_rootOnly {request : RequestEnvelope} {documentPath : Bytes} {k : StoreM Body}
    (hk : Orderly held k) : Orderly held (rootOnly request documentPath k) := by
  unfold rootOnly
  split
  · exact hk
  · exact orderly_ret _
  · exact orderly_ret _
  · exact orderly_ret _

/-! ## Methods of the whole store -/

section Create

variable {s : Store} {documentPath : Bytes} (hcanonical : isCanonicalDocumentPath documentPath = true)
  (hnew : ¬ (s.place documentPath).isSome = true) (title : Bytes)

theorem paths_withDocument (s : Store) (documentPath title : Bytes) :
    (s.withDocument documentPath title).paths = s.paths ++ [documentPath] := List.map_append

include hcanonical hnew

theorem named_withDocument (hs : s.Named) : (s.withDocument documentPath title).Named := by
  have hnot : documentPath ∉ s.paths := by
    intro hmem
    apply hnew
    rw [place_eq, List.findIdx?_isSome, List.any_eq_true]
    exact ⟨documentPath, hmem, by simp⟩
  constructor
  · rw [paths_withDocument, List.head?_append, hs.root]
    rfl
  · rw [paths_withDocument, List.nodup_append_comm]
    exact List.nodup_cons.mpr ⟨hnot, hs.nodup⟩
  · intro path hpath
    rw [paths_withDocument] at hpath
    rcases List.mem_append.mp hpath with hold | hlast
    · exact hs.canonical path hold
    · rw [List.mem_singleton.mp hlast]
      exact hcanonical

theorem extends_withDocument : Extends s (s.withDocument documentPath title) where
  paths := by
    rw [paths_withDocument]
    exact List.prefix_append _ _
  named := named_withDocument hcanonical hnew title

theorem sound_withDocument (hs : Sound s) : Sound (s.withDocument documentPath title) := by
  refine ⟨named_withDocument hcanonical hnew title hs.toNamed, fun e he => ?_⟩
  rcases List.mem_append.mp he with hold | hlast
  · exact hs.sane e hold
  · rw [List.mem_singleton.mp hlast]
    exact sane_cappedEntry _ _ _ _

end Create

/-- Every new canonical path gets a document behind the others. -/
theorem orderly_createDocument (documentPath : Bytes) (title : Option Bytes) :
    Orderly held (createDocument documentPath title) := by
  unfold createDocument
  split
  · exact orderly_ret _
  · rename_i hcanonical
    have hcanonical' : isCanonicalDocumentPath documentPath = true := by simpa using hcanonical
    split
    · exact orderly_ret _
    · constructor
      · refine fun paths => executes_act fun s hs => ?_
        split
        · exact hs
        · rename_i hnew
          split
          · exact ⟨sound_withDocument hcanonical' hnew _ hs.sound,
              hs.known.trans (extends_withDocument hcanonical' hnew _).paths⟩
          · exact hs
      · refine each_act fun s => ?_
        split
        · exact extends_progress.refl s
        · rename_i hnew
          split
          · exact extends_withDocument hcanonical' hnew _
          · exact extends_progress.refl s

theorem orderly_handleDocumentCreate (request : RequestEnvelope) :
    Orderly held (handleDocumentCreate request) := by
  refine orderly_required fun path => (orderly_createDocument path _).bindResult fun r => ?_
  split
  · exact (orderly_read _).bind fun _ => orderly_ret _
  · split
    · exact orderly_ret _
    · exact orderly_ret _
  · exact orderly_ret _

/-- The list looks at every document under a guard of its own. -/
theorem executes_writeDocumentList {paths : List Bytes} {entries : List Nat}
    (hfree : ∀ index ∈ entries, ∀ m, (index, m) ∉ held)
    (hentries : ∀ index ∈ entries, index < paths.length) :
    Executes held (Lists paths) (writeDocumentList entries) fun _ => Lists paths := by
  induction entries with
  | nil => exact executes_ret fun _ hs => hs
  | cons index rest ih =>
      have hobserve := steady_observe fun e => .ok (documentSummary e.path e.document)
      have hone := executes_onEntry (Q := fun _ => True)
        (hobserve.executes.mono (fun _ h => h) fun _ _ h => ⟨h, trivial⟩) hobserve.path
        (hfree index (List.mem_cons_self ..)) (hentries index (List.mem_cons_self ..))
      have hrest := ih (fun i hi => hfree i (List.mem_cons_of_mem _ hi)) fun i hi =>
        hentries i (List.mem_cons_of_mem _ hi)
      refine (hone.mono (fun _ h => h) fun _ _ h => h.1).bind (fun summary => ?_) fun _ _ hs => hs
      exact hrest.bind (fun _ => executes_ret fun _ hs => hs) fun _ _ hs => hs

theorem each_writeDocumentList (entries : List Nat) : (writeDocumentList entries).Each Extends := by
  induction entries with
  | nil => exact each_ret _
  | cons index rest ih =>
      exact (each_onEntry (steady_observe _).path index).bind fun _ => ih.bind fun _ => each_ret _

theorem orderly_handleDocumentList : Orderly [] handleDocumentList := by
  constructor
  · intro paths s hs
    have hlist : Executes [] (Lists s.paths) (writeDocumentList (List.range s.documents.length))
        fun _ => Lists s.paths := by
      refine executes_writeDocumentList (fun _ _ _ => List.not_mem_nil) fun index hindex => ?_
      rw [length_paths]
      exact List.mem_range.mp hindex
    have hreply : Executes [] (Lists s.paths) (writeDocumentList (List.range s.documents.length) >>=
        fun summaries => reply (.documentList summaries) : StoreM Body) fun _ => Lists s.paths :=
      hlist.bind (fun _ => executes_ret fun _ hs => hs) fun _ _ hs => hs
    obtain ⟨r, s', hsolo, hs'⟩ := hreply s ⟨hs.sound, List.prefix_rfl⟩
    exact ⟨r, s', hsolo, hs'.sound, hs.known.trans hs'.known⟩
  · exact (each_read extends_progress.refl _).bind fun entries =>
      (each_writeDocumentList entries).bind fun _ => each_ret _

/-! ## Methods of the root document -/

section Methods

variable (w : Backend) (request : RequestEnvelope)

theorem orderly_handleList {answer : List PaneSnapshot → StoreM Body}
    (h : ∀ snapshots, Orderly held (answer snapshots)) : Orderly held (handleList w answer) :=
  (orderly_refreshTmuxPaneSnapshots w held 2).bind fun _ => (orderly_read _).bind h

theorem orderly_writePaneList (hfree : ∀ m, (0, m) ∉ held) (snapshots : List PaneSnapshot) :
    Orderly held (writePaneList snapshots) := by
  induction snapshots with
  | nil => exact orderly_ret _
  | cons snapshot rest ih =>
      exact (orderly_onRoot (steady_findNodeIdByPaneId _) hfree).bind fun _ => ih.bind fun _ =>
        orderly_ret _

theorem orderly_handlePaneList (hfree : ∀ m, (0, m) ∉ held) : Orderly held (handlePaneList w) :=
  orderly_handleList w fun snapshots =>
    (orderly_writePaneList hfree snapshots).bind fun _ => orderly_ret _

theorem orderly_handlePlainRequest (hfree : ∀ m, (0, m) ∉ held) :
    Orderly held (handlePlainRequest w request) := by
  unfold handlePlainRequest
  split
  · exact orderly_handleList w fun _ => orderly_ret _
  · exact orderly_handleList w fun _ => orderly_ret _
  · exact orderly_handlePaneList w hfree
  all_goals exact orderly_ret _

theorem orderly_handleSessionCreate (index : Nat) :
    Orderly [] (handleSessionCreate w request index) := by
  refine (orderly_read _).bind fun rootId => ?_
  simp only
  split
  · exact orderly_ret _
  · exact orderly_required fun sessionName =>
      orderly_orError (orderly_createTmuxSession w _ sessionName) _ _ _

theorem orderly_handleTmuxRequest {index : Nat} {handler : StoreM Body}
    (h : handleTmuxRequest w request index = some handler) : Orderly [] handler := by
  have hpane := orderly_createTmuxPane w
  have hcommand := orderly_commandTmuxPane w
  unfold handleTmuxRequest at h
  cases hm : request.method <;> rw [hm] at h <;> simp only [reduceCtorEq, Option.some.injEq] at h
  case sessionCreate => exact h ▸ orderly_handleSessionCreate w request index
  case windowCreate => exact h ▸ orderly_required fun _ => orderly_orError hpane _ _ _
  case paneSplit => exact h ▸ orderly_required fun _ => orderly_orError hpane _ _ _
  case paneCapture =>
    exact h ▸ orderly_required fun paneId =>
      orderly_orFixedError (orderly_captureTmuxPane w paneId) _ _ _
  case paneScroll =>
    exact h ▸ orderly_required fun _ => orderly_required fun _ => orderly_required fun _ =>
      orderly_orError (orderly_read _) _ _ _
  case paneResize =>
    exact h ▸ orderly_required fun _ => orderly_required fun _ => orderly_required fun _ =>
      orderly_orError hcommand _ _ _
  case paneFocus => exact h ▸ orderly_required fun _ => orderly_orError hcommand _ _ _
  case paneSendKeys =>
    exact h ▸ orderly_required fun _ => orderly_required fun _ => orderly_orError hcommand _ _ _
  case paneClose =>
    exact h ▸ orderly_required fun paneId => orderly_orError (orderly_closeTmuxPane w paneId) _ _ _
  case paneFollowTail =>
    exact h ▸ orderly_required fun paneId => orderly_required fun enabled => orderly_orError
      (orderly_onRoot (steady_setPaneFollowTail _ paneId enabled) free_nil) _ _ _

/-! ## Dispatch -/

theorem orderly_pumpFor (documentPath : Bytes) : Orderly [] (pumpFor w documentPath) := by
  unfold pumpFor
  split
  · exact orderly_pumpBeforeRequest w
  · exact orderly_ret _

/-- Code on the entry at a place, where it has one. -/
theorem executes_steady {p : EntryM Body} (hp : Steady p) {paths : List Bytes} {index : Nat}
    (hindex : index < paths.length) :
    Executes [] (Lists paths) (onEntry index p) fun _ => Lists paths :=
  (executes_onEntry (Q := fun _ => True) (hp.executes.mono (fun _ h => h) fun _ _ h => ⟨h, trivial⟩)
    hp.path (fun _ => List.not_mem_nil) hindex).mono (fun _ h => h) fun _ _ h => h.1

theorem executes_handleOnEntry (documentPath : Bytes) {paths : List Bytes} {index : Nat}
    (hindex : index < paths.length) :
    Executes [] (Lists paths) (handleOnEntry w request documentPath index) fun _ => Lists paths := by
  refine ((orderly_pumpFor w documentPath).executes paths).bind (fun _ => ?_) fun _ _ hs => hs
  unfold handleMethod
  split
  · rename_i handler hhandler
    exact executes_steady (steady_handleDocumentRequest _ documentPath request hhandler) hindex
  · split
    · rename_i handler hhandler
      exact (orderly_rootOnly (orderly_handleTmuxRequest w request hhandler)).executes paths
    · exact (orderly_handlePlainRequest w request free_nil).executes paths

theorem each_handleOnEntry (documentPath : Bytes) (index : Nat) :
    (handleOnEntry w request documentPath index).Each Extends := by
  refine (orderly_pumpFor w documentPath).steps.bind fun _ => ?_
  unfold handleMethod
  split
  · rename_i handler hhandler
    exact each_onEntry (steady_handleDocumentRequest _ documentPath request hhandler).path index
  · split
    · rename_i handler hhandler
      exact (orderly_rootOnly (orderly_handleTmuxRequest w request hhandler)).steps
    · exact (orderly_handlePlainRequest w request free_nil).steps

theorem solo_requestEntry (held : List StoreMutex) (s : Store) (documentPath : Bytes) :
    ∃ r, solo (requestEntry documentPath) held s = (.done r, held, s) ∧
      ∀ index, r = .ok index → s.place documentPath = some index := by
  unfold requestEntry
  split
  · rename_i hroot
    subst hroot
    exact ⟨_, solo_placeOr _ s _, fun index h => place_of_elim h⟩
  · exact ⟨_, solo_placeOr _ s _, fun index h => place_of_elim h⟩

theorem orderly_handleOnPath (documentPath : Bytes) :
    Orderly [] (handleOnPath w request documentPath) := by
  constructor
  · intro paths s hs
    obtain ⟨r, hsolo, hplace⟩ := solo_requestEntry [] s documentPath
    have hrest : Executes [] (Lists s.paths) (handleFound w request documentPath r)
        fun _ => Lists s.paths := by
      unfold handleFound
      split
      · exact executes_ret fun _ hs => hs
      · exact executes_ret fun _ hs => hs
      · rename_i index
        have hindex : index < s.paths.length := by
          rw [length_paths]
          exact (place_some (hplace index rfl)).1
        split
        · rename_i handler hhandler
          exact executes_steady (steady_handleDebugRequest _ documentPath request hhandler) hindex
        · exact executes_handleOnEntry w request documentPath hindex
    obtain ⟨r', s', hsolo', hs'⟩ := hrest s ⟨hs.sound, List.prefix_rfl⟩
    refine ⟨r', s', ?_, hs'.sound, hs.known.trans hs'.known⟩
    unfold handleOnPath
    rw [solo_bindResult, hsolo]
    exact hsolo'
  · refine Program.Each.bindResult ?_ fun r => ?_
    · unfold requestEntry
      split
      · exact each_read extends_progress.refl _
      · exact each_read extends_progress.refl _
    · unfold handleFound
      split
      · exact each_ret _
      · exact each_ret _
      · split
        · rename_i handler hhandler
          exact each_onEntry (steady_handleDebugRequest _ documentPath request hhandler).path _
        · exact each_handleOnEntry w request documentPath _

end Methods

theorem orderly_handleRequest (w : Backend) (request : Option RequestEnvelope) :
    Orderly [] (handleRequest w request) := by
  cases request with
  | none => exact orderly_ret _
  | some request =>
      unfold handleRequest
      simp only
      split
      · exact orderly_ret _
      · split
        · exact orderly_ret _
        · exact orderly_ret _
        · exact orderly_ret _
        · exact orderly_handleDocumentList
        · exact orderly_handleDocumentCreate request
        · split
          · exact orderly_ret _
          · exact orderly_handleOnPath w request _

end Muxly.Documents
