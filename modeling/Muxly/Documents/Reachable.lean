/-
# Muxly.Documents.Reachable -- every request ends but one

The store of the daemon starts with the root document alone and is changed by tasks only. Each of
them ends in every store that is reached so, with no mutex held and a store that is `Sound` again,
but for the list of all documents aimed at a document that is not the root document.
-/
import Muxly.Documents.SelfLock
import Muxly.Documents.Tasks

namespace Muxly.Documents

open Muxly.Control Muxly.Core Muxly.Core.Document Muxly.Daemon Muxly.Sync Muxly.Sync.Program

variable {α : Type} {held : List StoreMutex}

/-! ## Requests without a guard -/

/-- The list of all documents, aimed at the document at a place, which is not the root document. -/
def ListsItself (s : Store) (request : Option RequestEnvelope) (index : Nat) : Prop :=
  ∃ envelope documentPath, request = some envelope ∧ envelope.jsonrpcIsTwo = true ∧
    envelope.method = .documentList ∧ Guarded s envelope documentPath index

theorem ListsItself.guarded {s : Store} {envelope : RequestEnvelope} {index : Nat}
    (h : ListsItself s (some envelope) index) :
    ∃ documentPath, Guarded s envelope documentPath index := by
  obtain ⟨_, documentPath, heq, -, -, hguarded⟩ := h
  cases heq
  exact ⟨documentPath, hguarded⟩

/-- A request takes a guard of one document, or none at all. -/
theorem guard_cases (s : Store) (request : Option RequestEnvelope) :
    (∃ envelope documentPath index, request = some envelope ∧
      Guarded s envelope documentPath index) ∨
    (∀ index, ¬ ListsItself s request index) ∧
      ∀ held, solo (acquireRequestGuard request) held s = (.done (.ok none), held, s) := by
  cases request with
  | none =>
      refine .inr ⟨?_, fun held => rfl⟩
      rintro index ⟨_, _, hnone, -⟩
      cases hnone
  | some envelope =>
      cases htarget : requestDocumentPath envelope with
      | error failure =>
          refine .inr ⟨fun index hlists => ?_, fun held => ?_⟩
          · obtain ⟨_, hguarded⟩ := hlists.guarded
            rw [hguarded.target] at htarget
            cases htarget
          · unfold acquireRequestGuard
            simp only [htarget]
            rfl
      | ok documentPath =>
          have hpath : ∀ {index : Nat}, ListsItself s (some envelope) index →
              Guarded s envelope documentPath index := by
            intro index hlists
            obtain ⟨_, hguarded⟩ := hlists.guarded
            have hsame := htarget
            rw [hguarded.target] at hsame
            cases hsame
            exact hguarded
          by_cases hroot : documentPath = rootDocumentPath
          · refine .inr ⟨fun index hlists => (hpath hlists).notRoot hroot, fun held => ?_⟩
            unfold acquireRequestGuard
            simp only [htarget]
            rw [if_pos hroot]
            rfl
          · cases hplace : s.place documentPath with
            | some index => exact .inl ⟨envelope, documentPath, index, rfl, htarget, hroot, hplace⟩
            | none =>
                refine .inr ⟨fun index hlists => ?_, fun held => ?_⟩
                · rw [(hpath hlists).place] at hplace
                  cases hplace
                · unfold acquireRequestGuard
                  simp only [htarget]
                  rw [if_neg hroot, bind_eq, solo_bindResult, solo_read, hplace]
                  rfl

/-- A request that takes no guard is handled as it is. -/
theorem solo_execute_unguarded (w : Backend) {s : Store} {request : Option RequestEnvelope}
    (hguard : solo (acquireRequestGuard request) [] s = (.done (.ok none), [], s))
    {r : Except Failure Body} {s' : Store}
    (hhandle : solo (handleRequest w request) [] s = (.done r, [], s')) :
    solo (executeQueuedRequest w request) [] s = (.done r, [], s') := by
  rw [executeQueuedRequest, solo_bindResult, hguard]
  show solo (ensure (handleRequest w request) (releaseGuard none)) [] s = _
  rw [ensure, solo_bindResult, hhandle]
  rfl

/-- Every request but the list of all documents aimed at one of them ends. -/
theorem execute_sound (w : Backend) {s : Store} (hs : Sound s) {request : Option RequestEnvelope}
    (hlist : ∀ index, ¬ ListsItself s request index) :
    ∃ r s', solo (executeQueuedRequest w request) [] s = (.done r, [], s') ∧ Sound s' := by
  rcases guard_cases s request with ⟨envelope, documentPath, index, rfl, hguarded⟩ | ⟨-, hguard⟩
  · have hother : ¬ (envelope.jsonrpcIsTwo = true ∧ envelope.method = .documentList) :=
      fun ⟨hjson, hmethod⟩ => hlist index ⟨envelope, documentPath, rfl, hjson, hmethod, hguarded⟩
    obtain ⟨r, s', hsolo, hs', -⟩ := execute_ends w hguarded hs hother
    exact ⟨r, s', hsolo, hs'⟩
  · obtain ⟨r, s', hhandle, hs'⟩ := (orderly_handleRequest w request).executes s.paths s
      ⟨hs, List.prefix_rfl⟩
    exact ⟨r, s', solo_execute_unguarded w (hguard []) hhandle, hs'.sound⟩

/-! ## The other tasks -/

theorem orderly_discard {p : StoreM α} (h : Orderly held p) : Orderly held (discard p) :=
  h.bindResult fun _ => orderly_ret _

theorem steady_resolveExecutionDomainRoot (request : RequestEnvelope) :
    Steady (resolveExecutionDomainRoot request) := by
  refine steady_of_keeps keeps_resolveExecutionDomainRoot ⟨fun e he => ?_, ?_⟩
  · have hread : Upkeeps (Program.read fun e => resolveDomainWritePlan e.document request) :=
      upkeeps_read _
    exact ((hread.bind fun _ => upkeeps_ret _).ensure (upkeeps_release _)).ensure
      (upkeeps_release _) |>.sane e he
  · refine Program.Each.withMutex (Program.Each.withMutex ?_ _) _
    exact (keepsPath_read _).bind fun _ => each_ret _

/-- Code on the document with a path, when there is one. -/
theorem orderly_entryForPath {β : Type} {documentPath : Bytes} {k : Except Failure Nat → StoreM β}
    (hfound : ∀ {paths : List Bytes} {index : Nat}, index < paths.length →
      Executes held (Lists paths) (k (.ok index)) fun _ => Lists paths)
    (hsteps : ∀ index, (k (.ok index)).Each Extends)
    (hfail : ∀ failure, Orderly held (k (.error failure))) :
    Orderly held (bindResult (documentEntryForPath documentPath) k) := by
  refine ⟨fun paths s hs => ?_, ?_⟩
  · rw [solo_bindResult, documentEntryForPath, solo_placeOr]
    cases hplace : s.place documentPath with
    | none => exact (hfail _).executes paths s hs
    | some index =>
        have hindex : index < s.paths.length := by
          rw [length_paths]
          exact (place_some hplace).1
        obtain ⟨r, s', hsolo, hs'⟩ := hfound hindex s ⟨hs.sound, List.prefix_rfl⟩
        exact ⟨r, s', hsolo, hs'.sound, hs.known.trans hs'.known⟩
  · refine (each_read extends_progress.refl _).bindResult fun r => ?_
    cases r with
    | ok index => exact hsteps index
    | error failure => exact (hfail failure).steps

theorem executes_onEntry_steady {p : EntryM α} (hp : Steady p) {paths : List Bytes} {index : Nat}
    (hindex : index < paths.length) :
    Executes [] (Lists paths) (onEntry index p) fun _ => Lists paths :=
  (executes_onEntry (hp.executes.mono (fun _ h => h) fun _ _ h => ⟨h, trivial⟩) hp.path
    (fun _ => List.not_mem_nil) hindex).mono (fun _ h => h) fun _ _ h => h.1

theorem orderly_observeTarget (documentPath : Bytes) (look : Document → Except Failure α) :
    Orderly [] (observeTarget documentPath look) := by
  refine orderly_entryForPath (fun hindex => ?_) (fun index => ?_) fun failure => orderly_ret _
  · exact executes_onEntry_steady (steady_observe _) hindex
  · exact each_onEntry (steady_observe _).path index

theorem orderly_classifyParsed (request : RequestEnvelope) : Orderly [] (classifyParsed request) := by
  unfold classifyParsed
  split
  · exact orderly_ret _
  · split
    · exact orderly_ret _
    · split
      · exact orderly_ret _
      · split
        · refine Orderly.bind ?_ fun _ => orderly_ret _
          refine orderly_entryForPath (fun hindex => ?_) (fun index => ?_) fun failure => ?_
          · exact executes_onEntry_steady (steady_resolveExecutionDomainRoot request) hindex
          · exact each_onEntry (steady_resolveExecutionDomainRoot request).path index
          · split
            · rename_i heq
              cases heq
            · exact orderly_ret _
            · exact orderly_ret _
        · exact orderly_ret _

/-- Every task but a request is orderly. -/
theorem orderly_run {task : Task} (h : ∀ w request, task ≠ .execute w request) :
    Orderly [] task.run := by
  cases task with
  | execute w request => exact absurd rfl (h w request)
  | classify request => exact orderly_discard (orderly_classifyParsed request)
  | projectionStream request =>
      refine orderly_discard ((orderly_read _).bind fun _ => ?_)
      exact (orderly_observeTarget _ _).bind fun _ => orderly_ret _
  | ttyStream request =>
      refine orderly_discard ((orderly_read _).bind fun _ => (orderly_read _).bind fun _ => ?_)
      exact (orderly_observeTarget _ _).bind fun _ => orderly_ret _
  | paneStream w paneId => exact orderly_discard (orderly_captureTmuxPane w paneId)
  | maintenance w => exact orderly_pumpTmuxBackend w

/-! ## The stores of the daemon -/

/-- A store of the daemon: as it starts, or after a task that ended. -/
inductive Reachable : Store → Prop
  | init {maxDocumentContentBytes : UInt64} {s : Store}
      (h : Store.init maxDocumentContentBytes = .ok s) : Reachable s
  | run {s s' : Store} (task : Task) {r : Except Failure Unit} (hs : Reachable s)
      (h : solo task.run [] s = (.done r, [], s')) : Reachable s'

theorem settled_writeIntro (rootNodeId : Nat) : Settled (writeIntro rootNodeId) :=
  (appendNode_settled rootNodeId .scrollRegion (ascii "welcome") .none).bind settles_progress
    fun introId => (settled_view _).bind settles_progress fun _ =>
      setStableNodeContent_settled introId introText

/-- The root document is sane before and after its first node is written. -/
theorem sane_intro {e : DocumentEntry} (he : Sane e) {document : Document}
    (h : writeIntro e.document.rootNodeId e.document = (.ok (), document)) :
    Sane { e with document := document } := by
  have hstep := (soundEntry_onDocument (settled_writeIntro e.document.rootNodeId) e he).1
  unfold DocumentEntry.onDocument at hstep
  rw [h] at hstep
  exact hstep

theorem sound_init {maxDocumentContentBytes : UInt64} {s : Store}
    (h : Store.init maxDocumentContentBytes = .ok s) : Sound s := by
  have hsane := sane_cappedEntry rootDocumentPath 1 (ascii "muxly") maxDocumentContentBytes
  unfold Store.init at h
  simp only at h
  split at h
  · rename_i document hwrite
    cases h
    refine ⟨⟨rfl, List.nodup_singleton _, ?_⟩, ?_⟩
    · intro documentPath hmem
      rw [List.mem_singleton.mp hmem]
      show isCanonicalDocumentPath rootDocumentPath = true
      decide
    · intro e he
      rw [List.mem_singleton.mp he]
      exact sane_intro hsane hwrite
  · cases h

theorem solo_discard {p : StoreM α} {s s' : Store} {r : Except Failure α}
    (h : solo p [] s = (.done r, [], s')) :
    solo (discard p) [] s = (.done (r.map fun _ => ()), [], s') := by
  rw [discard, solo_bindResult, h]
  rfl

theorem solo_discard_waits {p : StoreM α} {s s' : Store} {m : StoreMutex} {mutexes : List StoreMutex}
    (h : solo p [] s = (.selfLock m, mutexes, s')) :
    solo (discard p) [] s = (.selfLock m, mutexes, s') := by
  rw [discard, solo_bindResult, h]
  rfl

/-- The list of all documents comes to the document that it is aimed at, and waits there. -/
theorem execute_listsItself (w : Backend) {s : Store} (hs : Sound s)
    {request : Option RequestEnvelope} {index : Nat} (h : ListsItself s request index) :
    ∃ mutexes s', solo (executeQueuedRequest w request) [] s
      = (.selfLock (index, .coordinator), mutexes, s') := by
  obtain ⟨envelope, documentPath, rfl, hjson, hmethod, hguarded⟩ := h
  exact execute_waits w hguarded hs hjson hmethod

/-- Every store of the daemon is sound. -/
theorem Reachable.sound {s : Store} (h : Reachable s) : Sound s := by
  induction h with
  | init h => exact sound_init h
  | @run s s' task r hs h ih =>
      by_cases hexecute : ∃ w request, task = .execute w request
      · obtain ⟨w, request, rfl⟩ := hexecute
        by_cases hlist : ∃ index, ListsItself s request index
        · obtain ⟨index, hindex⟩ := hlist
          obtain ⟨_, _, hwait⟩ := execute_listsItself w ih hindex
          rw [Task.run, solo_discard_waits hwait] at h
          cases h
        · obtain ⟨_, _, hsolo, hs'⟩ := execute_sound w ih fun index hindex => hlist ⟨index, hindex⟩
          rw [Task.run, solo_discard hsolo] at h
          cases h
          exact hs'
      · have horderly : Orderly [] task.run :=
          orderly_run fun w request htask => hexecute ⟨w, request, htask⟩
        obtain ⟨_, _, hsolo, hs'⟩ := horderly.executes s.paths s ⟨ih, List.prefix_rfl⟩
        rw [hsolo] at h
        cases h
        exact hs'.sound

/-- Surroundings without tmux. -/
def stillBackend : Backend where
  env _ := stillEnv
  listPaneSnapshots _ := .ok []
  initAttach _ _ := .ok false
  events := []
  drained := .ok ()
  createdPane := .error (.error .unknownPane)
  commanded := .ok ()
  captured := .ok []

/-- A request with a method, for the document `/docs`. -/
def docsRequest (method : Method) (params : Option JsonValue) : RequestEnvelope where
  jsonrpcIsTwo := true
  target := some { documentPath := some (ascii "/docs"), nodeId := none, selector := none }
  method := method
  params := params

/-- The store as it starts. -/
def startStore : Store := (Store.init 65536).toOption.getD
  ⟨[], 0, 0, [], false, .clean⟩

/-- The request that makes the document `/docs`. -/
def createDocs : RequestEnvelope :=
  { docsRequest .documentCreate (some (.object [(ascii "path", .string (ascii "/docs"))])) with
    target := none }

/-- The store with the document `/docs`. -/
def docsStore : Store :=
  (solo (Task.run (.execute stillBackend (some createDocs))) [] startStore).2.2

theorem reachable_startStore : Reachable startStore := by
  have hsome : (Store.init 65536).toOption.isSome = true := by decide +kernel
  cases hinit : Store.init 65536 with
  | ok s =>
      refine .init (hinit.trans (congrArg Except.ok ?_))
      rw [startStore, hinit]
      rfl
  | error failure =>
      rw [hinit] at hsome
      cases hsome

theorem reachable_docsStore : Reachable docsStore := by
  have hlist : ∀ index, ¬ ListsItself startStore (some createDocs) index := by
    rintro index ⟨_, _, heq, -, hmethod, -⟩
    cases heq
    cases hmethod
  obtain ⟨r, s', hsolo, -⟩ := execute_sound stillBackend reachable_startStore.sound hlist
  have hrun := solo_discard hsolo
  refine reachable_startStore.run (.execute stillBackend (some createDocs)) (r := r.map fun _ => ()) ?_
  rw [Task.run, hrun, docsStore, Task.run, hrun]

end Muxly.Documents
