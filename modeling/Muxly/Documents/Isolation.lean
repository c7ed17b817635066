/-
# Muxly.Documents.Isolation -- one document does not change another, however the threads interleave

A task that is about a document other than the root document changes that document alone. What it
found under a path stays under it, as no step of any thread removes or renames a document; so the
place that one step looked up is right for every later one. Only what is about the root document,
which tmux and the refresh of all sources belong to, may change them all.
-/
import Muxly.Documents.Reachable

namespace Muxly.Documents

open Muxly.Control Muxly.Core Muxly.Core.Document Muxly.Daemon Muxly.Sync Muxly.Sync.Program

variable {α β : Type}

/-! ## What a task may change -/

/-- The document that a request names. -/
def requestTarget (request : Option RequestEnvelope) : Option Bytes :=
  request.bind fun envelope => (requestDocumentPath envelope).toOption

/-- The document that a task may change; tmux belongs to the root document. -/
def Task.target : Task → Option Bytes
  | .execute _ request => requestTarget request
  | .classify _ => none
  | .projectionStream _ => none
  | .ttyStream _ => none
  | .paneStream .. => some rootDocumentPath
  | .maintenance _ => some rootDocumentPath

/-- The documents stay in their places, with their paths; and but for the root document only the one
that `target` names changes, and nothing of what is known about tmux but the list of panes. -/
structure Touches (target : Option Bytes) (s s' : Store) : Prop where
  keeps : Extends s s'
  others : target ≠ some rootDocumentPath → ∀ index < s.documents.length,
    target ≠ some (s.entryAt index).path → s'.entryAt index = s.entryAt index
  tmux : target ≠ some rootDocumentPath →
    s'.controlConnection = s.controlConnection ∧ s'.tmuxProjectionState = s.tmuxProjectionState

variable {target : Option Bytes} {documentPath : Bytes} {index : Nat}

theorem touches_refl (target : Option Bytes) (s : Store) : Touches target s s where
  keeps := extends_progress.refl s
  others _ _ _ _ := rfl
  tmux _ := ⟨rfl, rfl⟩

/-- A task about the root document may change them all. -/
theorem Touches.ofRoot {s s' : Store} (h : Extends s s') :
    Touches (some rootDocumentPath) s s' where
  keeps := h
  others hne := absurd rfl hne
  tmux hne := absurd rfl hne

theorem withEntry_entryAt (s : Store) (index : Nat) : s.withEntry index (s.entryAt index) = s := by
  by_cases h : index < s.documents.length
  · exact (entryPart index).put_get h
  · rw [Store.withEntry, List.set_eq_of_length_le (by omega)]

/-- A change of the document at the place of its path. -/
theorem touches_withEntry {s : Store} (h : s.place documentPath = some index) {e : DocumentEntry}
    (he : e.path = (s.entryAt index).path) :
    Touches (some documentPath) s (s.withEntry index e) where
  keeps := .of_paths (paths_withEntry he)
  others _ other _ hother := by
    have hne : index ≠ other := by
      rintro rfl
      exact hother (congrArg some (place_some h).2.symm)
    rw [Store.entryAt, Store.withEntry, List.getD_eq_getElem?_getD, List.getElem?_set_ne hne,
      ← List.getD_eq_getElem?_getD]
    rfl
  tmux _ := ⟨rfl, rfl⟩

/-! ## Code that is about one document -/

/-- The document with a path is in its place. -/
structure Placed (documentPath : Bytes) (index : Nat) (s : Store) : Prop where
  named : s.Named
  place : s.place documentPath = some index

theorem lasts_named : Lasts Extends Store.Named := fun _ _ hs h => h.named hs

theorem lasts_placed (documentPath : Bytes) (index : Nat) :
    Lasts Extends (Placed documentPath index) :=
  fun _ _ hs h => ⟨h.named hs.named, h.place hs.place⟩

/-- Code that, started in a store that names its documents, touches no more than `target`. -/
abbrev Stays (target : Option Bytes) (A : Store → Prop) (p : StoreM α)
    (B : Except Failure α → Store → Prop) : Prop :=
  p.Bounds Extends (Touches target) A B

/-- Steps that are within `target` wherever they are taken. -/
theorem stays_of_each {G : Store → Store → Prop} {p : StoreM α} (h : p.Each G)
    {A : Store → Prop} (hA : Lasts Extends A) (hG : ∀ s s', G s s' → Touches target s s') :
    Stays target A p fun _ => A :=
  h.bounds hA fun s s' hs hstep => ⟨hG s s' hstep, hA s s' hs (hG s s' hstep).keeps⟩

theorem stays_ofRoot {p : StoreM α} (h : p.Each Extends) :
    Stays (some rootDocumentPath) Store.Named p fun _ => Store.Named :=
  stays_of_each h lasts_named fun _ _ hstep => .ofRoot hstep

/-- Code on the document at the place of its path. -/
theorem stays_onEntry {p : EntryM α} (hp : KeepsPath p) :
    Stays (some documentPath) (Placed documentPath index) (onEntry index p)
      fun _ => Placed documentPath index := by
  refine (hp.zoom (entryPart index) fun m => (index, m)).bounds (lasts_placed _ _) ?_
  rintro s _ hs ⟨e, rfl, he⟩
  have htouches : Touches (some documentPath) s (s.withEntry index e) :=
    touches_withEntry hs.place he
  exact ⟨htouches, lasts_placed _ _ _ _ hs htouches.keeps⟩

/-- The same where the place is not used afterwards. -/
theorem stays_onEntry_named {p : EntryM α} (hp : KeepsPath p) :
    Stays (some documentPath) (Placed documentPath index) (onEntry index p)
      fun _ => Store.Named :=
  (stays_onEntry hp).mono (fun _ h => h) fun _ _ h => h.named

/-- Code on a document that changes nothing of it. -/
theorem stays_onEntry_unchanged {p : EntryM α} (hp : p.Each Eq) {A : Store → Prop}
    (hA : Lasts Extends A) (index : Nat) : Stays target A (onEntry index p) fun _ => A := by
  refine stays_of_each (hp.zoom (entryPart index) fun m => (index, m)) hA ?_
  rintro s _ ⟨e, rfl, he⟩
  show Touches target s (s.withEntry index e)
  rw [← he, show (entryPart index).get s = s.entryAt index from rfl, withEntry_entryAt]
  exact touches_refl target s

/-! ## Readers -/

theorem each_lockExistingDomainIds (domainIds : List Nat) :
    (lockExistingDomainIds domainIds).Each Eq := by
  refine Program.Each.forEach fun domainId _ => (each_read (fun _ => rfl) _).bind fun present => ?_
  split
  · exact each_acquire _
  · exact each_ret _

theorem each_unlockExistingDomainIds (domainIds : List Nat) :
    (unlockExistingDomainIds domainIds).Each Eq := by
  refine Program.Each.forEach fun domainId _ => (each_read (fun _ => rfl) _).bind fun present => ?_
  split
  · exact each_release _
  · exact each_ret _

theorem each_acquireQuiescentRead : acquireQuiescentRead.Each Eq := by
  refine (each_acquire _).bind fun _ => ?_
  refine (each_actTag (G := Eq) (fun _ => rfl) _).bind fun domainIds => ?_
  refine (each_lockExistingDomainIds domainIds).bind fun _ => ?_
  exact (each_mark (fun _ => rfl) _).bind fun _ => (each_release _).bind fun _ => each_ret _

theorem each_guardRelease (guard : RequestGuard) : guard.release.Each Eq := by
  refine (each_mark (fun _ => rfl) _).bind fun _ => ?_
  cases guard with
  | none => exact each_ret _
  | coordinatorExclusive domainIds =>
      exact (each_unlockExistingDomainIds domainIds).bind fun _ => each_release _
  | quiescentRead domainIds => exact each_unlockExistingDomainIds domainIds
  | participatingDomainWrite domainIds => exact each_unlockExistingDomainIds domainIds
  | domainWrite domainId => exact each_release _
  | structuralWrite domainId parentId => exact (each_release _).bind fun _ => each_release _

/-- A reader changes nothing. -/
theorem each_observe (look : DocumentEntry → Except Failure α) :
    (underGuard acquireQuiescentRead (Program.read look)).Each Eq := by
  refine each_acquireQuiescentRead.bindResult fun r => ?_
  cases r with
  | ok guard => exact (each_read (fun _ => rfl) look).ensure (each_guardRelease guard)
  | error failure => exact each_ret _

theorem each_resolveExecutionDomainRoot (request : RequestEnvelope) :
    (resolveExecutionDomainRoot request).Each Eq := by
  refine Program.Each.withMutex (Program.Each.withMutex ?_ _) _
  exact (each_read (fun _ => rfl) _).bind fun _ => each_ret _

section Unchanged

variable {A : Store → Prop}

theorem stays_ret (r : Except Failure α) : Stays target A (.ret r) fun _ => A :=
  bounds_ret fun _ h => h

theorem stays_discard {p : StoreM α} (h : Stays target A p fun _ => A) :
    Stays target A (discard p) fun _ => A := Program.Bounds.bindResult h fun _ => stays_ret _

variable (hA : Lasts Extends A)
include hA

theorem stays_read (f : Store → Except Failure α) : Stays target A (Program.read f) fun _ => A :=
  stays_of_each (each_read (G := Eq) (fun _ => rfl) f) hA fun s _ h => h ▸ touches_refl target s

/-- A look at the document with a path. -/
theorem stays_lookAt {p : EntryM α} (hp : p.Each Eq) (failure : Failure) (documentPath : Bytes) :
    Stays target A (placeOr failure documentPath >>= fun index => onEntry index p) fun _ => A :=
  Program.Bounds.bind (stays_read hA _) (fun index => stays_onEntry_unchanged hp hA index)
    fun _ _ h => h

theorem stays_observeTarget (documentPath : Bytes) (look : Document → Except Failure α) :
    Stays target A (observeTarget documentPath look) fun _ => A :=
  stays_lookAt hA (each_observe _) _ documentPath

theorem stays_writeDocumentList (entries : List Nat) :
    Stays target A (writeDocumentList entries) fun _ => A := by
  induction entries with
  | nil => exact stays_ret _
  | cons index rest ih =>
      refine Program.Bounds.bind (stays_onEntry_unchanged (each_observe _) hA index) (fun _ => ?_)
        fun _ _ h => h
      exact Program.Bounds.bind ih (fun _ => stays_ret _) fun _ _ h => h

theorem stays_writePaneList (snapshots : List PaneSnapshot) :
    Stays target A (writePaneList snapshots) fun _ => A := by
  induction snapshots with
  | nil => exact stays_ret _
  | cons snapshot rest ih =>
      have hlook : (findNodeIdByPaneId snapshot.paneId).Each Eq :=
        (each_read (fun _ => rfl) _).withMutex _
      refine Program.Bounds.bind (stays_lookAt hA hlook _ _) (fun _ => ?_) fun _ _ h => h
      exact Program.Bounds.bind ih (fun _ => stays_ret _) fun _ _ h => h

/-- The list of panes is no document. -/
theorem stays_handleList (w : Backend) {answer : List PaneSnapshot → StoreM Body}
    (h : ∀ snapshots, Stays target A (answer snapshots) fun _ => A) :
    Stays target A (handleList w answer) fun _ => A := by
  have hanswer : Stays target A (do
      let snapshots ← Program.read fun s => .ok s.tmuxPaneSnapshots
      answer snapshots) fun _ => A := Program.Bounds.bind (stays_read hA _) h fun _ _ h => h
  refine Program.Bounds.bind (B := fun _ => A) ?_ (fun _ => hanswer) fun _ _ h => h
  refine bounds_act (fun _ => hA) fun s hs => ?_
  have htouches : ∀ snapshots, Touches target s { s with tmuxPaneSnapshots := snapshots } :=
    fun snapshots =>
      { keeps := .of_documents rfl
        others := fun _ _ _ _ => rfl
        tmux := fun _ => ⟨rfl, rfl⟩ }
  split
  · exact ⟨htouches _, hA _ _ hs (htouches _).keeps⟩
  · exact ⟨htouches _, hA _ _ hs (htouches _).keeps⟩

theorem stays_handlePlainRequest (w : Backend) (request : RequestEnvelope) :
    Stays target A (handlePlainRequest w request) fun _ => A := by
  unfold handlePlainRequest
  split
  · exact stays_handleList hA w fun _ => stays_ret _
  · exact stays_handleList hA w fun _ => stays_ret _
  · exact stays_handleList hA w fun snapshots =>
      Program.Bounds.bind (stays_writePaneList hA snapshots) (fun _ => stays_ret _) fun _ _ h => h
  all_goals exact stays_ret _

end Unchanged

/-! ## Requests on one document -/

section Requests

variable (w : Backend) (request : RequestEnvelope)

/-- The place that was found is the place of the path. -/
def Found (documentPath : Bytes) (place : Option Nat) (s : Store) : Prop :=
  s.Named ∧ ∀ index, place = some index → s.place documentPath = some index

theorem lasts_found (documentPath : Bytes) (place : Option Nat) :
    Lasts Extends (Found documentPath place) :=
  fun _ _ hs h => ⟨h.named hs.1, fun index hr => h.place (hs.2 index hr)⟩

theorem Found.placed {place : Option Nat} {s : Store} (h : Found documentPath place s)
    (hplace : place = some index) : Placed documentPath index s := ⟨h.1, h.2 index hplace⟩

theorem stays_documentEntryForPath (documentPath : Bytes) :
    Stays target Store.Named (documentEntryForPath documentPath)
      fun r => Found documentPath r.toOption := by
  refine bounds_read (touches_refl target) (fun r => lasts_found documentPath _) fun s hs => ?_
  refine ⟨hs, fun index hindex => ?_⟩
  cases hplace : s.place documentPath with
  | none =>
      rw [hplace] at hindex
      cases hindex
  | some found =>
      rw [hplace] at hindex
      exact hindex

/-- The method of a request on its own document. -/
theorem stays_handleOnEntry (hroot : documentPath ≠ rootDocumentPath) :
    Stays (some documentPath) (Placed documentPath index)
      (handleOnEntry w request documentPath index) fun _ => Store.Named := by
  unfold handleOnEntry pumpFor
  rw [if_neg hroot]
  show Stays _ _ (handleMethod w request documentPath index) _
  unfold handleMethod
  split
  · rename_i handler hhandler
    exact stays_onEntry_named (steady_handleDocumentRequest _ documentPath request hhandler).path
  · split
    · rename_i handler _
      obtain ⟨r, hrefused⟩ := rootOnly_refuses request hroot handler
      rw [hrefused]
      exact bounds_ret fun _ h => h.named
    · exact (stays_handlePlainRequest (lasts_placed _ _) w request).mono (fun _ h => h)
        fun _ _ h => h.named

theorem stays_handleOnPath (hroot : documentPath ≠ rootDocumentPath) :
    Stays (some documentPath) Store.Named (handleOnPath w request documentPath)
      fun _ => Store.Named := by
  unfold handleOnPath requestEntry
  rw [if_neg hroot]
  refine Program.Bounds.bindResult (stays_documentEntryForPath documentPath) fun r => ?_
  unfold handleFound
  split
  · exact bounds_ret fun _ h => h.1
  · exact bounds_ret fun _ h => h.1
  · rename_i index
    -- From here on the document stays at this place.
    refine Program.Bounds.mono (A := Placed documentPath index) ?_ (fun _ h => h.placed rfl)
      fun _ _ h => h
    split
    · rename_i handler hhandler
      exact stays_onEntry_named (steady_handleDebugRequest _ documentPath request hhandler).path
    · exact stays_handleOnEntry w request hroot

/-- A new document comes behind the others. -/
theorem touches_withDocument {s : Store} {path : Bytes}
    (hcanonical : isCanonicalDocumentPath path = true) (hnew : ¬ (s.place path).isSome = true)
    (title : Bytes) : Touches target s (s.withDocument path title) where
  keeps := extends_withDocument hcanonical hnew title
  others _ _ hindex _ := (entryAt_of_known (List.prefix_append _ _) hindex).2
  tmux _ := ⟨rfl, rfl⟩

theorem stays_createDocument (path : Bytes) (title : Option Bytes) :
    Stays target Store.Named (createDocument path title) fun _ => Store.Named := by
  unfold createDocument
  split
  · exact stays_ret _
  · rename_i hcanonical
    split
    · exact stays_ret _
    · refine bounds_act (fun _ => lasts_named) fun s hs => ?_
      split
      · exact ⟨touches_refl _ s, hs⟩
      · rename_i hnew
        split
        · have htouches : Touches target s (s.withDocument path
              (title.getD (defaultDocumentTitleFromPath path))) :=
            touches_withDocument (by simpa using hcanonical) hnew _
          exact ⟨htouches, htouches.keeps.named hs⟩
        · exact ⟨touches_refl _ s, hs⟩

theorem stays_handleDocumentCreate :
    Stays target Store.Named (handleDocumentCreate request) fun _ => Store.Named := by
  unfold handleDocumentCreate required
  split
  · refine Program.Bounds.bindResult (stays_createDocument _ _) fun r => ?_
    split
    · exact Program.Bounds.bind (stays_read lasts_named _) (fun _ => stays_ret _) fun _ _ h => h
    · split
      · exact stays_ret _
      · exact stays_ret _
    · exact stays_ret _
  · exact stays_ret _

/-- A request that is not on the root document changes the document that it names and no other. -/
theorem stays_handleRequest (request : Option RequestEnvelope)
    (hroot : requestTarget request ≠ some rootDocumentPath) :
    Stays (requestTarget request) Store.Named (handleRequest w request) fun _ => Store.Named := by
  cases request with
  | none => exact stays_ret _
  | some request =>
      unfold handleRequest
      simp only
      split
      · exact stays_ret _
      · split
        · exact stays_ret _
        · exact stays_ret _
        · exact stays_ret _
        · refine Program.Bounds.bind (stays_read lasts_named _) (fun entries => ?_) fun _ _ h => h
          exact Program.Bounds.bind (stays_writeDocumentList lasts_named entries)
            (fun _ => stays_ret _) fun _ _ h => h
        · exact stays_handleDocumentCreate request
        · split
          · exact stays_ret _
          · rename_i documentPath htarget
            have hsome : requestTarget (some request) = some documentPath := by
              show (requestDocumentPath request).toOption = _
              rw [htarget]
              rfl
            rw [hsome] at hroot ⊢
            exact stays_handleOnPath w request fun heq => hroot (congrArg some heq)

/-! ## The guard of a request -/

theorem requestTarget_ok {request : RequestEnvelope} {documentPath : Bytes}
    (h : requestDocumentPath request = .ok documentPath) :
    requestTarget (some request) = some documentPath := by
  show (requestDocumentPath request).toOption = _
  rw [h]
  rfl

/-- A guard is acquired of the document that the request names, and of no other. -/
theorem stays_acquireRequestGuard (request : Option RequestEnvelope) :
    Stays (requestTarget request) Store.Named (acquireRequestGuard request)
      fun _ => Store.Named := by
  cases request with
  | none => exact stays_ret _
  | some request =>
      unfold acquireRequestGuard
      simp only
      split
      · exact stays_ret _
      · rename_i documentPath htarget
        split
        · exact stays_ret _
        · rw [requestTarget_ok htarget]
          refine Program.Bounds.bind (B := fun r => Found documentPath r.toOption.join) ?_
            (fun place => ?_) fun _ _ h => h.1
          · refine bounds_read (touches_refl _) (fun r => lasts_found documentPath _) fun s hs => ?_
            exact ⟨hs, fun _ hplace => hplace⟩
          · cases place with
            | none => exact bounds_ret fun _ h => h.1
            | some index =>
                refine Program.Bounds.bind (A := Found documentPath (some index))
                  (B := fun _ => Store.Named) ?_ (fun guard => stays_ret _) fun _ _ h => h
                exact (stays_onEntry_named (upkeeps_acquireRequestGuardForEntry request).path).mono
                  (fun _ h => h.placed rfl) fun _ _ h => h

theorem stays_releaseGuard (guard : Option (Nat × RequestGuard)) :
    Stays target Store.Named (releaseGuard guard) fun _ => Store.Named := by
  cases guard with
  | none => exact stays_ret _
  | some found => exact stays_onEntry_unchanged (each_guardRelease found.2) lasts_named found.1

/-- A request that is not on the root document, with its guard. -/
theorem stays_executeQueuedRequest (request : Option RequestEnvelope)
    (hroot : requestTarget request ≠ some rootDocumentPath) :
    Stays (requestTarget request) Store.Named (executeQueuedRequest w request)
      fun _ => Store.Named := by
  refine Program.Bounds.bindResult (stays_acquireRequestGuard request) fun r => ?_
  cases r with
  | error failure => exact stays_ret _
  | ok guard =>
      refine Program.Bounds.bindResult (stays_handleRequest w request hroot) fun r => ?_
      exact Program.Bounds.bindResult (stays_releaseGuard guard) fun _ => stays_ret _

/-- Whatever a request is about, the documents stay in their places. -/
theorem each_executeQueuedRequest (request : Option RequestEnvelope) :
    (executeQueuedRequest w request).Each Extends := by
  have hunchanged : ∀ {α : Type} {p : EntryM α} (index : Nat), KeepsPath p →
      (onEntry index p).Each Extends := fun index hp => each_onEntry hp index
  refine Program.Each.bindResult ?_ fun r => ?_
  · unfold acquireRequestGuard
    split
    · exact each_ret _
    · split
      · exact each_ret _
      · split
        · exact each_ret _
        · refine (each_read extends_progress.refl _).bind fun place => ?_
          cases place with
          | none => exact each_ret _
          | some index =>
              exact (hunchanged index (upkeeps_acquireRequestGuardForEntry _).path).bind
                fun _ => each_ret _
  · cases r with
    | error failure => exact each_ret _
    | ok guard =>
        refine (orderly_handleRequest w request).steps.ensure ?_
        cases guard with
        | none => exact each_ret _
        | some found => exact hunchanged found.1 (upkeeps_guardRelease found.2).path

end Requests

/-! ## Every interleaving -/

theorem stays_classifyParsed (request : RequestEnvelope) :
    Stays target Store.Named (classifyParsed request) fun _ => Store.Named := by
  unfold classifyParsed
  split
  · exact stays_ret _
  · split
    · exact stays_ret _
    · split
      · exact stays_ret _
      · split
        · refine Program.Bounds.bind (B := fun _ => Store.Named) ?_ (fun _ => stays_ret _)
            fun _ _ h => h
          refine Program.Bounds.bindResult (stays_read lasts_named _) fun r => ?_
          split
          · exact stays_onEntry_unchanged (each_resolveExecutionDomainRoot request) lasts_named _
          · exact stays_ret _
          · exact stays_ret _
        · exact stays_ret _

/-- Every task changes the document it is about and no other. -/
theorem stays_run (task : Task) :
    Stays task.target Store.Named task.run fun _ => Store.Named := by
  cases task with
  | execute w request =>
      refine stays_discard ?_
      show Stays (requestTarget request) _ _ _
      by_cases hroot : requestTarget request = some rootDocumentPath
      · rw [hroot]
        exact stays_ofRoot (each_executeQueuedRequest w request)
      · exact stays_executeQueuedRequest w request hroot
  | classify request => exact stays_discard (stays_classifyParsed request)
  | projectionStream request =>
      refine stays_discard (Program.Bounds.bind (stays_read lasts_named _) (fun _ => ?_) fun _ _ h => h)
      exact Program.Bounds.bind (stays_observeTarget lasts_named _ _) (fun _ => stays_ret _)
        fun _ _ h => h
  | ttyStream request =>
      refine stays_discard (Program.Bounds.bind (stays_read lasts_named _) (fun _ => ?_) fun _ _ h => h)
      refine Program.Bounds.bind (stays_read lasts_named _) (fun _ => ?_) fun _ _ h => h
      exact Program.Bounds.bind (stays_observeTarget lasts_named _ _) (fun _ => stays_ret _)
        fun _ _ h => h
  | paneStream w paneId =>
      exact stays_discard (stays_ofRoot (orderly_captureTmuxPane w paneId).steps)
  | maintenance w => exact stays_ofRoot (orderly_pumpTmuxBackend w).steps

/-- Every thread stays inside what its task is about. -/
theorem confines_storeSystem {s : Store} (hs : s.Named) (tasks : Nat → Task) :
    Confines Extends (fun t => Touches (tasks t).target) (fun _ _ => Store.Named)
      (storeSystem s tasks) := fun t =>
  ⟨Store.Named, lasts_named, hs, stays_run (tasks t)⟩

section Runs

variable {s : Store} {tasks : Nat → Task} (hs : s.Named) {c : StoreSystem}
  (hc : Config.Reaches Config.anyStep (storeSystem s tasks) c)
include hs hc

/-- What every step of every thread does to the store. -/
theorem touches_step {t : Nat} {c' : StoreSystem} (hstep : c.next t = some c') :
    Touches (tasks t).target c.view.shared c'.view.shared := by
  have hconfines := (confines_storeSystem hs tasks).reaches (fun _ _ _ h => h.keeps) hc
  rcases hconfines.step hstep with hsame | htouches
  · rw [hsame]
    exact touches_refl _ _
  · exact htouches

theorem extends_reaches : Extends s c.view.shared := by
  induction hc with
  | refl => exact extends_progress.refl s
  | step t hc hstep _ ih => exact extends_progress.trans ih (touches_step hs hc hstep).keeps

/-- A document that no task is about, nor the root document, is what it was. -/
theorem entryAt_reaches {index : Nat} (hindex : index < s.documents.length)
    (hother : ∀ t, (tasks t).target ≠ some rootDocumentPath ∧
      (tasks t).target ≠ some (s.entryAt index).path) :
    c.view.shared.entryAt index = s.entryAt index := by
  induction hc with
  | refl => rfl
  | @step c c' t hc hstep _ ih =>
      have hlength : index < c.view.shared.documents.length := by
        have hle := (extends_reaches hs hc).paths.length_le
        rw [length_paths, length_paths] at hle
        omega
      have hpath : (tasks t).target ≠ some (c.view.shared.entryAt index).path := by
        rw [ih]
        exact (hother t).2
      rw [(touches_step hs hc hstep).others (hother t).1 index hlength hpath, ih]

end Runs

/-- The request that appends a text leaf to `/docs`. -/
def appendDocs : RequestEnvelope := docsRequest .nodeAppend <| some <| .object
  [(ascii "parentId", .integer 1), (ascii "kind", .string (ascii "text_leaf")),
    (ascii "title", .string (ascii "a"))]

end Muxly.Documents
