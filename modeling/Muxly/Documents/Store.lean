/-
# Muxly.Documents.Store -- the documents of the daemon

`Store` of `store.zig`: the documents, the root document first, and what the store knows about
tmux. An entry is never removed, so its place in the list stands for the pointer to it. Code on one
document (`Muxly.Daemon.Operations`) runs on the entry at a place, with the mutexes of that entry.

The short sections under `documents_mutex`, in which no other mutex is taken, are single steps. What
the file system, tmux and the projection notifier answer during one request is a `Backend`.
-/
import Muxly.Daemon.Execution
import Muxly.Daemon.TmuxPump
import Muxly.Sync.Zoom

namespace Muxly.Documents

open Muxly.Control Muxly.Core Muxly.Daemon Muxly.Sync Program

/-- `Store`. -/
structure Store where
  documents : List DocumentEntry
  nextDocumentId : Nat
  /-- `runtime_limits.max_document_content_bytes`. -/
  maxDocumentContentBytes : UInt64
  tmuxPaneSnapshots : List PaneSnapshot
  controlConnection : Bool
  tmuxProjectionState : TmuxProjectionState

/-- A mutex of the entry at a place. -/
abbrev StoreMutex : Type := Nat × Mutex

/-- Code of one thread on the store. -/
abbrev StoreM (α : Type) : Type := Program StoreMutex Store Unit Failure α

/-- What the surroundings answer during one request. -/
structure Backend where
  /-- The file system, the panes and the notifier, for the document with a path. -/
  env : Bytes → Env
  /-- `tmux.listPaneSnapshots`, for each place that calls it. -/
  listPaneSnapshots : Nat → Except Failure (List PaneSnapshot)
  /-- `ControlConnection.initAttach`: whether a connection is made. An error other than
  `FileNotFound` and `ControlModeUnavailable` is returned. -/
  initAttach : Nat → Bytes → Except Failure Bool
  /-- The events that `drainEvents` reads. -/
  events : List ControlEvent
  /-- How reading them ends, when the connection does not exit. -/
  drained : Except Failure Unit
  /-- `tmux.createSession`, `tmux.createWindow` and `tmux.splitPane`: the new pane. -/
  createdPane : Except Failure Bytes
  /-- `tmux.closePane`, `tmux.resizePane`, `tmux.focusPane` and `tmux.sendKeys`. -/
  commanded : Except Failure Unit
  /-- `tmux.capturePaneWithLimit` and `tmux.capturePaneRangeWithLimit`. -/
  captured : Except Failure Bytes

/-! ## Entries -/

/-- What stands for an entry at a place where there is none. -/
def missingEntry : DocumentEntry where
  path := []
  document := Document.init 0 []
  runtime := .init

/-- The entry at a place. -/
def Store.entryAt (s : Store) (index : Nat) : DocumentEntry := s.documents.getD index missingEntry

/-- The store with another entry at a place. -/
def Store.withEntry (index : Nat) (e : DocumentEntry) (s : Store) : Store :=
  { s with documents := s.documents.set index e }

/-- The entry at a place, as a part of the store. -/
def entryPart (index : Nat) : Part Store DocumentEntry where
  Has s := index < s.documents.length
  get s := s.entryAt index
  put := Store.withEntry index
  has_put h := by simpa [Store.withEntry] using h
  get_put h := by simp [Store.entryAt, Store.withEntry, h]
  put_get h := by simp [Store.entryAt, Store.withEntry, h]
  put_put := by simp [Store.withEntry]

/-- Run code on the entry at a place. -/
def onEntry {α : Type} (index : Nat) (p : EntryM α) : StoreM α :=
  p.zoom (entryPart index) fun m => (index, m)

/-- The place of the first entry with a path. -/
def Store.place (s : Store) (documentPath : Bytes) : Option Nat :=
  s.documents.findIdx? fun e => e.path = documentPath

/-- Look up the entry with a path. -/
def placeOr (failure : Failure) (documentPath : Bytes) : StoreM Nat :=
  read fun s => (s.place documentPath).elim (.error failure) .ok

/-- `documentEntryForPath`. -/
def documentEntryForPath (documentPath : Bytes) : StoreM Nat :=
  placeOr (.error .unsupportedDocumentPath) documentPath

/-- `rootDocument`: `documentForPath("/") catch unreachable`. -/
def rootDocument : StoreM Nat := placeOr (.panic .reachedUnreachable) rootDocumentPath

/-- Run code on the root document. -/
def onRoot {α : Type} (p : EntryM α) : StoreM α := do
  let index ← rootDocument
  onEntry index p

/-- `snapshotDocumentEntries`. -/
def snapshotDocumentEntries : StoreM (List Nat) :=
  read fun s => .ok (List.range s.documents.length)

/-! ## Making documents -/

/-- `std.fs.path.basename`: the last component, slashes behind it left out. -/
def basename (path : Bytes) : Bytes :=
  ((path.reverse.dropWhile (· = slash)).takeWhile (· ≠ slash)).reverse

/-- `defaultDocumentTitleFromPath`. -/
def defaultDocumentTitleFromPath (documentPath : Bytes) : Bytes :=
  if basename documentPath ≠ [] ∧ basename documentPath ≠ rootDocumentPath then
    basename documentPath
  else ascii "document"

/-- The store with a new document. -/
def Store.withDocument (documentPath title : Bytes) (s : Store) : Store :=
  { s with
    documents := s.documents ++
      [cappedEntry documentPath s.nextDocumentId title s.maxDocumentContentBytes]
    nextDocumentId := s.nextDocumentId + 1 }

/-- `createDocument`: the place of the new entry. -/
def createDocument (documentPath : Bytes) (title : Option Bytes) : StoreM Nat :=
  if !isCanonicalDocumentPath documentPath then throw (.error .invalidDocumentPath)
  else if documentPath = rootDocumentPath then throw (.error .documentAlreadyExists)
  else
    act fun s =>
      if (s.place documentPath).isSome then (.error (.error .documentAlreadyExists), s)
      else if s.nextDocumentId + 1 < u64Limit then
        (.ok s.documents.length,
          s.withDocument documentPath (title.getD (defaultDocumentTitleFromPath documentPath)))
      else (.error (.panic .integerOverflow), s)

/-- The text of the first node of a new daemon. -/
def introText : Bytes :=
  ascii ("muxly bootstrap document\n- viewer uses public surfaces\n- append-friendly regions\n" ++
    "- mixed-source leaves\n")

/-- What `initWithRuntimeLimits` adds to the root document. -/
def writeIntro (rootNodeId : Nat) : DocM Unit := do
  let introId ← Document.appendNode rootNodeId .scrollRegion (ascii "welcome") .none
  Document.setNodeContent introId introText

/-- `initWithRuntimeLimits`. -/
def Store.init (maxDocumentContentBytes : UInt64) : Except Failure Store :=
  let e := cappedEntry rootDocumentPath 1 (ascii "muxly") maxDocumentContentBytes
  match writeIntro e.document.rootNodeId e.document with
  | (.ok _, document) => .ok {
      documents := [{ e with document := document }]
      nextDocumentId := 2
      maxDocumentContentBytes := maxDocumentContentBytes
      tmuxPaneSnapshots := []
      controlConnection := false
      tmuxProjectionState := .clean }
  | (.error failure, _) => .error failure

/-! ## Guards -/

/-- `acquireRequestGuard` from the point where the entry has been looked up. -/
def acquireGuardAt (request : RequestEnvelope) : Option Nat → StoreM (Option (Nat × RequestGuard))
  | none => pure none
  | some index => do
    let guard ← onEntry index (acquireRequestGuardForEntry request)
    return some (index, guard)

/-- `acquireRequestGuard`: the guard and the place of the entry it belongs to. A text that is no
request, and a request on the root document or on no document, take none. -/
def acquireRequestGuard (request : Option RequestEnvelope) : StoreM (Option (Nat × RequestGuard)) :=
  match request with
  | none => pure none
  | some request =>
    match requestDocumentPath request with
    | .error _ => pure none
    | .ok documentPath =>
      if documentPath = rootDocumentPath then pure none
      else do
        let place ← read fun s => .ok (s.place documentPath)
        acquireGuardAt request place

/-- `RequestGuard.release`. -/
def releaseGuard : Option (Nat × RequestGuard) → StoreM Unit
  | none => pure ()
  | some (index, guard) => onEntry index guard.release

/-- The turn of `refreshSources` for one entry. -/
def refreshEntry (w : Backend) (visit index : Nat) : StoreM Unit := do
  let documentPath ← read fun s => .ok (s.entryAt index).path
  onEntry index <|
    underGuard acquireCoordinatorExclusive (refreshSourcesForDocument (w.env documentPath) visit)

/-- `refreshSources`. -/
def refreshSources (w : Backend) (visit : Nat) : StoreM Unit := do
  let entries ← snapshotDocumentEntries
  forEach entries (refreshEntry w visit)

end Muxly.Documents
