/-
# Muxly.Documents.TmuxOrder -- what the daemon does for tmux is orderly

The functions that follow tmux change the root document under its mutexes as their readings one
after another do (`Muxly.Daemon.TmuxStore`), and refresh every document under a guard of its own.
None of them asks for a mutex that it holds.
-/
import Muxly.Documents.Orderly

namespace Muxly.Documents

open Muxly.Control Muxly.Core Muxly.Core.Document Muxly.Daemon Muxly.Sync Muxly.Sync.Program

variable {α : Type}

/-! ## Code on the root document -/

/-- An action that gives the entry no other path. -/
abbrev PathAction (f : EntryAction α) : Prop := Action.Advances (fun _ => True) SamePath f

theorem pathAction_onDocument (m : DocM α) : PathAction (DocumentEntry.onDocument m) :=
  fun _ _ => ⟨trivial, rfl⟩

theorem pathAction_view (f : DocumentEntry → Except Failure α) : PathAction (Action.view f) :=
  Action.advances_view samePath_progress f

theorem pathAction_markTopologyChanged :
    PathAction (modify (·.markTopologyChanged) : EntryAction PUnit) := fun _ _ => ⟨trivial, rfl⟩

theorem pathAction_onTopology (m : DocM α) : PathAction (Sequential.onTopology m) :=
  (pathAction_onDocument m).bind samePath_progress fun _ =>
    pathAction_markTopologyChanged.bind samePath_progress fun _ =>
      Action.advances_pure samePath_progress _

/-- A removal whose error is dropped. -/
theorem pathAction_removePaneNode (x : Nat) : PathAction (Sequential.removePaneNode x) := by
  refine ((pathAction_onDocument _).tryCatch samePath_progress fun failure => ?_).bind
    samePath_progress fun _ => pathAction_markTopologyChanged
  cases failure with
  | error e => exact Action.advances_pure samePath_progress _
  | panic p => exact Action.advances_throw samePath_progress _
  | outOfFuel => exact Action.advances_throw samePath_progress _

theorem pathAction_closeWindowNode (env : Env) (x : Nat) : PathAction (closeWindowNode env x) := by
  refine Action.Advances.bind samePath_progress (Action.Advances.tryCatch samePath_progress ?_
    fun failure => ?_) fun removed => ?_
  · exact (pathAction_onDocument _).bind samePath_progress fun _ =>
      Action.advances_pure samePath_progress _
  · cases failure with
    | error e => exact Action.advances_pure samePath_progress _
    | panic p => exact Action.advances_throw samePath_progress _
    | outOfFuel => exact Action.advances_throw samePath_progress _
  · cases removed with
    | false => exact Action.advances_pure samePath_progress _
    | true => exact pathAction_markTopologyChanged.bind samePath_progress fun _ => pathAction_view _

theorem sound_closeWindowNode (env : Env) (x : Nat) : SoundEntry (closeWindowNode env x) := by
  refine soundEntry_bind (Sequential.sound_dropError (soundEntry_bind (soundEntry_onDocument
    (removeSubtree_settled x)) fun _ => soundEntry_pure _) _) fun removed => ?_
  cases removed with
  | false => exact soundEntry_pure _
  | true => exact soundEntry_bind soundEntry_markTopologyChanged fun _ => soundEntry_view _

/-- The three mutexes are taken one after another and given back. -/
theorem alone_underStructureMutexes (f : EntryAction α) : Alone [] (underStructureMutexes f) f := by
  have hcontent : Alone [Mutex.nodeRegistry, .globalStructureFallback]
      (withMutex .contentBytes (act f) : EntryM α) f := (alone_act f).withMutex (by decide)
  have hregistry : Alone [Mutex.globalStructureFallback]
      (withMutex .nodeRegistry (withMutex .contentBytes (act f)) : EntryM α) f :=
    hcontent.withMutex (by decide)
  exact hregistry.withMutex (by decide)

theorem steady_underStructureMutexes {f : EntryAction α} (hf : SoundEntry f) (hpath : PathAction f) :
    Steady (underStructureMutexes f) := by
  refine steady_of_alone (alone_underStructureMutexes f) hf ?_
  exact (((each_act fun e => (hpath e trivial).2).withMutex _).withMutex _).withMutex _

theorem alone_findNodeIdByPaneId (paneId : Bytes) : Alone [] (findNodeIdByPaneId paneId)
    (Action.view fun e => Sequential.findNodeIdByPaneId e.document paneId) :=
  (alone_read _).withMutex (by decide)

theorem keepsPath_findNodeIdByPaneId (paneId : Bytes) : KeepsPath (findNodeIdByPaneId paneId) :=
  (keepsPath_read _).withMutex _

theorem steady_findNodeIdByPaneId (paneId : Bytes) : Steady (findNodeIdByPaneId paneId) :=
  steady_of_alone (alone_findNodeIdByPaneId paneId) (soundEntry_view _)
    (keepsPath_findNodeIdByPaneId paneId)

/-- What is looked up under the registry mutex, before code that gives it back. -/
theorem alone_lookUp {β : Type} {g : DocumentEntry → Except Failure β} {k : β → EntryM α}
    {f : β → EntryAction α}
    (hk : ∀ b e, solo (k b) [.nodeRegistry] e = (.done (f b e).1, [], (f b e).2)) :
    Alone [] (do
      acquire .nodeRegistry
      let b ← onError (Program.read g) (release .nodeRegistry)
      k b) (Action.view g >>= f) := by
  intro e
  show solo (.lock Mutex.nodeRegistry (bindResult (onError (Program.read g) _) (onOk k))) [] e = _
  rw [solo, if_neg (by decide), solo_bindResult, solo_onError_read, Action.bind_apply,
    Action.view_apply]
  cases g e with
  | error failure => rfl
  | ok b => exact hk b e

/-- The content mutex is taken before the registry mutex is given back. -/
theorem alone_appendTmuxPaneOutput (env : Env) (paneId normalized : Bytes) :
    Alone [] (appendTmuxPaneOutput env paneId normalized)
      (Sequential.appendTmuxPaneOutput env paneId normalized) := by
  refine (alone_findNodeIdByPaneId paneId).bind fun nodeId => ?_
  cases nodeId with
  | none => exact alone_throw _
  | some x =>
      have htext : Alone [Mutex.contentBytes] (appendPaneText env x normalized) (do
          DocumentEntry.onDocument (Document.appendTextToStableNode x normalized)
          Sequential.notifyInvalidate env x .content
          Sequential.notifyTtyData env x normalized) :=
        (alone_onDocument _).bind fun _ => (alone_read _).bind fun _ => alone_read _
      refine alone_lookUp fun node e => ?_
      cases hfollow : node.followTail with
      | false =>
          rw [if_neg Bool.false_ne_true]
          rfl
      | true =>
          rw [if_pos rfl]
          show solo (.lock Mutex.contentBytes (.unlock .nodeRegistry _)) [Mutex.nodeRegistry] e = _
          rw [solo, if_neg (by decide), solo]
          exact htext.ensure (fun e => rfl) e

theorem keepsPath_appendTmuxPaneOutput (env : Env) (paneId normalized : Bytes) :
    KeepsPath (appendTmuxPaneOutput env paneId normalized) := by
  refine (keepsPath_findNodeIdByPaneId paneId).bind fun nodeId => ?_
  cases nodeId with
  | none => exact each_ret _
  | some x =>
      refine (each_acquire _).bind fun _ => ?_
      refine ((keepsPath_read _).onError (each_release _)).bind fun node => ?_
      split
      · refine (each_acquire _).bind fun _ => (each_release _).bind fun _ => ?_
        refine Program.Each.ensure ?_ (each_release _)
        exact (keepsPath_onDocument _).bind fun _ => (keepsPath_read _).bind fun _ => keepsPath_read _
      · exact each_release _

theorem steady_appendTmuxPaneOutput (env : Env) (paneId normalized : Bytes) :
    Steady (appendTmuxPaneOutput env paneId normalized) :=
  steady_of_alone (alone_appendTmuxPaneOutput env paneId normalized)
    (Sequential.sound_appendTmuxPaneOutput env paneId normalized)
    (keepsPath_appendTmuxPaneOutput env paneId normalized)

theorem steady_tryApplyWindowRenamed (env : Env) (windowId windowName : Bytes) :
    Steady (act (Sequential.tryApplyWindowRenamed env windowId windowName)) := by
  refine steady_of_alone (alone_act _) (Sequential.sound_tryApplyWindowRenamed env _ _) ?_
  refine each_act fun e => ?_
  have hpath : PathAction (Sequential.tryApplyWindowRenamed env windowId windowName) := by
    refine (pathAction_view _).bind samePath_progress fun node => ?_
    cases node with
    | none => exact Action.advances_pure samePath_progress _
    | some node =>
        have hedit : PathAction (modify fun e : DocumentEntry =>
            { e with document := e.document.modifyNode node.id (·.setTitle windowName) }) :=
          fun _ _ => ⟨trivial, rfl⟩
        exact hedit.bind samePath_progress fun _ => (pathAction_view _).bind samePath_progress
          fun _ => Action.advances_pure samePath_progress _
  exact (hpath e trivial).2

theorem steady_tryApplyWindowClose (env : Env) (windowId : Bytes) :
    Steady (tryApplyWindowClose env windowId) := by
  refine (steady_read _).bind fun node => ?_
  cases node with
  | none => exact steady_ret _
  | some node =>
      exact steady_underStructureMutexes (sound_closeWindowNode env node.id)
        (pathAction_closeWindowNode env node.id)

theorem steady_tryApplyIncrementalNotification (env : Env) (name payload : Bytes) :
    Steady (tryApplyIncrementalNotification env name payload) := by
  unfold tryApplyIncrementalNotification
  split
  · split
    · exact steady_tryApplyWindowRenamed env _ _
    · exact steady_ret _
  · split
    · split
      · exact (steady_tryApplyWindowClose env _).bind fun _ => steady_ret _
      · exact steady_ret _
    · exact steady_ret _

theorem steady_notifyInvalidate (env : Env) (x : Nat) (reason : ProjectionEventReason) :
    Steady (notifyInvalidate env x reason) := steady_read _

theorem steady_setPaneFollowTail (env : Env) (paneId : Bytes) (enabled : Bool) :
    Steady (setPaneFollowTail env paneId enabled) := by
  refine (steady_findNodeIdByPaneId paneId).bind fun nodeId => ?_
  cases nodeId with
  | none => exact steady_ret _
  | some x => exact (steady_onDocument (setFollowTail_settled x enabled)).bind fun _ => steady_read _

theorem steady_captureIntoNode (env : Env) (paneId capture : Bytes) :
    Steady (captureIntoNode env paneId capture) := by
  refine (steady_findNodeIdByPaneId paneId).bind fun nodeId => ?_
  cases nodeId with
  | none => exact steady_ret _
  | some x =>
      refine (steady_read _).bind fun node => ?_
      cases node with
      | none => exact steady_ret _
      | some node =>
          exact steady_of_alone (alone_setNodeContentFromSource handlerFree_nil env x capture)
            (Sequential.sound_setNodeContentFromSource env x capture)
            (keepsPath_setNodeContentFromSource env x capture)

/-! ## Code on the store -/

section Store

variable (w : Backend)

theorem free_nil (m : Mutex) : ((0, m) : StoreMutex) ∉ [] := List.not_mem_nil

theorem orderly_refreshTmuxPaneSnapshots (held : List StoreMutex) (visit : Nat) :
    Orderly held (refreshTmuxPaneSnapshots w visit) := by
  refine orderly_act fun s => ?_
  split
  · rfl
  · rfl

theorem orderly_ensureControlConnection (visit : Nat) (sessionName : Bytes) :
    Orderly [] (ensureControlConnection w visit sessionName) := by
  refine orderly_act fun s => ?_
  split
  · rfl
  · split
    · rfl
    · rfl

theorem orderly_ensureControlConnectionForKnownTmuxState (visit : Nat) :
    Orderly [] (ensureControlConnectionForKnownTmuxState w visit) := by
  refine (orderly_read _).bind fun connected => ?_
  cases connected with
  | true => exact orderly_ret _
  | false =>
      refine Orderly.bind ?_ fun _ => (orderly_read _).bind fun first => ?_
      · refine (orderly_read _).bind fun snapshots => ?_
        split
        · exact orderly_refreshTmuxPaneSnapshots w [] visit
        · exact orderly_ret _
      · cases first with
        | none => exact orderly_ret _
        | some first => exact orderly_ensureControlConnection w visit first.sessionName

theorem orderly_invalidateTmuxProjection (state : TmuxProjectionState) :
    Orderly [] (invalidateTmuxProjection state) := orderly_act fun _ => rfl

theorem orderly_setClean : Orderly [] setClean := orderly_act fun _ => rfl

theorem orderly_handleEvent (event : ControlEvent) : Orderly [] (handleEvent w event) := by
  have hinvalidate := orderly_invalidateTmuxProjection .invalidatedByNotification
  cases event with
  | paneOutput paneId normalized =>
      refine (orderly_onRoot (steady_appendTmuxPaneOutput _ paneId normalized) free_nil).tryCatch
        fun failure => ?_
      cases failure with
      | error e => exact hinvalidate
      | panic p => exact orderly_ret _
      | outOfFuel => exact orderly_ret _
  | notification name payload =>
      refine (orderly_onRoot (steady_tryApplyIncrementalNotification _ name payload) free_nil).bind
        fun applied => ?_
      split
      · exact hinvalidate
      · exact orderly_ret _
  | _ => exact orderly_ret _

theorem orderly_drainEvents (events : List ControlEvent) : Orderly [] (drainEvents w events) := by
  induction events with
  | nil => exact (orderly_read _).bind fun _ => orderly_ret _
  | cons event rest ih =>
      have hrest : Orderly [] (handleEvent w event >>= fun _ => drainEvents w rest) :=
        (orderly_handleEvent w event).bind fun _ => ih
      cases event with
      | exit => exact (orderly_invalidateTmuxProjection _).bind fun _ => orderly_ret _
      | _ => exact hrest

theorem orderly_drainConnection : Orderly [] (drainConnection w) := by
  refine (orderly_read _).bind fun connected => ?_
  cases connected with
  | true => exact (orderly_drainEvents w w.events).bind fun _ => orderly_act fun _ => rfl
  | false => exact orderly_ret _

theorem steady_onTopology {m : DocM α} (hm : Settled m) :
    Steady (underStructureMutexes (Sequential.onTopology m)) :=
  steady_underStructureMutexes (Sequential.sound_onTopology hm) (pathAction_onTopology m)

theorem orderly_reconcileKnownTmuxProjections : Orderly [] reconcileKnownTmuxProjections := by
  refine (orderly_read _).bind fun snapshots => orderly_onRoot (steady_onTopology ?_) free_nil
  exact (settled_view _).bind settles_progress fun projections =>
    Action.Advances.forM_of settles_progress fun projection _ =>
      Sequential.settled_reconcileProjection snapshots projection

/-- Every document is refreshed in its place. -/
theorem orderly_refreshSources (visit : Nat) : Orderly [] (refreshSources w visit) := by
  constructor
  · intro paths s hs
    have hentry : ∀ index ∈ List.range s.documents.length,
        Executes [] (Lists s.paths) (refreshEntry w visit index) fun _ => Lists s.paths := by
      intro index hindex
      have hlt : index < s.paths.length := by
        rw [length_paths]
        exact List.mem_range.mp hindex
      refine (orderly_read _).executes s.paths |>.bind (fun documentPath => ?_) fun _ _ h => h
      have hrefresh := steady_refreshDocument (w.env documentPath) visit
      exact (executes_onEntry (hrefresh.executes.mono (fun _ h => h) fun _ _ h => ⟨h, trivial⟩)
        hrefresh.path (fun _ => List.not_mem_nil) hlt).mono (fun _ h => h) fun _ _ h => h.1
    obtain ⟨r, s', hsolo, hs'⟩ := Executes.forEach hentry s ⟨hs.sound, List.prefix_rfl⟩
    exact ⟨r, s', hsolo, hs'.sound, hs.known.trans hs'.known⟩
  · refine (each_read extends_progress.refl _).bind fun entries => Program.Each.forEach fun index _ => ?_
    refine (each_read extends_progress.refl _).bind fun documentPath => ?_
    exact each_onEntry (steady_refreshDocument (w.env documentPath) visit).path index

theorem orderly_reconcileTmuxState : Orderly [] (reconcileTmuxState w) := by
  refine (orderly_refreshTmuxPaneSnapshots w [] 1).bind fun _ => (orderly_read _).bind fun gone => ?_
  have hrest : Orderly [] (do
      reconcileKnownTmuxProjections
      refreshSources w 0
      let connected ← read fun s => .ok s.controlConnection
      if connected then setClean else pure ()) := by
    refine (orderly_reconcileKnownTmuxProjections).bind fun _ => ?_
    refine (orderly_refreshSources w 0).bind fun _ => (orderly_read _).bind fun connected => ?_
    split
    · exact orderly_setClean
    · exact orderly_ret _
  split
  · exact (orderly_ensureControlConnectionForKnownTmuxState w 2).bind fun _ => hrest
  · exact hrest

theorem orderly_pumpTmuxBackend : Orderly [] (pumpTmuxBackend w) := by
  refine (orderly_ensureControlConnectionForKnownTmuxState w 0).bind fun _ => ?_
  refine (orderly_drainConnection w).bind fun _ => (orderly_read _).bind fun state => ?_
  split
  · exact orderly_ret _
  · exact orderly_reconcileTmuxState w

theorem orderly_pumpBeforeRequest : Orderly [] (pumpBeforeRequest w) := by
  refine (orderly_pumpTmuxBackend w).tryCatch fun failure => ?_
  cases failure with
  | error e =>
      show Orderly [] (if e ∈ ignoredPumpErrors then pure () else throw (.error e))
      split
      · exact orderly_ret _
      · exact orderly_ret _
  | panic p => exact orderly_ret _
  | outOfFuel => exact orderly_ret _

/-! ### Requests that drive tmux -/

theorem orderly_rebuildTmuxSessionProjection (visit parentId : Nat) (snapshots : List PaneSnapshot) :
    Orderly [] (rebuildTmuxSessionProjection w visit parentId snapshots) := by
  refine (orderly_onRoot (steady_onTopology (reconcileSessionSnapshots_settled parentId snapshots))
    free_nil).bind fun sessionNodeId => ?_
  refine orderly_setClean.bind fun _ => (orderly_refreshSources w visit).bind fun _ => ?_
  exact (orderly_onRoot (steady_notifyInvalidate _ _ _) free_nil).bind fun _ => orderly_ret _

theorem orderly_rebuildTmuxSessionProjectionForPane (visit preferredParentId : Nat)
    (paneId : Bytes) :
    Orderly [] (rebuildTmuxSessionProjectionForPane w visit preferredParentId paneId) := by
  refine (orderly_refreshTmuxPaneSnapshots w [] visit).bind fun _ => (orderly_read _).bind
    fun snapshots => ?_
  cases snapshots.find? fun snapshot => snapshot.paneId == paneId with
  | none => exact orderly_ret _
  | some snapshot =>
      refine (orderly_onRoot (steady_read _) free_nil).bind fun parentId => ?_
      refine (orderly_rebuildTmuxSessionProjection w visit _ _).bind fun _ => ?_
      refine (orderly_ensureControlConnection w visit _).bind fun _ => ?_
      refine (orderly_onRoot (steady_findNodeIdByPaneId paneId) free_nil).bind fun nodeId => ?_
      cases nodeId with
      | none => exact orderly_ret _
      | some x => exact orderly_ret _

theorem orderly_rootNodeId : Orderly [] rootNodeId := orderly_onRoot (steady_read _) free_nil

theorem orderly_createTmuxSession (parentId : Nat) (sessionName : Bytes) :
    Orderly [] (createTmuxSession w parentId sessionName) := by
  refine (orderly_read _).bind fun paneId => ?_
  refine (orderly_rebuildTmuxSessionProjectionForPane w 2 parentId paneId).bind fun nodeId => ?_
  refine (orderly_ensureControlConnection w 3 sessionName).bind fun _ => ?_
  exact (orderly_onRoot (steady_notifyInvalidate _ _ _) free_nil).bind fun _ => orderly_ret _

theorem orderly_createTmuxPane : Orderly [] (createTmuxPane w) := by
  refine (orderly_read _).bind fun paneId => orderly_rootNodeId.bind fun rootId => ?_
  refine (orderly_rebuildTmuxSessionProjectionForPane w 2 rootId paneId).bind fun nodeId => ?_
  exact (orderly_onRoot (steady_notifyInvalidate _ _ _) free_nil).bind fun _ => orderly_ret _

theorem orderly_captureTmuxPane (paneId : Bytes) : Orderly [] (captureTmuxPane w paneId) :=
  (orderly_read _).bind fun capture =>
    (orderly_onRoot (steady_captureIntoNode _ paneId capture) free_nil).bind fun _ => orderly_ret _

theorem orderly_commandTmuxPane : Orderly [] (commandTmuxPane w) :=
  (orderly_read _).bind fun _ => orderly_refreshSources w 2

theorem orderly_projectRemaining (sessionId : Bytes) : Orderly [] (projectRemaining w sessionId) := by
  refine (orderly_refreshTmuxPaneSnapshots w [] 2).bind fun _ => (orderly_read _).bind
    fun snapshots => ?_
  cases snapshots.find? fun snapshot => snapshot.sessionId == sessionId with
  | some surviving =>
      exact orderly_rootNodeId.bind fun rootId =>
        (orderly_rebuildTmuxSessionProjectionForPane w 3 rootId surviving.paneId).bind fun _ =>
          orderly_ret _
  | none =>
      exact (orderly_onRoot (steady_onTopology (removeSessionProjection_settled sessionId))
        free_nil).bind fun _ => orderly_ret _

theorem orderly_projectSession (sessionId : Option Bytes) :
    Orderly [] (projectSession w sessionId) := by
  cases sessionId with
  | none => exact orderly_ret _
  | some knownSessionId => exact orderly_projectRemaining w knownSessionId

theorem orderly_sessionOfPane (nodeId : Option Nat) : Orderly [] (sessionOfPane nodeId) := by
  cases nodeId with
  | none => exact orderly_ret _
  | some knownNodeId => exact orderly_onRoot (steady_read _) free_nil

theorem each_removePane (nodeId : Option Nat) : (removePane nodeId).Each Extends := by
  cases nodeId with
  | none => exact each_ret _
  | some x =>
      refine (each_read extends_progress.refl _).bind fun index => each_onEntry ?_ index
      exact (((each_act fun e => (pathAction_removePaneNode x e trivial).2).withMutex _).withMutex
        _).withMutex _

theorem orderly_removePane {nodeId : Option Nat} (h : ∀ x, nodeId = some x → x ≠ 1) :
    Orderly [] (removePane nodeId) := by
  cases nodeId with
  | none => exact orderly_ret _
  | some x =>
      exact orderly_onRoot (steady_underStructureMutexes (Sequential.sound_removePaneNode (h x rfl))
        (pathAction_removePaneNode x)) free_nil

/-- The node that is removed was found by its pane, so it is not the root. -/
theorem orderly_closeTmuxPane (paneId : Bytes) : Orderly [] (closeTmuxPane w paneId) := by
  have hfound : Executes [] Sane (findNodeIdByPaneId paneId)
      fun r e => Sane e ∧ ∀ x, r = .ok (some x) → x ≠ 1 :=
    (alone_findNodeIdByPaneId paneId).executes fun e he =>
      ⟨he, fun x hx => Sequential.ne_root_of_findNodeIdByPaneId he.tidy hx⟩
  have hlast : ∀ sessionId, Orderly [] (projectSession w sessionId >>= fun _ => refreshSources w 4) :=
    fun sessionId => (orderly_projectSession w sessionId).bind fun _ => orderly_refreshSources w 4
  constructor
  · intro paths
    refine (executes_onRoot hfound (keepsPath_findNodeIdByPaneId paneId) free_nil paths).bind
      (fun nodeId => ?_) fun _ _ h => h.1
    rintro s ⟨hs, hroot⟩
    have hrest : Orderly [] (sessionOfPane nodeId >>= fun sessionId =>
        read (fun _ => w.commanded) >>= fun _ => removePane nodeId >>= fun _ =>
          projectSession w sessionId >>= fun _ => refreshSources w 4) :=
      (orderly_sessionOfPane nodeId).bind fun sessionId => (orderly_read _).bind fun _ =>
        (orderly_removePane fun x hx => hroot x (congrArg _ hx)).bind fun _ => hlast sessionId
    exact hrest.executes paths s hs
  · refine Program.Each.bind ?_ fun nodeId => ?_
    · exact (each_read extends_progress.refl _).bind fun index =>
        each_onEntry (keepsPath_findNodeIdByPaneId paneId) index
    · refine (orderly_sessionOfPane nodeId).steps.bind fun sessionId => ?_
      refine (each_read extends_progress.refl _).bind fun _ => ?_
      exact (each_removePane nodeId).bind fun _ => (hlast sessionId).steps

end Store

end Muxly.Documents
