/-
# Muxly.Daemon.Upkeep -- what a request does to a document, guard and mutexes left out

Every handler, whatever the request is, keeps the document invariant: what it does is what the
store operations do one after another. Guards only touch the runtime of the entry. No step of any
of them, whenever it is taken, gives the entry another path.
-/
import Muxly.Daemon.Exclusion
import Muxly.Daemon.StoreRuns
import Muxly.Sync.Frame

namespace Muxly.Daemon

open Muxly.Control Muxly.Core Muxly.Core.Document Muxly.Sync Muxly.Sync.Program

variable {α β : Type}

/-! ## The path of an entry -/

/-- The entry keeps its path. -/
def SamePath (e e' : DocumentEntry) : Prop := e'.path = e.path

theorem samePath_progress : Action.Progress SamePath :=
  ⟨fun _ => rfl, fun h h' => Eq.trans h' h⟩

/-- No step gives the entry another path. -/
abbrev KeepsPath (p : EntryM α) : Prop := p.Each SamePath

theorem keepsPath_read (f : DocumentEntry → Except Failure α) : KeepsPath (Program.read f) :=
  each_read samePath_progress.refl f

theorem keepsPath_onDocument (m : DocM α) : KeepsPath (onDocument m) := each_act fun _ => rfl

section Operations

variable (env : Env) (documentPath : Bytes)

theorem keepsPath_notifyInvalidate (x : Nat) (reason : ProjectionEventReason) :
    KeepsPath (notifyInvalidate env x reason) := keepsPath_read _

theorem keepsPath_withStableNode (x : Nat) (check : Node → Except Failure Unit) {body : EntryM α}
    (hbody : KeepsPath body) : KeepsPath (withStableNode x check body) := by
  refine (each_acquire _).bind fun _ => ?_
  refine ((keepsPath_read _).onError (each_release _)).bind fun _ => ?_
  refine (each_acquire _).bind fun _ => (each_release _).bind fun _ => ?_
  exact hbody.ensure (each_release _)

theorem keepsPath_replaceContent (x : Nat) (content : Bytes) :
    KeepsPath (replaceNodeContentWithAccounting x content) :=
  keepsPath_withStableNode x _ (keepsPath_onDocument _)

theorem keepsPath_setNodeContentFromSource (x : Nat) (content : Bytes) :
    KeepsPath (setNodeContentFromSource env x content) := by
  refine (keepsPath_replaceContent x content).bind fun changed => ?_
  cases changed with
  | true => exact keepsPath_read _
  | false => exact each_ret _

theorem keepsPath_appendTextChunk (x : Nat) (chunk : Bytes) :
    KeepsPath (appendTextChunk env x chunk) :=
  (keepsPath_withStableNode x _ (keepsPath_onDocument _)).bind fun _ => keepsPath_read _

theorem keepsPath_pushSyntheticTtyChunk (x : Nat) (chunk : Bytes) :
    KeepsPath (pushSyntheticTtyChunk env x chunk) := by
  apply keepsPath_withStableNode
  exact (keepsPath_onDocument _).bind fun _ => (keepsPath_read _).bind fun _ => keepsPath_read _

theorem keepsPath_updateNode (x : Nat) (title content : Option Bytes) :
    KeepsPath (updateNode env x title content) := by
  cases title with
  | none =>
      cases content with
      | none => exact keepsPath_read _
      | some content => exact (keepsPath_replaceContent x content).bind fun _ => keepsPath_read _
  | some title =>
      refine (keepsPath_onDocument _).bind fun _ => ?_
      cases content with
      | none => exact keepsPath_read _
      | some content => exact (keepsPath_replaceContent x content).bind fun _ => keepsPath_read _

theorem keepsPath_whenLocked (enabled : Bool) (m : Mutex) {body : EntryM α}
    (hbody : KeepsPath body) : KeepsPath (whenLocked enabled m body) := by
  cases enabled with
  | true => exact hbody.withMutex m
  | false => exact hbody

theorem path_commitAppend (p : Nat) (kind : NodeKind) (title : Bytes) (source : Source)
    (e : DocumentEntry) : (commitAppend p kind title source e).2.path = e.path := by
  rw [commitAppend, Action.bind_apply, DocumentEntry.onDocument]
  cases (Document.appendNode p kind title source e.document).1 with
  | ok x => rfl
  | error failure => rfl

theorem keepsPath_appendNodeWithRuntime (p : Nat) (kind : NodeKind) (title : Bytes)
    (source : Source) : KeepsPath (appendNodeWithRuntime documentPath p kind title source) := by
  have hcommit : ∀ needsParentLock, KeepsPath (whenLocked needsParentLock (.parent p)
      (withMutex .nodeRegistry (act (commitAppend p kind title source)))) := fun _ =>
    keepsPath_whenLocked _ _ ((each_act (path_commitAppend p kind title source)).withMutex _)
  refine keepsPath_whenLocked _ _ ?_
  cases documentUsesGlobalStructuralFallback documentPath with
  | true => exact Program.Each.bind (each_ret _) hcommit
  | false => exact ((keepsPath_read _).withMutex _).bind hcommit

theorem keepsPath_appendNode (p : Nat) (kind : NodeKind) (title : Bytes) :
    KeepsPath (appendNode env documentPath p kind title) :=
  (keepsPath_appendNodeWithRuntime documentPath p kind title .none).bind fun _ =>
    (keepsPath_read _).bind fun _ => each_ret _

theorem path_commitRemoval (p x : Nat) (postorder : List Nat) (totalContentBytes : Nat)
    (e : DocumentEntry) : (commitRemoval p x postorder totalContentBytes e).2.path = e.path := by
  rw [commitRemoval, Action.bind_apply, DocumentEntry.onDocument]
  rcases Document.detachChildFromParent p x e.document with ⟨_ | _, d⟩
  · rfl
  · rw [Action.next_ok, Action.bind_apply, DocumentEntry.onDocument]
    rcases Document.removeDetachedPostorder postorder totalContentBytes d with ⟨_ | _, d'⟩
    · rfl
    · rfl

theorem keepsPath_removeNode (x : Nat) : KeepsPath (removeNode env documentPath x) := by
  refine Program.Each.bind ?_ fun _ => keepsPath_read _
  refine keepsPath_whenLocked _ _ ?_
  refine ((keepsPath_read _).withMutex _).bind fun resolved => ?_
  refine keepsPath_whenLocked _ _ (Program.Each.withMutex ?_ _)
  refine (each_actTag (fun _ => samePath_progress.refl _) _).bind fun measured => ?_
  exact (each_actTag (path_commitRemoval _ _ _ _) _).withMutex _

theorem keepsPath_refreshSourcesForDocument (visit : Nat) :
    KeepsPath (refreshSourcesForDocument env visit) := by
  refine (keepsPath_read _).bind fun nodeIds => Program.Each.forEach fun x _ => ?_
  refine (keepsPath_read _).bind fun node => ?_
  cases node.bind fun node => refreshedContent env visit x node.source with
  | none => exact each_ret _
  | some content => exact keepsPath_setNodeContentFromSource env x content

theorem keepsPath_attachLeaf (kind : NodeKind) (title : Bytes) (source : Source) :
    KeepsPath (attachLeaf env documentPath kind title source) :=
  (keepsPath_read _).bind fun root =>
    (keepsPath_appendNodeWithRuntime documentPath root kind title source).bind fun _ =>
      (keepsPath_refreshSourcesForDocument env 0).bind fun _ =>
        (keepsPath_read _).bind fun _ => each_ret _

theorem keepsPath_attachSyntheticTty (p : Nat) (title sessionName : Bytes) :
    KeepsPath (attachSyntheticTty env documentPath p title sessionName) :=
  (keepsPath_appendNodeWithRuntime documentPath p .ttyLeaf title _).bind fun _ =>
    (keepsPath_read _).bind fun _ => each_ret _

theorem keepsPath_setFileFollowTail (x : Nat) (enabled : Bool) :
    KeepsPath (setFileFollowTail env x enabled) :=
  (keepsPath_onDocument _).bind fun _ => keepsPath_read _

theorem keepsPath_freezeTerminalNode (x : Nat) (artifactKind : TerminalArtifactKind) :
    KeepsPath (freezeTerminalNode env x artifactKind) := by
  refine Program.Each.bind ?_ fun _ => (keepsPath_onDocument _).bind fun _ => keepsPath_read _
  exact (keepsPath_read _).bind fun captured =>
    (keepsPath_replaceContent x captured.1).bind fun _ => each_ret _

end Operations

/-- Without its mutexes, code on an entry keeps the document invariant; and none of its steps gives
the entry another path. -/
structure Upkeeps (p : EntryM α) : Prop where
  sane : ∀ e, Sane e → Sane (p.unlocked e).2
  path : KeepsPath p

/-! ## Rules -/

theorem upkeeps_ret (r : Except Failure α) : Upkeeps (.ret r) := ⟨fun _ he => he, each_ret r⟩

theorem upkeeps_read (f : DocumentEntry → Except Failure α) : Upkeeps (Program.read f) :=
  ⟨fun _ he => he, keepsPath_read f⟩

theorem Upkeeps.bindResult {p : EntryM α} (hp : Upkeeps p) {k : Except Failure α → EntryM β}
    (hk : ∀ r, Upkeeps (k r)) : Upkeeps (Program.bindResult p k) := by
  refine ⟨fun e he => ?_, hp.path.bindResult fun r => (hk r).path⟩
  rw [unlocked_bindResult]
  exact (hk _).sane _ (hp.sane e he)

theorem Upkeeps.bind {p : EntryM α} (hp : Upkeeps p) {k : α → EntryM β}
    (hk : ∀ a, Upkeeps (k a)) : Upkeeps (p >>= k) := by
  refine hp.bindResult fun r => ?_
  cases r with
  | ok a => exact hk a
  | error failure => exact upkeeps_ret _

theorem Upkeeps.ensure {p : EntryM α} (hp : Upkeeps p) {cleanup : EntryM Unit}
    (hcleanup : Upkeeps cleanup) : Upkeeps (Program.ensure p cleanup) :=
  hp.bindResult fun _ => hcleanup.bindResult fun _ => upkeeps_ret _

theorem Upkeeps.forEach {xs : List β} {body : β → EntryM Unit} (h : ∀ x ∈ xs, Upkeeps (body x)) :
    Upkeeps (Program.forEach xs body) := by
  induction xs with
  | nil => exact upkeeps_ret _
  | cons x rest ih =>
      exact (h x (List.mem_cons_self ..)).bind fun _ =>
        ih fun y hy => h y (List.mem_cons_of_mem _ hy)

/-- A step that leaves the document and the path alone. -/
theorem upkeeps_runtime {f : EntryAction α}
    (h : ∀ e, (f e).2.document = e.document ∧ (f e).2.path = e.path)
    (tag : DocumentEntry → GuardPhase → GuardPhase) : Upkeeps (actTag f tag) := by
  refine ⟨fun e he => ?_, each_actTag (fun e => (h e).2) tag⟩
  have hdoc : ((actTag f tag : EntryM α).unlocked e).2.document = e.document := (h e).1
  constructor
  · rw [hdoc]
    exact he.valid
  · rw [hdoc]
    exact he.tidy

theorem upkeeps_look (f : DocumentEntry → Except Failure α)
    (tag : DocumentEntry → GuardPhase → GuardPhase) :
    Upkeeps (actTag (fun e => (f e, e)) tag) := upkeeps_runtime (fun _ => ⟨rfl, rfl⟩) tag

/-! ## Guards -/

section Guards

variable (request : RequestEnvelope)

theorem upkeeps_acquire (m : Mutex) : Upkeeps (acquire m) :=
  ⟨fun _ he => he, each_acquire m⟩

theorem upkeeps_release (m : Mutex) : Upkeeps (Program.release m) :=
  ⟨fun _ he => he, each_release m⟩

theorem upkeeps_mark (tag : DocumentEntry → GuardPhase → GuardPhase) : Upkeeps (mark tag) :=
  upkeeps_look (fun _ => .ok ()) tag

theorem upkeeps_lockExistingDomainIds (domainIds : List Nat) :
    Upkeeps (lockExistingDomainIds domainIds) := by
  refine Upkeeps.forEach fun domainId _ => (upkeeps_read _).bind fun present => ?_
  cases present with
  | true => exact upkeeps_acquire _
  | false => exact upkeeps_ret _

theorem upkeeps_unlockExistingDomainIds (domainIds : List Nat) :
    Upkeeps (unlockExistingDomainIds domainIds) := by
  refine Upkeeps.forEach fun domainId _ => (upkeeps_read _).bind fun present => ?_
  cases present with
  | true => exact upkeeps_release _
  | false => exact upkeeps_ret _

theorem path_ensureDomainLock (e : DocumentEntry) (domainId : Nat) :
    (e.ensureDomainLock domainId).path = e.path := by
  unfold DocumentEntry.ensureDomainLock
  split
  · rfl
  · rfl

theorem path_ensureDomainLocks (domainIds : List Nat) (e : DocumentEntry) :
    (e.ensureDomainLocks domainIds).path = e.path := by
  induction domainIds generalizing e with
  | nil => rfl
  | cons domainId rest ih => exact (ih _).trans (path_ensureDomainLock e domainId)

theorem upkeeps_ensureDomainLock (domainId : Nat) :
    Upkeeps (act fun e => (.ok (), e.ensureDomainLock domainId)) :=
  upkeeps_runtime (fun e => ⟨document_ensureDomainLock e domainId, path_ensureDomainLock e domainId⟩) _

theorem upkeeps_ensureAndLockDomainIds (domainIds : List Nat) :
    Upkeeps (ensureAndLockDomainIds domainIds) :=
  Upkeeps.forEach fun domainId _ => (upkeeps_ensureDomainLock domainId).bind fun _ =>
    upkeeps_acquire _

theorem upkeeps_acquireCoordinatorExclusive : Upkeeps acquireCoordinatorExclusive :=
  (upkeeps_acquire _).bind fun _ => (upkeeps_look (fun e => .ok e.snapshotDomainIds) _).bind fun _ =>
    (upkeeps_lockExistingDomainIds _).bind fun _ => (upkeeps_mark _).bind fun _ => upkeeps_ret _

theorem upkeeps_acquireQuiescentRead : Upkeeps acquireQuiescentRead :=
  (upkeeps_acquire _).bind fun _ => (upkeeps_look (fun e => .ok e.snapshotDomainIds) _).bind fun _ =>
    (upkeeps_lockExistingDomainIds _).bind fun _ => (upkeeps_mark _).bind fun _ =>
      (upkeeps_release _).bind fun _ => upkeeps_ret _

/-- Planning makes domain locks and leaves the document alone. -/
theorem upkeeps_planGuard (tag : DocumentEntry → GuardPhase → GuardPhase) :
    Upkeeps (actTag (planGuard request) tag) := by
  refine upkeeps_runtime (fun e => ?_) tag
  rcases planGuard_cases request e with ⟨r, hplan, -⟩ | ⟨plan, domainIds, hplan⟩
  · rw [hplan]
    exact ⟨rfl, rfl⟩
  · rw [hplan.run]
    exact ⟨(ensureDomainLocks_spec domainIds e).1, path_ensureDomainLocks domainIds e⟩

theorem upkeeps_planDynamicGuardAcquisition : Upkeeps (planDynamicGuardAcquisition request) := by
  refine (upkeeps_acquire _).bind fun _ => ?_
  refine Upkeeps.bindResult ?_ fun r => ?_
  · refine (upkeeps_acquire _).bind fun _ => Upkeeps.ensure ?_ (upkeeps_release _)
    exact (upkeeps_planGuard request _).bind fun _ => (upkeeps_release _).bind fun _ => upkeeps_ret _
  · cases r with
    | ok plan => exact upkeeps_ret _
    | error failure => exact (upkeeps_release _).bindResult fun _ => upkeeps_ret _

theorem upkeeps_lockRuntime (plan : DynamicGuardPlan) : Upkeeps plan.lockRuntime := by
  cases plan with
  | none => exact upkeeps_ret _
  | domainWrite revision d => exact upkeeps_acquire _
  | structuralWrite revision d p => exact (upkeeps_acquire _).bind fun _ => upkeeps_acquire _
  | participatingDomainWrite revision ds => exact upkeeps_ensureAndLockDomainIds ds

theorem upkeeps_unlockRuntime (plan : DynamicGuardPlan) : Upkeeps plan.unlockRuntime := by
  cases plan with
  | none => exact upkeeps_ret _
  | domainWrite revision d => exact upkeeps_release _
  | structuralWrite revision d p => exact (upkeeps_release _).bind fun _ => upkeeps_release _
  | participatingDomainWrite revision ds => exact upkeeps_unlockExistingDomainIds ds

theorem upkeeps_acquireDynamicGuard (attempts : Nat) :
    Upkeeps (acquireDynamicGuard request attempts) := by
  induction attempts with
  | zero => exact upkeeps_acquireCoordinatorExclusive
  | succ attempts ih =>
      refine (upkeeps_planDynamicGuardAcquisition request).bind fun plan => ?_
      split
      · exact upkeeps_acquireCoordinatorExclusive
      · refine (upkeeps_lockRuntime plan).bind fun _ => ?_
        refine (upkeeps_look _ _).bind fun matched => ?_
        split
        · exact upkeeps_ret _
        · exact (upkeeps_unlockRuntime plan).bind fun _ => ih

theorem upkeeps_acquireRequestGuardForEntry : Upkeeps (acquireRequestGuardForEntry request) := by
  unfold acquireRequestGuardForEntry
  split
  · exact upkeeps_acquireDynamicGuard request _
  · split
    · exact upkeeps_acquireQuiescentRead
    · exact upkeeps_acquireCoordinatorExclusive

theorem upkeeps_guardRelease (guard : RequestGuard) : Upkeeps guard.release := by
  refine (upkeeps_mark _).bind fun _ => ?_
  cases guard with
  | none => exact upkeeps_ret _
  | coordinatorExclusive ds =>
      exact (upkeeps_unlockExistingDomainIds ds).bind fun _ => upkeeps_release _
  | quiescentRead ds => exact upkeeps_unlockExistingDomainIds ds
  | participatingDomainWrite ds => exact upkeeps_unlockExistingDomainIds ds
  | domainWrite d => exact upkeeps_release _
  | structuralWrite d p => exact (upkeeps_release _).bind fun _ => upkeeps_release _

theorem Upkeeps.underGuard {acquireGuard : EntryM RequestGuard} (hacquire : Upkeeps acquireGuard)
    {body : EntryM α} (hbody : Upkeeps body) : Upkeeps (Daemon.underGuard acquireGuard body) := by
  refine hacquire.bindResult fun r => ?_
  cases r with
  | ok guard => exact hbody.ensure (upkeeps_guardRelease guard)
  | error failure => exact upkeeps_ret _

end Guards

/-! ## Code that takes what it needs and gives it back -/

/-- Started with no mutex on an entry with its invariant, the code stops with none and leaves the
invariant. -/
structure Steady (p : EntryM α) : Prop where
  executes : Executes [] Sane p fun _ => Sane
  path : KeepsPath p

theorem steady_ret (r : Except Failure α) : Steady (.ret r) :=
  ⟨executes_ret fun _ he => he, each_ret r⟩

/-- What it does without its mutexes is all that it does. -/
theorem Steady.upkeeps {p : EntryM α} (h : Steady p) : Upkeeps p :=
  ⟨fun _ he => (h.executes.unlocked he).2, h.path⟩

theorem steady_look (f : DocumentEntry → Except Failure α)
    (tag : DocumentEntry → GuardPhase → GuardPhase) : Steady (actTag (fun e => (f e, e)) tag) :=
  ⟨fun e he => ⟨f e, e, rfl, he⟩, each_actTag samePath_progress.refl tag⟩

theorem steady_read (f : DocumentEntry → Except Failure α) : Steady (Program.read f) :=
  steady_look f _

theorem Steady.bindResult {p : EntryM α} (hp : Steady p) {k : Except Failure α → EntryM β}
    (hk : ∀ r, Steady (k r)) : Steady (Program.bindResult p k) :=
  ⟨hp.executes.bindResult fun r => (hk r).executes, hp.path.bindResult fun r => (hk r).path⟩

theorem Steady.bind {p : EntryM α} (hp : Steady p) {k : α → EntryM β} (hk : ∀ a, Steady (k a)) :
    Steady (p >>= k) :=
  ⟨hp.executes.bind (fun a => (hk a).executes) fun _ _ he => he, hp.path.bind fun a => (hk a).path⟩

/-- An operation of the store, by what it does without its mutexes. -/
theorem steady_of_alone {p : EntryM α} {f : EntryAction α} (h : Alone [] p f)
    (hf : SoundEntry f) (hpath : KeepsPath p) : Steady p :=
  ⟨h.executes fun e he => (hf e he).1, hpath⟩

/-! ## Responses -/

theorem steady_orError {op : EntryM α} (h : Steady op) (code : RpcErrorCode) (text : String)
    (result : α → Payload) : Steady (orError code text op result) := by
  refine h.bindResult fun r => ?_
  split
  · exact steady_ret _
  · exact steady_ret _
  · exact steady_ret _

theorem steady_orFixedError {op : EntryM α} (h : Steady op) (code : RpcErrorCode)
    (text : String) (result : α → Payload) : Steady (orFixedError code text op result) := by
  refine h.bindResult fun r => ?_
  split
  · exact steady_ret _
  · exact steady_ret _
  · exact steady_ret _

theorem steady_required {value : Option α} {message : String} {k : α → EntryM Body}
    (hk : ∀ a, Steady (k a)) : Steady (required value message k) := by
  cases value with
  | none => exact steady_ret _
  | some a => exact hk a

theorem steady_sleepFor {ms : Int} {message : String} {k : EntryM Body} (hk : Steady k) :
    Steady (sleepFor ms message k) := by
  unfold sleepFor
  split
  · exact steady_ret _
  · split
    · exact hk
    · exact steady_ret _

theorem steady_pauseThen {request : RequestEnvelope} {k : EntryM Body} (hk : Steady k) :
    Steady (pauseThen request k) := by
  unfold pauseThen
  split
  · exact steady_sleepFor hk
  · exact hk

theorem steady_withNodeTarget {request : RequestEnvelope} {k : Int → EntryM Body}
    (hk : ∀ nodeId, Steady (k nodeId)) : Steady (withNodeTarget request k) := by
  refine (steady_look _ _).bindResult fun r => ?_
  split
  · exact hk _
  · split
    · exact steady_ret _
    · exact steady_ret _
  · exact steady_ret _

/-- `@intCast` of a number, then the rest. -/
theorem steady_intCast {value : Int} {k : Nat → EntryM Body} (hk : ∀ x, Steady (k x)) :
    Steady (match intCast u64Limit value with
      | .ok x => k x
      | .error failure => .ret (.error failure)) := by
  cases intCast u64Limit value with
  | ok x => exact hk x
  | error failure => exact steady_ret _

theorem steady_withNodeId {request : RequestEnvelope} {k : Nat → EntryM Body}
    (hk : ∀ nodeId, Steady (k nodeId)) : Steady (withNodeId request k) :=
  steady_withNodeTarget fun _ => steady_intCast hk

/-! ## Handlers -/

theorem steady_onDocument {m : DocM α} (hm : Settled m) : Steady (onDocument m) :=
  steady_of_alone (alone_onDocument m) (soundEntry_onDocument hm) (keepsPath_onDocument m)

section Handlers

variable (env : Env) (documentPath : Bytes) (request : RequestEnvelope)

theorem steady_refreshSourcesForDocument (visit : Nat) :
    Steady (refreshSourcesForDocument env visit) :=
  steady_of_alone (alone_refreshSourcesForDocument handlerFree_nil env visit)
    (Sequential.sound_refreshSourcesForDocument env visit)
    (keepsPath_refreshSourcesForDocument env visit)

theorem steady_appendNode (p : Nat) (kind : NodeKind) (title : Bytes) :
    Steady (appendNode env documentPath p kind title) :=
  steady_of_alone (alone_appendNode handlerFree_nil env documentPath p kind title)
    (Sequential.sound_appendNode env documentPath p kind title)
    (keepsPath_appendNode env documentPath p kind title)

theorem steady_removeNode (x : Nat) : Steady (removeNode env documentPath x) :=
  steady_of_alone (alone_removeNode handlerFree_nil env documentPath x)
    (Sequential.sound_removeNode env x)
    (keepsPath_removeNode env documentPath x)

theorem steady_attachLeaf (kind : NodeKind) (title : Bytes) (source : Source) :
    Steady (attachLeaf env documentPath kind title source) :=
  steady_of_alone (alone_attachLeaf handlerFree_nil env documentPath kind title source)
    (Sequential.sound_attachLeaf env documentPath kind title source)
    (keepsPath_attachLeaf env documentPath kind title source)

theorem steady_captureFileNode (x : Nat) : Steady (captureFileNode env x) :=
  (steady_refreshSourcesForDocument env 0).bind fun _ => steady_read _

theorem steady_handleAppend {pause : EntryM Body → EntryM Body}
    (hpause : ∀ k, Steady k → Steady (pause k)) :
    Steady (handleAppend env documentPath request pause) :=
  steady_required fun _ => steady_required fun _ => steady_required fun _ =>
    steady_required fun _ => hpause _ <| steady_intCast fun _ =>
      steady_orError (steady_appendNode env documentPath _ _ _) _ _ _

theorem steady_removal (x : Nat) : Steady (orError .invalidParams "unable to remove node: "
    (removeNode env documentPath x) fun _ => .ok) :=
  steady_orError (steady_removeNode env documentPath x) _ _ _

theorem steady_handleProjectionGet (visit : Nat) :
    Steady (handleProjectionGet env request visit) := by
  refine (steady_refreshSourcesForDocument env visit).bind fun _ => ?_
  cases parseProjectionRequest request.params with
  | error failure =>
      cases failure with
      | error e => exact steady_ret _
      | panic p => exact steady_ret _
      | outOfFuel => exact steady_ret _
  | ok projectionRequest =>
      refine (steady_read _).bindResult fun r => ?_
      split
      · split
        · exact steady_ret _
        · exact steady_ret _
      · exact steady_ret _
      · exact (steady_read _).bind fun _ => steady_ret _

theorem steady_withKnownNode (k : Node → Payload) : Steady (withKnownNode request k) := by
  refine steady_withNodeId fun nodeId => (steady_read _).bind fun node => ?_
  cases node with
  | none => exact steady_ret _
  | some node => exact steady_ret _

theorem steady_handleNodeFreeze : Steady (handleNodeFreeze env request) := by
  refine steady_withNodeTarget fun nodeId => steady_required fun _ => steady_required fun kind => ?_
  cases intCast u64Limit nodeId with
  | error failure => exact steady_ret _
  | ok x =>
      have hfreeze : Steady (freezeTerminalNode env x kind) :=
        steady_of_alone (alone_freezeTerminalNode handlerFree_nil env x kind)
          (Sequential.sound_freezeTerminalNode env x kind) (keepsPath_freezeTerminalNode env x kind)
      refine hfreeze.bindResult fun r => ?_
      cases r with
      | ok _ => exact (steady_read _).bind fun _ => steady_ret _
      | error failure =>
          cases failure with
          | error e => exact steady_ret _
          | panic p => exact steady_ret _
          | outOfFuel => exact steady_ret _

theorem steady_handleLeafSourceAttach :
    Steady (handleLeafSourceAttach env documentPath request) := by
  refine steady_required fun kind => ?_
  split
  · exact steady_required fun path =>
      steady_orError (steady_attachLeaf env documentPath _ path _) _ _ _
  · split
    · exact steady_required fun sessionName =>
        steady_orError (steady_attachLeaf env documentPath _ sessionName _) _ _ _
    · exact steady_ret _

theorem steady_handleViewNode {op : Nat → DocM Unit} (hop : ∀ x, Settled (op x)) :
    Steady (handleViewNode request op) :=
  steady_withNodeId fun x => steady_orFixedError (steady_onDocument (hop x)) _ _ _

theorem steady_handleView {op : DocM Unit} (hop : Settled op) : Steady (handleView op) :=
  (steady_onDocument hop).bind fun _ => steady_ret _

theorem steady_handleDebugRequest {handler : EntryM Body}
    (h : handleDebugRequest env documentPath request = some handler) : Steady handler := by
  unfold handleDebugRequest at h
  split at h
  · cases h
  cases hm : request.method <;> rw [hm] at h <;> simp only [reduceCtorEq, Option.some.injEq] at h
  case debugSleep =>
    exact h ▸ steady_required fun _ => steady_sleepFor (steady_ret _)
  case debugDocumentValidate => exact h ▸ steady_orError (steady_read _) _ _ _
  case debugTextAppend =>
    exact h ▸ steady_withNodeTarget fun _ => steady_required fun chunk =>
      steady_pauseThen (steady_intCast fun x => steady_orError (steady_of_alone
        (alone_appendTextChunk handlerFree_nil env x chunk)
        (Sequential.sound_appendTextChunk env x chunk) (keepsPath_appendTextChunk env x chunk)) _ _ _)
  case debugTtyAttach =>
    subst h
    refine steady_required fun parentId => ?_
    split
    · exact steady_ret _
    · exact steady_intCast fun p => steady_orError (steady_of_alone
        (alone_attachSyntheticTty handlerFree_nil env documentPath p _ _)
        (Sequential.sound_attachSyntheticTty env documentPath p _ _)
        (keepsPath_attachSyntheticTty env documentPath p _ _)) _ _ _
  case debugTtyPush =>
    exact h ▸ steady_withNodeTarget fun _ => steady_required fun chunk =>
      steady_pauseThen (steady_intCast fun x => steady_orError (steady_of_alone
        (alone_pushSyntheticTtyChunk handlerFree_nil env x chunk)
        (Sequential.sound_pushSyntheticTtyChunk env x chunk)
        (keepsPath_pushSyntheticTtyChunk env x chunk)) _ _ _)
  case debugNodeAppend =>
    exact h ▸ steady_handleAppend env documentPath request fun _ hk => steady_pauseThen hk
  case debugNodeRemove =>
    exact h ▸ steady_withNodeTarget fun _ => steady_pauseThen
      (steady_intCast fun x => steady_removal env documentPath x)

theorem steady_handleDocumentRequest {handler : EntryM Body}
    (h : handleDocumentRequest env documentPath request = some handler) : Steady handler := by
  have hget : ∀ visit, Steady (handleDocumentGet env visit) := fun visit =>
    (steady_refreshSourcesForDocument env visit).bind fun _ =>
      (steady_read _).bind fun _ => steady_ret _
  unfold handleDocumentRequest at h
  cases hm : request.method <;> rw [hm] at h <;> simp only [reduceCtorEq, Option.some.injEq] at h
  case documentGet => exact h ▸ hget 0
  case graphGet => exact h ▸ hget 0
  case viewGet => exact h ▸ hget 0
  case projectionGet => exact h ▸ steady_handleProjectionGet env request 0
  case documentStatus => exact h ▸ (steady_read _).bind fun _ => steady_ret _
  case nodeGet => exact h ▸ steady_withKnownNode request _
  case documentSerialize =>
    exact h ▸ (steady_refreshSourcesForDocument env 0).bind fun _ =>
      (steady_read _).bind fun _ => steady_ret _
  case documentFreeze =>
    exact h ▸ (steady_onDocument freeze_settled).bind fun _ => steady_ret _
  case nodeAppend => exact h ▸ steady_handleAppend env documentPath request fun _ hk => hk
  case nodeUpdate =>
    exact h ▸ steady_withNodeId fun x => steady_orError (steady_of_alone
      (alone_updateNode handlerFree_nil env x _ _) (Sequential.sound_updateNode env x _ _)
      (keepsPath_updateNode env x _ _)) _ _ _
  case nodeFreeze => exact h ▸ steady_handleNodeFreeze env request
  case nodeRemove => exact h ▸ steady_withNodeId fun x => steady_removal env documentPath x
  case viewSetRoot => exact h ▸ steady_handleViewNode request setViewRoot_settled
  case viewClearRoot => exact h ▸ steady_handleView clearViewRoot_settled
  case viewElide => exact h ▸ steady_handleViewNode request toggleElided_settled
  case viewExpand => exact h ▸ steady_handleViewNode request fun x => setElided_settled x false
  case leafSourceAttach => exact h ▸ steady_handleLeafSourceAttach env documentPath request
  case leafSourceGet => exact h ▸ steady_withKnownNode request _
  case fileCapture =>
    exact h ▸ steady_withNodeId fun x => steady_orError (steady_captureFileNode env x) _ _ _
  case fileFollowTail =>
    exact h ▸ steady_withNodeTarget fun _ => steady_required fun enabled =>
      steady_intCast fun x => steady_orError (steady_of_alone
        (alone_setFileFollowTail env x enabled)
        (Sequential.sound_setFileFollowTail env x enabled)
        (keepsPath_setFileFollowTail env x enabled)) _ _ _
  case viewReset => exact h ▸ steady_handleView resetView_settled

theorem upkeeps_handleOnDocument : Upkeeps (handleOnDocument env documentPath request) := by
  unfold handleOnDocument
  split
  · exact upkeeps_ret _
  · split
    · exact upkeeps_acquireQuiescentRead.underGuard (upkeeps_read _)
    · cases hdebug : handleDebugRequest env documentPath request with
      | some handler => exact (steady_handleDebugRequest env documentPath request hdebug).upkeeps
      | none =>
          cases hdocument : handleDocumentRequest env documentPath request with
          | some handler => exact (steady_handleDocumentRequest env documentPath request hdocument).upkeeps
          | none => exact upkeeps_ret _

end Handlers

/-! ## Alone on the document -/

/-- With every thread idle the protocol asks nothing of an entry but the shape of its document. -/
theorem invariant_idle {e : DocumentEntry} (he : Sane e) :
    Invariant .ascending { shared := e, tag := fun _ => .idle } where
  separated h := h.elim
  shape _ := he.valid.shape
  linked h := h.elim
  agree _ _ _ _ _ h := by cases h

theorem published_none {e : DocumentEntry} : Published .ascending ∅ e .idle :=
  published_idle fun _ h => absurd h (Set.notMem_empty _)

theorem lockOk_ascending (H : Set Mutex) (m : Mutex) (h : (discipline .ascending).lockOk H m) :
    m ∉ H := fun hmem =>
  lt_irrefl m ((show Regime.ascending.ordered → ∀ m' ∈ H, m' < m from h) trivial m hmem)

theorem cond_ascending (v v' : State) : (discipline .ascending).cond 0 v v' :=
  ⟨False.elim, False.elim⟩

section Solo

variable {e : DocumentEntry} (he : Sane e)
include he

/-- Code that follows the protocol of ascending mutexes ends. -/
theorem solo_of_keeps {p : EntryM α}
    (h : (discipline .ascending).Keeps 0 ∅ (Tagged 0 .idle) p) :
    ∃ r e', solo p [] e = (.done r, [], e') := by
  obtain ⟨r, v', hsolo, -, -⟩ := h.solo (v := { shared := e, tag := fun _ => .idle })
    cond_ascending lockOk_ascending (invariant_idle he) rfl published_none fun _ _ => published_none
  exact ⟨r, v'.shared, hsolo⟩

/-- A guard is acquired or not; what is then held is what it consists of, and can be released. -/
theorem solo_acquire {P : RequestGuard → Document → Option WriteTarget → Prop}
    {acquireGuard : EntryM RequestGuard} (h : (discipline .ascending).wp 0 acquireGuard
      (Acquired .ascending 0 P) ∅ (Tagged 0 .idle)) :
    (∃ failure e₁, solo acquireGuard [] e = (.done (.error failure), [], e₁)) ∨
      ∃ guard topology target held e₁, P guard topology target ∧
        solo acquireGuard [] e = (.done (.ok guard), held, e₁) ∧
        (∀ m, m ∈ held ↔ m ∈ guard.mutexes) ∧
        ∃ r e₂, solo guard.release held e₁ = (.done r, [], e₂) := by
  obtain ⟨r, held, v', H, B, hsolo, hacquired, -, -, hheld⟩ :=
    Discipline.wp_solo cond_ascending lockOk_ascending acquireGuard h
      (v := { shared := e, tag := fun _ => .idle }) (invariant_idle he) rfl published_none
      (fun _ _ => published_none) List.nodup_nil fun m =>
        ⟨fun hm => absurd hm List.not_mem_nil, fun hm => absurd hm (Set.notMem_empty m)⟩
  have hend := solo_of_keeps he (keeps_underGuard h fun _ _ _ _ =>
    leads_ret under_of_fresh (.ok () : Except Failure Unit))
  obtain ⟨r', e', hend⟩ := hend
  unfold underGuard at hend
  rw [solo_bindResult, hsolo] at hend
  cases r with
  | error failure =>
      refine .inl ⟨failure, v'.shared, ?_⟩
      obtain ⟨-, rfl, rfl⟩ : _ = _ ∧ held = [] ∧ v'.shared = e' := by
        simpa [soloNext, solo] using hend
      exact hsolo
  | ok guard =>
      obtain ⟨topology, target, hP, -, rfl, -⟩ := hacquired
      refine .inr ⟨guard, topology, target, held, v'.shared, hP, hsolo, hheld, ?_⟩
      have hrelease : solo (bindResult guard.release fun _ => (.ret (.ok ()) : EntryM Unit)) held
          v'.shared = (.done r', [], e') := hend
      rw [solo_bindResult] at hrelease
      rcases hcase : solo guard.release held v'.shared with ⟨stop, held', e₂⟩
      rw [hcase] at hrelease
      cases stop with
      | selfLock m => simp [soloNext] at hrelease
      | done r₂ =>
          obtain ⟨-, rfl, -⟩ : _ = _ ∧ held' = [] ∧ e₂ = e' := by
            simpa [soloNext, solo] using hrelease
          exact ⟨r₂, e₂, rfl⟩

end Solo

theorem steady_of_keeps {p : EntryM α} (h : (discipline .ascending).Keeps 0 ∅ (Tagged 0 .idle) p)
    (hp : Upkeeps p) : Steady p := by
  refine ⟨fun e he => ?_, hp.path⟩
  obtain ⟨r, e', hsolo⟩ := solo_of_keeps he h
  refine ⟨r, e', hsolo, ?_⟩
  have hsane := hp.sane e he
  rw [unlocked_of_solo hsolo] at hsane
  exact hsane

theorem steady_observe (look : DocumentEntry → Except Failure α) :
    Steady (underGuard acquireQuiescentRead (Program.read look)) :=
  steady_of_keeps (keeps_observe look) (upkeeps_acquireQuiescentRead.underGuard (upkeeps_read look))

theorem steady_refreshDocument (env : Env) (visit : Nat) :
    Steady (underGuard acquireCoordinatorExclusive (refreshSourcesForDocument env visit)) :=
  steady_of_keeps (keeps_refreshDocument env visit) (upkeeps_acquireCoordinatorExclusive.underGuard
    (steady_refreshSourcesForDocument env visit).upkeeps)

theorem upkeeps_executeRequest (env : Env) {documentPath : Bytes}
    (hpath : documentPath ≠ rootDocumentPath) (request : RequestEnvelope) :
    Upkeeps (executeRequest env documentPath request) := by
  unfold executeRequest acquireRequestGuard
  rw [if_neg hpath]
  exact (upkeeps_acquireRequestGuardForEntry request).underGuard
    (upkeeps_handleOnDocument env documentPath request)

/-- A request on a document that is not the root document ends, unless it lists the documents. -/
theorem steady_executeRequest (env : Env) {documentPath : Bytes}
    (hpath : documentPath ≠ rootDocumentPath) {request : RequestEnvelope}
    (hlist : request.method ≠ .documentList) :
    Steady (executeRequest env documentPath request) :=
  steady_of_keeps (keeps_executeRequest env (fun _ => hpath) fun _ => hlist)
    (upkeeps_executeRequest env hpath request)

/-! ## Guards that are always granted -/

/-- Locking domains leaves the entry alone and does not fail. -/
theorem unlocked_lockExistingDomainIds (domainIds : List Nat) (e : DocumentEntry) :
    (lockExistingDomainIds domainIds).unlocked e = (.ok (), e) := by
  induction domainIds with
  | nil => rfl
  | cons domainId rest ih =>
      have hone : (do
          let present ← Program.read fun e : DocumentEntry =>
            .ok (decide (domainId ∈ e.runtime.domainIds))
          if present then acquire (.domain domainId) : EntryM Unit).unlocked e = (.ok (), e) := by
        rw [unlocked_bind, Action.bind_apply]
        show (if decide (domainId ∈ e.runtime.domainIds) then acquire (.domain domainId)
          else pure () : EntryM Unit).unlocked e = _
        split
        · rfl
        · rfl
      unfold lockExistingDomainIds at ih ⊢
      rw [Program.forEach, unlocked_bindResult, hone]
      exact ih

theorem unlocked_acquireCoordinatorExclusive (e : DocumentEntry) :
    acquireCoordinatorExclusive.unlocked e
      = (.ok (.coordinatorExclusive e.snapshotDomainIds), e) := by
  show (lockExistingDomainIds e.snapshotDomainIds >>= fun _ => _ : EntryM RequestGuard).unlocked e = _
  rw [unlocked_bind, Action.bind_apply, unlocked_lockExistingDomainIds]
  rfl

theorem unlocked_acquireQuiescentRead (e : DocumentEntry) :
    acquireQuiescentRead.unlocked e = (.ok (.quiescentRead e.snapshotDomainIds), e) := by
  show (lockExistingDomainIds e.snapshotDomainIds >>= fun _ => _ : EntryM RequestGuard).unlocked e = _
  rw [unlocked_bind, Action.bind_apply, unlocked_lockExistingDomainIds]
  rfl

/-- What a reader that holds its guard sees. -/
theorem executes_observe (look : DocumentEntry → α) :
    Executes [] Sane (underGuard acquireQuiescentRead (Program.read fun e => .ok (look e)))
      fun r e => Sane e ∧ ∃ a, r = .ok a := by
  intro e he
  obtain ⟨hsolo, hsane⟩ := (steady_observe fun e => .ok (look e)).executes.unlocked he
  refine ⟨_, _, hsolo, hsane, look e, ?_⟩
  unfold underGuard
  rw [unlocked_bindResult, unlocked_acquireQuiescentRead]
  show ((ensure (Program.read fun e => .ok (look e)) _ : EntryM α).unlocked e).1 = _
  rw [unlocked_ensure]
  rfl

end Muxly.Daemon
