/-
# Muxly.Daemon.Dispatch -- every handler keeps the guard of its request

A handler starts with a fresh guard that suits its request, and ends with the guard still held
(`Conducts`). One lemma for each handler, then one for the dispatch.
-/
import Muxly.Daemon.Requests

namespace Muxly.Daemon

open Muxly.Control Muxly.Core Muxly.Core.Document Muxly.Sync Muxly.Sync.Program Muxly.Tree

variable {R : Regime} {t : Nat} {guard : RequestGuard} {topology : Document}
  {target : Option WriteTarget} {documentPath : Bytes} {request : RequestEnvelope} {α : Type}

/-- A handler starts with a fresh guard, and ends with the guard still held. -/
abbrev Conducts (R : Regime) (t : Nat) (guard : RequestGuard) (topology : Document)
    (target : Option WriteTarget) (p : EntryM α) : Prop :=
  (discipline R).Leads t guard.mutexes (Fresh R t guard topology target) p
    fun v => (v.tag t).Under guard topology target

theorem under_of_fresh (v : State) (_ : Invariant R v) (h : Fresh R t guard topology target v) :
    (v.tag t).Under guard topology target := h.under

theorem under_of_known {x : Int} (v : State) (_ : Invariant R v)
    (h : Fresh R t guard topology target v ∧ Known R guard topology target x v) :
    (v.tag t).Under guard topology target := h.1.under

/-- The mutexes of a guard lie below the registry mutex. -/
theorem mutexes_low : R.ordered → ∀ m ∈ guard.mutexes, m < Mutex.nodeRegistry :=
  fun _ _ hm => lt_nodeRegistry_of_mem_mutexes hm

/-- What keeps an assertion of the handler keeps the guard. -/
theorem Carries.leads_of_keeps {A : State → Prop} (hA : Carries R t guard topology target A)
    {H : Set Mutex} {p : EntryM α} (h : (discipline R).Keeps t H A p) :
    (discipline R).Leads t H A p fun v => (v.tag t).Under guard topology target :=
  h.post fun _ v _ hAv => hA.under v hAv

/-- `debug.sleep` touches nothing. -/
theorem conducts_handleDebugSleep : Conducts R t guard topology target (handleDebugSleep request) :=
  leads_required under_of_fresh fun _ _ =>
    leads_sleepFor under_of_fresh (leads_ret under_of_fresh _)

section Handlers

variable (hsuits : Suits R documentPath request guard topology target) (env : Env)
include hsuits

/-! ## Readers -/

theorem keeps_reads (f : DocumentEntry → Except Failure α) :
    (discipline R).Keeps t guard.mutexes (Fresh R t guard topology target) (read f) :=
  keeps_read hsuits.handles (Set.Subset.refl _) f

theorem keeps_notified (x : Nat) (reason : ProjectionEventReason) :
    (discipline R).Keeps t guard.mutexes (Fresh R t guard topology target)
      (notifyInvalidate env x reason >>= fun _ => pure x) :=
  (keeps_notifyInvalidate hsuits.handles (Set.Subset.refl _) env x reason).seq fun _ => keeps_ret _

theorem conducts_handleDebugValidate : Conducts R t guard topology target handleDebugValidate :=
  leads_orError (hsuits.handles.leads_of_keeps (keeps_reads hsuits _)) _ _ _

theorem conducts_handleDocumentStatus :
    Conducts R t guard topology target (handleDocumentStatus documentPath) :=
  hsuits.handles.leads_of_keeps ((keeps_reads hsuits _).seq fun _ => keeps_ret _)

theorem conducts_withKnownNode (hmethod : requestIsAppendLike request.method = false)
    (k : Node → Payload) : Conducts R t guard topology target (withKnownNode request k) := by
  refine leads_withNodeId hsuits hmethod (Set.Subset.refl _) (fun x => ?_) under_of_fresh
  have hA := handles_known hsuits.handles (t := t) (x : Int)
  refine hA.leads_of_keeps ((keeps_read hA (Set.Subset.refl _) _).seq fun node => ?_)
  split
  · exact keeps_ret _
  · exact keeps_ret _

/-! ## Handlers without a plan -/

section Static

variable (hlane : requestSupportsDynamicDomainLane request = false)
include hlane

theorem keeps_refresh (visit : Nat) :
    (discipline R).Keeps t guard.mutexes (Fresh R t guard topology target)
      (refreshSourcesForDocument env visit) :=
  keeps_refreshSourcesForDocument hsuits.handles (Set.Subset.refl _) mutexes_low
    (hsuits.static hlane) env visit

theorem conducts_handleDocumentGet (visit : Nat) :
    Conducts R t guard topology target (handleDocumentGet env visit) :=
  hsuits.handles.leads_of_keeps <| (keeps_refresh hsuits env hlane visit).seq fun _ =>
    (keeps_reads hsuits _).seq fun _ => keeps_ret _

theorem conducts_handleDocumentSerialize (visit : Nat) :
    Conducts R t guard topology target (handleDocumentSerialize env visit) :=
  hsuits.handles.leads_of_keeps <| (keeps_refresh hsuits env hlane visit).seq fun _ =>
    (keeps_reads hsuits _).seq fun _ => keeps_ret _

theorem conducts_handleProjectionGet (visit : Nat) :
    Conducts R t guard topology target (handleProjectionGet env request visit) := by
  refine hsuits.handles.leads_of_keeps ((keeps_refresh hsuits env hlane visit).seq fun _ => ?_)
  split
  · exact keeps_ret _
  · exact keeps_ret _
  · refine (keeps_reads hsuits _).bind fun r => ?_
    split
    · split
      · exact keeps_ret _
      · exact keeps_ret _
    · exact keeps_ret _
    · exact (keeps_reads hsuits _).seq fun _ => keeps_ret _

theorem conducts_handleDocumentFreeze : Conducts R t guard topology target handleDocumentFreeze := by
  refine hsuits.handles.leads_of_keeps ((keeps_static hsuits.handles (Set.Subset.refl _) ?_
    (hsuits.static hlane)).seq fun _ => keeps_ret _)
  exact linkless_modifyView (fun _ => rfl) (fun _ => rfl) (fun _ => rfl) fun _ => rfl

theorem conducts_handleView {op : DocM Unit} (hop : Linkless op) :
    Conducts R t guard topology target (handleView op) :=
  hsuits.handles.leads_of_keeps <| (keeps_static hsuits.handles (Set.Subset.refl _) hop
    (hsuits.static hlane)).seq fun _ => keeps_ret _

variable (hmethod : requestIsAppendLike request.method = false)
include hmethod

theorem conducts_handleViewNode {op : Nat → DocM Unit} (hop : ∀ x, Linkless (op x)) :
    Conducts R t guard topology target (handleViewNode request op) := by
  refine leads_withNodeId hsuits hmethod (Set.Subset.refl _) (fun x => ?_) under_of_fresh
  have hA := handles_known hsuits.handles (t := t) (x : Int)
  refine leads_orFixedError (hA.leads_of_keeps ?_) _ _ _
  exact keeps_static hA (Set.Subset.refl _) (hop x) (hsuits.static hlane)

theorem conducts_handleNodeFreeze :
    Conducts R t guard topology target (handleNodeFreeze env request) := by
  refine leads_withNodeTarget hsuits hmethod (Set.Subset.refl _) (fun n => ?_) under_of_fresh
  refine leads_required under_of_known fun kindName _ => ?_
  refine leads_required under_of_known fun artifactKind _ => ?_
  have hA := handles_known hsuits.handles (t := t) n
  split
  · exact leads_ret under_of_known _
  · refine hA.leads_of_keeps ?_
    refine (keeps_freezeTerminalNode hA (Set.Subset.refl _) mutexes_low (hsuits.static hlane) env _
      artifactKind).bind fun r => ?_
    split
    · exact keeps_ret _
    · exact keeps_ret _
    · exact (keeps_read hA (Set.Subset.refl _) _).seq fun _ => keeps_ret _

theorem conducts_handleFileCapture :
    Conducts R t guard topology target (handleFileCapture env request) := by
  refine leads_withNodeId hsuits hmethod (Set.Subset.refl _) (fun x => ?_) under_of_fresh
  have hA := handles_known hsuits.handles (t := t) (x : Int)
  refine leads_orError (hA.leads_of_keeps ?_) _ _ _
  exact keeps_captureFileNode hA (Set.Subset.refl _) mutexes_low (hsuits.static hlane) env x

theorem conducts_handleFileFollowTail :
    Conducts R t guard topology target (handleFileFollowTail env request) := by
  refine leads_withNodeTarget hsuits hmethod (Set.Subset.refl _) (fun n => ?_) under_of_fresh
  refine leads_required under_of_known fun enabled _ => ?_
  refine leads_intCast under_of_known fun x _ => ?_
  have hA := handles_known hsuits.handles (t := t) n
  refine leads_orError (hA.leads_of_keeps ?_) _ _ _
  exact keeps_setFileFollowTail hA (Set.Subset.refl _) (hsuits.static hlane) env x enabled

end Static

/-! ## Content writes -/

section Content

variable (hmethod : requestIsAppendLike request.method = false)
include hmethod

theorem conducts_handleDebugTextAppend :
    Conducts R t guard topology target (handleDebugTextAppend env request) := by
  refine leads_withNodeTarget hsuits hmethod (Set.Subset.refl _) (fun n => ?_) under_of_fresh
  refine leads_required under_of_known fun chunk _ => ?_
  refine leads_pauseThen under_of_known (leads_intCast under_of_known fun x hx => ?_)
  subst hx
  have hA := handles_known hsuits.handles (t := t) (x : Int)
  refine leads_orError (hA.leads_of_keeps ?_) _ _ _
  exact keeps_appendTextChunk hA (Set.Subset.refl _) mutexes_low (coversNode_of_known hsuits x) env chunk

theorem conducts_handleDebugTtyPush :
    Conducts R t guard topology target (handleDebugTtyPush env request) := by
  refine leads_withNodeTarget hsuits hmethod (Set.Subset.refl _) (fun n => ?_) under_of_fresh
  refine leads_required under_of_known fun chunk _ => ?_
  refine leads_pauseThen under_of_known (leads_intCast under_of_known fun x hx => ?_)
  subst hx
  have hA := handles_known hsuits.handles (t := t) (x : Int)
  refine leads_orError (hA.leads_of_keeps ?_) _ _ _
  exact keeps_pushSyntheticTtyChunk hA (Set.Subset.refl _) mutexes_low (coversNode_of_known hsuits x) env
    chunk

theorem conducts_handleNodeUpdate :
    Conducts R t guard topology target (handleNodeUpdate env request) := by
  refine leads_withNodeId hsuits hmethod (Set.Subset.refl _) (fun x => ?_) under_of_fresh
  have hA := handles_known hsuits.handles (t := t) (x : Int)
  refine leads_orError (hA.leads_of_keeps ?_) _ _ _
  exact keeps_updateNode hA (Set.Subset.refl _) mutexes_low (coversNode_of_known hsuits x) env _ _

end Content

/-! ## Changes of links -/

section Links

variable (hpath : R.structured → documentPath ≠ rootDocumentPath)
include hpath

/-- An append, then a notification. -/
theorem conducts_append {p : Nat} (hmay : MayAppend R guard topology target p) (kind : NodeKind)
    (title : Bytes) (source : Source) (code : RpcErrorCode) (text : String) (result : Nat → Payload)
    {after : Nat → EntryM Nat} (hafter : ∀ x, (discipline R).Keeps t guard.mutexes
      (Fresh R t guard topology target) (after x)) :
    Conducts R t guard topology target (orError code text
      (appendNodeWithRuntime documentPath p kind title source >>= after) result) := by
  refine leads_orError (hsuits.handles.leads_of_keeps ?_) _ _ _
  exact (keeps_appendNodeWithRuntime hsuits.handles hpath hmay kind title source).seq hafter

theorem conducts_handleAppend (hmethod : requestIsAppendLike request.method = true)
    (hquiescent : requestUsesQuiescentReadGuard request.method = false)
    {pause : EntryM Body → EntryM Body} (hpause : ∀ k, Conducts R t guard topology target k →
      Conducts R t guard topology target (pause k)) :
    Conducts R t guard topology target (handleAppend env documentPath request pause) := by
  refine leads_required under_of_fresh fun parentId hparent => ?_
  refine leads_required under_of_fresh fun kindName _ => ?_
  refine leads_required under_of_fresh fun title _ => ?_
  refine leads_required under_of_fresh fun kind _ => ?_
  refine hpause _ (leads_intCast under_of_fresh fun p hp => ?_)
  exact conducts_append hsuits hpath (hsuits.mayAppend hpath hquiescent hmethod hparent hp) kind title
    .none _ _ _ fun x => keeps_notified hsuits env x .structural

section Static

variable (hquiescent : requestUsesQuiescentReadGuard request.method = false)
  (hlane : requestSupportsDynamicDomainLane request = false)
include hquiescent hlane

theorem conducts_handleDebugTtyAttach :
    Conducts R t guard topology target (handleDebugTtyAttach env documentPath request) := by
  refine leads_required under_of_fresh fun parentId hparent => ?_
  split
  · exact leads_ret under_of_fresh _
  · refine leads_intCast under_of_fresh fun p hp => ?_
    exact conducts_append hsuits hpath (hsuits.mayAppend_of_static hpath hquiescent hlane p) _ _ _ _ _ _
      fun x => keeps_notified hsuits env x .structural

theorem keeps_attachLeaf (kind : NodeKind) (title : Bytes) (source : Source) :
    (discipline R).Keeps t guard.mutexes (Fresh R t guard topology target)
      (attachLeaf env documentPath kind title source) := by
  refine (keeps_reads hsuits _).seq fun root => ?_
  refine (keeps_appendNodeWithRuntime hsuits.handles hpath
    (hsuits.mayAppend_of_static hpath hquiescent hlane root) kind title source).seq fun x => ?_
  exact (keeps_refresh hsuits env hlane 0).seq fun _ => keeps_notified hsuits env x .structural

theorem conducts_handleLeafSourceAttach :
    Conducts R t guard topology target (handleLeafSourceAttach env documentPath request) := by
  refine leads_required under_of_fresh fun kind _ => ?_
  split
  · refine leads_required under_of_fresh fun path _ => ?_
    exact leads_orError (hsuits.handles.leads_of_keeps
      (keeps_attachLeaf hsuits env hpath hquiescent hlane _ _ _)) _ _ _
  · split
    · refine leads_required under_of_fresh fun sessionName _ => ?_
      exact leads_orError (hsuits.handles.leads_of_keeps
        (keeps_attachLeaf hsuits env hpath hquiescent hlane _ _ _)) _ _ _
    · exact leads_ret under_of_fresh _

end Static

section Removal

variable (hmethod : requestIsRemoveLike request.method = true)
  (hquiescent : requestUsesQuiescentReadGuard request.method = false)
include hmethod hquiescent

/-- The removal of a node that was resolved, then a notification. -/
theorem leads_removeNode (x : Nat) : (discipline R).Leads t guard.mutexes
    (fun v => Fresh R t guard topology target v ∧ Known R guard topology target x v)
    (removeNode env documentPath x) fun v => (v.tag t).Under guard topology target := by
  have hA := handles_known hsuits.handles (t := t) (x : Int)
  refine (leads_removeNodeWithRuntime hA (fun v h => h.2)
    (hsuits.mayRemove hpath hquiescent hmethod) hpath).leads (fun _ => ?_) fun _ _ _ h => h
  exact keeps_notifyInvalidate handles_under (Set.Subset.refl _) env x _

theorem conducts_handleNodeRemove (happend : requestIsAppendLike request.method = false) :
    Conducts R t guard topology target (handleNodeRemove env documentPath request) :=
  leads_withNodeId hsuits happend (Set.Subset.refl _) (fun x =>
    leads_orError (leads_removeNode hsuits env hpath hmethod hquiescent x) _ _ _) under_of_fresh

theorem conducts_handleDebugNodeRemove (happend : requestIsAppendLike request.method = false) :
    Conducts R t guard topology target (handleDebugNodeRemove env documentPath request) := by
  refine leads_withNodeTarget hsuits happend (Set.Subset.refl _) (fun n => ?_) under_of_fresh
  refine leads_pauseThen under_of_known (leads_intCast under_of_known fun x hx => ?_)
  subst hx
  exact leads_orError (leads_removeNode hsuits env hpath hmethod hquiescent x) _ _ _

end Removal

end Links

end Handlers

/-! ## Dispatch -/

/-- The methods that may be executed in the lane of a domain. -/
def laneMethods : List Method :=
  [.debugSleep, .debugTextAppend, .debugTtyPush, .nodeUpdate, .nodeAppend, .debugNodeAppend,
    .nodeRemove, .debugNodeRemove]

theorem lane_of_method {m : Method} (hm : request.method = m) (hnot : m ∉ laneMethods) :
    requestSupportsDynamicDomainLane request = false := by
  subst hm
  simp only [laneMethods, List.mem_cons, List.not_mem_nil, or_false, not_or] at hnot
  simp [requestSupportsDynamicDomainLane, requestIsContentOnlyNodeUpdate,
    requestIsStructuralDomainWrite, requestIsAppendLike, requestIsRemoveLike, hnot]

theorem linkless_view_op {op : Nat → DocM Unit} (h : op = Document.setViewRoot ∨
    op = Document.toggleElided ∨ op = fun x => Document.setElided x false) (x : Nat) :
    Linkless (op x) := by
  rcases h with rfl | rfl | rfl
  all_goals exact linkless_checkedView x (fun _ => rfl) (fun _ => rfl) (fun _ => rfl) fun _ => rfl

section Dispatch

variable (hsuits : Suits R documentPath request guard topology target) (env : Env)
  (hpath : R.structured → documentPath ≠ rootDocumentPath)
include hsuits hpath

theorem conducts_handleDebugRequest {handler : EntryM Body}
    (h : handleDebugRequest env documentPath request = some handler) :
    Conducts R t guard topology target handler := by
  unfold handleDebugRequest at h
  split at h
  · cases h
  cases hm : request.method <;> rw [hm] at h <;> simp only [reduceCtorEq, Option.some.injEq] at h
  case debugSleep => exact h ▸ conducts_handleDebugSleep
  case debugDocumentValidate => exact h ▸ conducts_handleDebugValidate hsuits
  case debugTextAppend => exact h ▸ conducts_handleDebugTextAppend hsuits env (by rw [hm]; rfl)
  case debugTtyAttach =>
    exact h ▸ conducts_handleDebugTtyAttach hsuits env hpath (by rw [hm]; rfl)
      (lane_of_method hm (by decide))
  case debugTtyPush => exact h ▸ conducts_handleDebugTtyPush hsuits env (by rw [hm]; rfl)
  case debugNodeAppend =>
    exact h ▸ conducts_handleAppend hsuits env hpath (by rw [hm]; rfl) (by rw [hm]; rfl)
      fun k hk => leads_pauseThen under_of_fresh hk
  case debugNodeRemove =>
    exact h ▸ conducts_handleDebugNodeRemove hsuits env hpath (by rw [hm]; rfl) (by rw [hm]; rfl)
      (by rw [hm]; rfl)

theorem conducts_handleDocumentRequest {handler : EntryM Body}
    (h : handleDocumentRequest env documentPath request = some handler) :
    Conducts R t guard topology target handler := by
  unfold handleDocumentRequest at h
  cases hm : request.method <;> rw [hm] at h <;> simp only [reduceCtorEq, Option.some.injEq] at h
  case documentGet => exact h ▸ conducts_handleDocumentGet hsuits env (lane_of_method hm (by decide)) 0
  case graphGet => exact h ▸ conducts_handleDocumentGet hsuits env (lane_of_method hm (by decide)) 0
  case viewGet => exact h ▸ conducts_handleDocumentGet hsuits env (lane_of_method hm (by decide)) 0
  case projectionGet =>
    exact h ▸ conducts_handleProjectionGet hsuits env (lane_of_method hm (by decide)) 0
  case documentStatus => exact h ▸ conducts_handleDocumentStatus hsuits
  case nodeGet => exact h ▸ conducts_withKnownNode hsuits (by rw [hm]; rfl) _
  case documentSerialize =>
    exact h ▸ conducts_handleDocumentSerialize hsuits env (lane_of_method hm (by decide)) 0
  case documentFreeze =>
    exact h ▸ conducts_handleDocumentFreeze hsuits (lane_of_method hm (by decide))
  case nodeAppend =>
    exact h ▸ conducts_handleAppend hsuits env hpath (by rw [hm]; rfl) (by rw [hm]; rfl)
      fun _ hk => hk
  case nodeUpdate => exact h ▸ conducts_handleNodeUpdate hsuits env (by rw [hm]; rfl)
  case nodeFreeze =>
    exact h ▸ conducts_handleNodeFreeze hsuits env (lane_of_method hm (by decide)) (by rw [hm]; rfl)
  case nodeRemove =>
    exact h ▸ conducts_handleNodeRemove hsuits env hpath (by rw [hm]; rfl) (by rw [hm]; rfl)
      (by rw [hm]; rfl)
  case viewSetRoot =>
    exact h ▸ conducts_handleViewNode hsuits (lane_of_method hm (by decide)) (by rw [hm]; rfl)
      (linkless_view_op (.inl rfl))
  case viewClearRoot =>
    exact h ▸ conducts_handleView hsuits (lane_of_method hm (by decide))
      (linkless_modifyView (fun _ => rfl) (fun _ => rfl) (fun _ => rfl) fun _ => rfl)
  case viewElide =>
    exact h ▸ conducts_handleViewNode hsuits (lane_of_method hm (by decide)) (by rw [hm]; rfl)
      (linkless_view_op (.inr (.inl rfl)))
  case viewExpand =>
    exact h ▸ conducts_handleViewNode hsuits (lane_of_method hm (by decide)) (by rw [hm]; rfl)
      (linkless_view_op (.inr (.inr rfl)))
  case leafSourceAttach =>
    exact h ▸ conducts_handleLeafSourceAttach hsuits env hpath (by rw [hm]; rfl)
      (lane_of_method hm (by decide))
  case leafSourceGet => exact h ▸ conducts_withKnownNode hsuits (by rw [hm]; rfl) _
  case fileCapture =>
    exact h ▸ conducts_handleFileCapture hsuits env (lane_of_method hm (by decide)) (by rw [hm]; rfl)
  case fileFollowTail =>
    exact h ▸ conducts_handleFileFollowTail hsuits env (lane_of_method hm (by decide))
      (by rw [hm]; rfl)
  case viewReset =>
    exact h ▸ conducts_handleView hsuits (lane_of_method hm (by decide))
      (linkless_modifyView (fun _ => rfl) (fun _ => rfl) (fun _ => rfl) fun _ => rfl)

omit hpath in
/-- A list of documents never gets past the coordinator that its own guard holds. -/
theorem conducts_listDocument (hmethod : request.method = .documentList)
    (hroot : documentPath ≠ rootDocumentPath) (hlist : R.ordered → False) :
    Conducts R t guard topology target (listDocument documentPath) := by
  have hex : guard.isExclusive = true := by
    rcases hsuits.kind with ⟨-, h⟩ | h | h | h
    · exact absurd h hroot
    · exact h
    · have hlane := hsuits.lane h
      rw [lane_of_method hmethod (by decide)] at hlane
      cases hlane
    · rw [hmethod] at h
      cases h
  exact ⟨fun _ _ _ _ hR => (hlist hR).elim, fun hm =>
    absurd (RequestGuard.coordinator_mem_mutexes hex) hm⟩

theorem conducts_handleOnDocument (hlist : request.method = .documentList →
    documentPath ≠ rootDocumentPath ∧ ¬ R.ordered) :
    Conducts R t guard topology target (handleOnDocument env documentPath request) := by
  unfold handleOnDocument
  split
  · exact leads_ret under_of_fresh _
  · split
    · rename_i hmethod
      obtain ⟨hroot, hordered⟩ := hlist hmethod
      exact conducts_listDocument hsuits hmethod hroot hordered
    · cases hdebug : handleDebugRequest env documentPath request with
      | some handler => exact conducts_handleDebugRequest hsuits env hpath hdebug
      | none =>
          cases hdocument : handleDocumentRequest env documentPath request with
          | some handler => exact conducts_handleDocumentRequest hsuits env hpath hdocument
          | none => exact leads_ret under_of_fresh _

end Dispatch

end Muxly.Daemon
