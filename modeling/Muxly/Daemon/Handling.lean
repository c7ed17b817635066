/-
# Muxly.Daemon.Handling -- the operations that leave the links alone

Every operation of a handler ends with the mutexes that it started with, and with the guard of its
request still held. This module walks the response combinators and the operations that read a
document or write no links. They need no more than the guard itself; only where a planned guard has
to cover what is written does the node have to be the one of the plan (`CoversNode`).
-/
import Muxly.Daemon.Commits

namespace Muxly.Daemon

open Muxly.Control Muxly.Core Muxly.Core.Document Muxly.Sync Muxly.Sync.Program Muxly.Tree

variable {R : Regime} {t : Nat} {H : Set Mutex} {guard : RequestGuard} {topology : Document}
  {target : Option WriteTarget} {A B : State → Prop} {α β : Type}

/-! ## Responses -/

section Responses

theorem keeps_ret (r : Except Failure α) : (discipline R).Keeps t H A (.ret r) := .ret fun _ _ hA => hA

theorem leads_ret (hAB : ∀ v, Invariant R v → A v → B v) (r : Except Failure α) :
    (discipline R).Leads t H A (.ret r) B := .ret hAB

/-- The combinators that turn the result of an operation into a response. -/
theorem leads_orError {op : EntryM α} (h : (discipline R).Leads t H A op B) (code : RpcErrorCode)
    (text : String) (result : α → Payload) :
    (discipline R).Leads t H A (orError code text op result) B := by
  refine h.bind fun r => ?_
  split <;> exact keeps_ret _

theorem leads_orFixedError {op : EntryM α} (h : (discipline R).Leads t H A op B)
    (code : RpcErrorCode) (text : String) (result : α → Payload) :
    (discipline R).Leads t H A (orFixedError code text op result) B := by
  refine h.bind fun r => ?_
  split <;> exact keeps_ret _

variable (hAB : ∀ v, Invariant R v → A v → B v)
include hAB

theorem leads_required {value : Option α} {message : String} {k : α → EntryM Body}
    (hk : ∀ a, value = some a → (discipline R).Leads t H A (k a) B) :
    (discipline R).Leads t H A (required value message k) B := by
  cases value with
  | none => exact leads_ret hAB _
  | some a => exact hk a rfl

theorem leads_sleepFor {ms : Int} {message : String} {k : EntryM Body}
    (hk : (discipline R).Leads t H A k B) :
    (discipline R).Leads t H A (sleepFor ms message k) B := by
  unfold sleepFor
  split
  · exact leads_ret hAB _
  · split
    · exact hk
    · exact leads_ret hAB _

theorem leads_pauseThen {request : RequestEnvelope} {k : EntryM Body}
    (hk : (discipline R).Leads t H A k B) :
    (discipline R).Leads t H A (pauseThen request k) B := by
  unfold pauseThen
  split
  · exact leads_sleepFor hAB hk
  · exact hk

/-- `@intCast` of a number, then the rest. -/
theorem leads_intCast {value : Int} {k : Nat → EntryM Body}
    (hk : ∀ x : Nat, value = x → (discipline R).Leads t H A (k x) B) :
    (discipline R).Leads t H A
      (match intCast u64Limit value with
        | .ok x => k x
        | .error failure => .ret (.error failure)) B := by
  cases hcast : intCast u64Limit value with
  | error failure => exact leads_ret hAB _
  | ok x =>
      unfold intCast at hcast
      split at hcast
      · rename_i hrange
        cases hcast
        exact hk _ (Int.toNat_of_nonneg hrange.1).symm
      · cases hcast

end Responses

/-! ## Mutexes of a handler -/

theorem lt_nodeRegistry_of_mem_mutexes {m : Mutex} (h : m ∈ guard.mutexes) :
    m < Mutex.nodeRegistry := by
  have hdomain : ∀ d, Mutex.domain d < .nodeRegistry := fun d => by
    rw [Mutex.lt_iff, Mutex.rank, Mutex.rank, Prod.Lex.toLex_lt_toLex]
    exact .inl (by simp)
  have hdomains : ∀ {domainIds}, m ∈ domainMutexes domainIds → m < .nodeRegistry := by
    rintro _ ⟨d, -, rfl⟩
    exact hdomain d
  cases guard with
  | none => cases h
  | coordinatorExclusive domainIds =>
      rcases h with rfl | h
      · exact coordinator_lt_nodeRegistry
      · exact hdomains h
  | quiescentRead domainIds => exact hdomains h
  | participatingDomainWrite domainIds => exact hdomains h
  | domainWrite domainId => exact hdomains h
  | structuralWrite domainId parentId =>
      rcases h with rfl | h
      · rw [Mutex.lt_iff, Mutex.rank, Mutex.rank, Prod.Lex.toLex_lt_toLex]
        exact .inl (by simp)
      · exact hdomains h

theorem nodeRegistry_lt_contentBytes : Mutex.nodeRegistry < .contentBytes := by
  rw [Mutex.lt_iff, Mutex.rank, Mutex.rank, Prod.Lex.toLex_lt_toLex]
  exact .inl (by decide)

section Mutexes

variable (hA : Handles R t guard topology target A)
include hA

theorem Handles.wp_lock (hsub : guard.mutexes ⊆ H) {m : Mutex} (hdomain : ∀ d, m ≠ .domain d)
    (hlock : R.ordered → ∀ m' ∈ H, m' < m) {rest : EntryM α}
    {Q : Except Failure α → Set Mutex → (State → Prop) → Prop}
    (h : m ∉ H → (discipline R).wp t rest Q (insert m H) A) :
    (discipline R).wp t (.lock m rest) Q H A :=
  ⟨fun _ _ _ _ => hlock, fun hm => ⟨A, hA.stable_at (hsub.trans (Set.subset_insert _ _)),
    fun _ _ hAv hok => ⟨hAv, Published.take hok fun d hd => absurd hd (hdomain d)⟩, h hm⟩⟩

theorem Handles.wp_unlock {m : Mutex} (hm : m ∈ H) (hsub : guard.mutexes ⊆ H \ {m})
    {rest : EntryM α} {Q : Except Failure α → Set Mutex → (State → Prop) → Prop}
    (h : (discipline R).wp t rest Q (H \ {m}) A) : (discipline R).wp t (.unlock m rest) Q H A :=
  ⟨hm, A, hA.stable_at hsub, fun v _ hAv hok =>
    ⟨hAv, Published.give_under hok (hA.under v hAv) Set.sdiff_subset hsub⟩, h⟩

/-- A node is looked up under the registry mutex; the body runs under the content mutex alone. -/
theorem keeps_withStableNode (hsub : guard.mutexes ⊆ H)
    (hlock : R.ordered → ∀ m ∈ H, m < .nodeRegistry) {nodeId : Nat}
    {check : Node → Except Failure Unit} {body : EntryM α}
    (hbody : (discipline R).Keeps t (insert .contentBytes H) A body) :
    (discipline R).Keeps t H A (withStableNode nodeId check body) := by
  have hsub' : guard.mutexes ⊆ insert .nodeRegistry H := hsub.trans (Set.subset_insert _ _)
  refine hA.wp_lock hsub (by simp) hlock fun hreg => ?_
  have hback : insert Mutex.nodeRegistry H \ {.nodeRegistry} = H :=
    Set.insert_sdiff_self_of_notMem hreg
  have hclosed := Discipline.closed_ensures (D := discipline R) (ε := Failure) (α := α) H
    (fun _ => A)
  -- The node is found, or the registry mutex is given back.
  have hread : (discipline R).Ensures t (insert .nodeRegistry H) A
      (read fun e => do check (← e.document.nodeOr nodeId .unknownNode)) fun _ => A :=
    keeps_read hA hsub' _
  show (discipline R).wp t (bindResult (bindResult _ _) _) _ _ _
  rw [Program.bindResult_assoc]
  refine hread.wp_bindResult hclosed fun r => ?_
  cases r with
  | error failure =>
      refine hA.wp_unlock (Set.mem_insert _ _) (by rw [hback]; exact hsub) ?_
      exact ⟨hback, fun _ _ hAv => hAv⟩
  | ok _ =>
      refine hA.wp_lock hsub' (by simp) (fun hR m hm => ?_) fun hcontent => ?_
      · rcases hm with rfl | hm
        · exact nodeRegistry_lt_contentBytes
        · exact (hlock hR m hm).trans nodeRegistry_lt_contentBytes
      have hswap : insert Mutex.contentBytes (insert Mutex.nodeRegistry H) \ {.nodeRegistry}
          = insert .contentBytes H := by
        rw [Set.insert_comm]
        refine Set.insert_sdiff_self_of_notMem ?_
        rintro (h | h)
        · cases h
        · exact hreg h
      have hsub'' : guard.mutexes ⊆ insert .contentBytes H := hsub.trans (Set.subset_insert _ _)
      refine hA.wp_unlock (.inr (Set.mem_insert _ _)) (by rw [hswap]; exact hsub'') ?_
      rw [hswap]
      refine hbody.wp_bindResult hclosed fun r => ?_
      have hback' : insert Mutex.contentBytes H \ {.contentBytes} = H :=
        Set.insert_sdiff_self_of_notMem fun h => hcontent (.inr h)
      refine hA.wp_unlock (Set.mem_insert _ _) (by rw [hback']; exact hsub) ?_
      exact ⟨hback', fun _ _ hAv => hAv⟩

end Mutexes

/-! ## Changes that leave all links alone -/

/-- Wherever the assertion holds, a planned guard covers the node. -/
def CoversNode (R : Regime) (t : Nat) (guard : RequestGuard) (A : State → Prop) (x : Nat) : Prop :=
  R.accounted → guard.isDynamic = true → ∀ v H, Invariant R v → A v →
    Published R H v.shared (v.tag t) → ∀ n, v.shared.document.lookup x = some n →
    ∃ r ∈ guard.domainIds, Owns v.shared.document x r

theorem coversNode_of_static (h : guard.isDynamic = false) (x : Nat) : CoversNode R t guard A x := by
  intro _ hdyn
  rw [h] at hdyn
  cases hdyn

theorem local_updateKnownNode (x : Nat) (f : Node → Node) : Local x (updateKnownNode x f) := by
  intro d y hy
  cases hx : d.lookup x with
  | none => rw [updateKnownNode_of_missing hx]
  | some n =>
      rw [updateKnownNode_of_lookup hx]
      show (d.modifyNode x f).lookup y = _
      rw [lookup_modifyNode, if_neg hy]

section Operations

variable (hA : Handles R t guard topology target A) (hsub : guard.mutexes ⊆ H)
include hA hsub

theorem keeps_linkless {m : DocM α} (hm : Linkless m)
    (hwrites : R.accounted → guard.isDynamic = true → ∀ v H, Invariant R v → A v →
      Published R H v.shared (v.tag t) →
      WritesWithin guard.domainIds v.shared.document (m v.shared.document).2) :
    (discipline R).Keeps t H A (onDocument m) := by
  refine keeps_edit hA hsub fun v hv hAv hok => ⟨?_, fun hacc x n hx => ?_⟩
  · refine .of_sameLinks hv.linked rfl rfl (fun hR => ?_) fun hacc hdyn => ?_
    · obtain ⟨hs', hsame, hnext⟩ := hm v.shared.document (hv.shape hR)
      exact ⟨hsame, hnext, hs'⟩
    · exact hwrites hacc hdyn v H hv hAv hok
  · obtain ⟨-, hsame, -⟩ := hm v.shared.document (hv.shape (R.structured_of_accounted hacc))
    obtain ⟨n', hn', -⟩ := hsame.lookup hx
    exact ⟨n', hn'⟩

/-- A change of one node that the guard covers. -/
theorem keeps_local {m : DocM α} (hm : Linkless m) {x : Nat} (hlocal : Local x m)
    (hcov : CoversNode R t guard A x) : (discipline R).Keeps t H A (onDocument m) :=
  keeps_linkless hA hsub hm fun hacc hdyn v H hv hAv hok =>
    hlocal.writesWithin (hcov hacc hdyn v H hv hAv hok)

/-- A change under a guard that was not planned. -/
theorem keeps_static {m : DocM α} (hm : Linkless m) (hstatic : guard.isDynamic = false) :
    (discipline R).Keeps t H A (onDocument m) :=
  keeps_linkless hA hsub hm fun _ hdyn => by rw [hstatic] at hdyn; cases hdyn

theorem keeps_notifyInvalidate (env : Env) (x : Nat) (reason : ProjectionEventReason) :
    (discipline R).Keeps t H A (notifyInvalidate env x reason) := keeps_read hA hsub _

variable (hlock : R.ordered → ∀ m ∈ H, m < .nodeRegistry)
include hlock

section Content

variable {x : Nat} (hcov : CoversNode R t guard A x) (env : Env)
include hcov

theorem keeps_replaceNodeContentWithAccounting (content : Bytes) :
    (discipline R).Keeps t H A (replaceNodeContentWithAccounting x content) :=
  keeps_withStableNode hA hsub hlock <|
    keeps_local hA (hsub.trans (Set.subset_insert _ _)) (linkless_replaceStableNodeContent x content)
      (local_replaceStableNodeContent x content) hcov

theorem keeps_appendNodeContentWithAccounting (chunk : Bytes) :
    (discipline R).Keeps t H A (appendNodeContentWithAccounting x chunk) :=
  keeps_withStableNode hA hsub hlock <|
    keeps_local hA (hsub.trans (Set.subset_insert _ _)) (linkless_appendTextToStableNode x chunk)
      (local_appendTextToStableNode x chunk) hcov

theorem keeps_setNodeContentFromSource (content : Bytes) :
    (discipline R).Keeps t H A (setNodeContentFromSource env x content) := by
  refine (keeps_replaceNodeContentWithAccounting hA hsub hlock hcov content).seq
    (fun changed => ?_)
  split
  · exact keeps_notifyInvalidate hA hsub env x _
  · exact keeps_ret _

theorem keeps_appendTextChunk (chunk : Bytes) :
    (discipline R).Keeps t H A (appendTextChunk env x chunk) :=
  (keeps_appendNodeContentWithAccounting hA hsub hlock hcov chunk).seq
    (fun _ => keeps_notifyInvalidate hA hsub env x _)

theorem keeps_pushSyntheticTtyChunk (chunk : Bytes) :
    (discipline R).Keeps t H A (pushSyntheticTtyChunk env x chunk) := by
  have hsub' : guard.mutexes ⊆ insert .contentBytes H := hsub.trans (Set.subset_insert _ _)
  refine keeps_withStableNode hA hsub hlock ?_
  have happend := keeps_local hA hsub' (linkless_appendTextToStableNode x chunk)
    (local_appendTextToStableNode x chunk) hcov
  have hnotify := keeps_notifyInvalidate hA hsub' env x .content
  exact happend.seq (fun _ => hnotify.seq (fun _ => keeps_read hA hsub' _))

theorem keeps_updateNode (title content : Option Bytes) :
    (discipline R).Keeps t H A (updateNode env x title content) := by
  have hnotify := keeps_notifyInvalidate hA hsub env x
  have htitle : ∀ title, (discipline R).Keeps t H A (onDocument (Document.setNodeTitle x title)) :=
    fun title => keeps_local hA hsub (linkless_updateKnownNode x (keepsLinks_setTitle title))
      (local_updateKnownNode x _) hcov
  cases content with
  | none =>
      cases title with
      | none => exact hnotify .metadata
      | some title => exact (htitle title).seq (fun _ => hnotify .metadata)
  | some content =>
      have hcontent := (keeps_replaceNodeContentWithAccounting hA hsub hlock hcov content).seq
        (fun _ => hnotify .content)
      cases title with
      | none => exact hcontent
      | some title => exact (htitle title).seq (fun _ => hcontent)

end Content

section Static

variable (hstatic : guard.isDynamic = false) (env : Env)
include hstatic

theorem keeps_refreshSourcesForDocument (visit : Nat) :
    (discipline R).Keeps t H A (refreshSourcesForDocument env visit) := by
  refine (keeps_read hA hsub _).seq (fun nodeIds => ?_)
  refine Discipline.keeps_forEach fun x _ => ?_
  refine (keeps_read hA hsub _).seq (fun node => ?_)
  split
  · exact keeps_setNodeContentFromSource hA hsub hlock (coversNode_of_static hstatic x) env _
  · exact keeps_ret _

theorem keeps_captureFileNode (x : Nat) :
    (discipline R).Keeps t H A (captureFileNode env x) :=
  (keeps_refreshSourcesForDocument hA hsub hlock hstatic env 0).seq
    (fun _ => keeps_read hA hsub _)

omit hlock in
theorem keeps_setFileFollowTail (x : Nat) (enabled : Bool) :
    (discipline R).Keeps t H A (setFileFollowTail env x enabled) := by
  refine (keeps_static hA hsub ?_ hstatic).seq
    (fun _ => keeps_notifyInvalidate hA hsub env x _)
  refine (linkless_view _).bind unlinked_progress fun node => ?_
  refine Action.Advances.bind unlinked_progress (m := Action.lift (requireFileSource node))
    (Action.advances_lift unlinked_progress _) fun _ => ?_
  exact linkless_modifyNode x ⟨fun _ => rfl, fun _ => rfl, fun _ => rfl, fun _ => rfl, fun _ => rfl⟩

theorem keeps_freezeTerminalNode (x : Nat) (artifactKind : TerminalArtifactKind) :
    (discipline R).Keeps t H A (freezeTerminalNode env x artifactKind) := by
  have hnotify := keeps_notifyInvalidate hA hsub env x .structural
  have hcapture : (discipline R).Keeps t H A (captureTerminalArtifact env x artifactKind) := by
    refine (keeps_read hA hsub _).seq (fun captured => ?_)
    exact (keeps_replaceNodeContentWithAccounting hA hsub hlock (coversNode_of_static hstatic x)
      captured.1).seq (fun _ => keeps_ret _)
  refine hcapture.seq (fun sections => ?_)
  exact (keeps_static hA hsub (linkless_freezeTtyNodeAsArtifact x artifactKind sections) hstatic).seq
    (fun _ => hnotify)

end Static

end Operations

end Muxly.Daemon
