/-
# Muxly.Daemon.HalfDone -- what a call to the store that failed has done

A call to the store that fails leaves the nodes of its document as they were, but for three kinds of
call. `updateNode` sets the title first, so a content that does not fit is refused after the title is
set. `attachFile` and `attachTty` attach their leaf first, so a refresh of the sources that fails
leaves the leaf in place, and a client that tries again attaches a second one.
-/
import Muxly.Daemon.Exclusion
import Muxly.Daemon.Refusals

namespace Muxly.Daemon

open Muxly.Control Muxly.Core Muxly.Sync Muxly.Tree
open Document

/-! ## Half a call -/

/-- The title has been set, and the content does not fit. -/
def TitleOnly (e : DocumentEntry) (x : Nat) (title content : Bytes) (e' : DocumentEntry) : Prop :=
  e' = { e with document := e.document.modifyNode x (·.setTitle title) } ∧
    ∃ n, e.document.lookup x = some n ∧ n.content ≠ content ∧
      ¬ e.document.FitsReplace n.content.length content.length

/-- `x` is a node below `p` with a source. -/
def HasLeaf (x p : Nat) (source : Source) (e : DocumentEntry) : Prop :=
  ∃ n, e.document.lookup x = some n ∧ n.parentId = some p ∧ n.source = source

/-- The next node of `e` hangs below its root. -/
def LeafAttached (e : DocumentEntry) (source : Source) (e' : DocumentEntry) : Prop :=
  HasLeaf e.document.nextNodeId e.document.rootNodeId source e'

/-- What a call that fails may have done. -/
def StoreCall.HalfDone (e e' : DocumentEntry) : StoreCall → Prop
  | .updateNode x (some title) (some content) => TitleOnly e x title content e'
  | .attachFile path mode => LeafAttached e (.file { path := path, mode := mode }) e'
  | .attachTty sessionName =>
    LeafAttached e (.tty { sessionName := sessionName, windowId := none, paneId := none }) e'
  | _ => False

/-- The calls that are about one node. The others project a session of tmux, or refresh the sources
of a document. -/
def StoreCall.OneNode : StoreCall → Prop
  | .refreshSources _ | .rebuildTmuxSession .. | .projectNewPane .. | .reconcileTmuxState ..
  | .closeTmuxPane .. => False
  | _ => True

/-- The ids that a call names are not 0, and there is an id left for the node it makes. -/
def StoreCall.InRange (d : Document) : StoreCall → Prop
  | .appendNode p _ _ | .attachSyntheticTty p _ _ => p ≠ 0 ∧ d.nextNodeId + 1 < u64Limit
  | .attachFile _ _ | .attachTty _ => d.nextNodeId + 1 < u64Limit
  | .updateNode x _ _ | .appendTextChunk x _ | .pushSyntheticTtyChunk x _ | .removeNode x
  | .setViewRoot x | .toggleElided x | .expandNode x | .freezeNode x _
  | .setFileFollowTail x _ => x ≠ 0
  | _ => True

namespace Sequential

/-! ## An update of title and content -/

section Update

variable {e : DocumentEntry} {within : Prop} {x : Nat} {env : Env}

/-- The content of a live node, replaced under the mutexes. -/
theorem replaceContent_eq {n : Node} (hn : e.document.lookup x = some n) (content : Bytes) :
    replaceNodeContentWithAccounting x content e
      = DocumentEntry.onDocument (replaceStableNodeContent x content) e := by
  rw [replaceNodeContentWithAccounting, withStableNode, Action.bind_apply, Action.view_apply,
    nodeOr_of_lookup hn]
  rfl

/-- The content of a live node is refused only when it does not fit. -/
theorem updateContent_stops (hquiet : env.Quiet) {n : Node} (hn : e.document.lookup x = some n)
    {content : Bytes} {failure : Failure} {e' : DocumentEntry}
    (h : updateNode env x none (some content) e = (.error failure, e')) :
    e' = e ∧ failure = .error .documentTooLarge ∧ n.content ≠ content ∧
      ¬ e.document.FitsReplace n.content.length content.length := by
  have hrun : updateNode env x none (some content) e
      = Action.next (fun _ => notifyInvalidate env x .content)
          (DocumentEntry.onDocument (replaceStableNodeContent x content) e) := by
    rw [← replaceContent_eq hn]
    rfl
  have hnotify : ∀ e, notifyInvalidate env x .content e = (.ok (), e) := by
    intro e
    rw [notifyInvalidate, Action.view_apply, hquiet.onInvalidate]
  rw [hrun, DocumentEntry.onDocument, replaceStable_eq hn] at h
  split at h
  · rw [Action.next_ok, hnotify] at h
    cases h
  · rename_i hcontent
    split at h
    · rw [Action.next_ok, hnotify] at h
      cases h
    · rename_i hfits
      cases h
      exact ⟨rfl, rfl, hcontent, hfits⟩

theorem updateBoth_ends (hquiet : env.Quiet) (hx : within → x ≠ 0) (title content : Bytes) :
    Action.Ends (fun e' => e' = e) (updateNode env x (some title) (some content)) (fun _ _ => True)
      fun failure e' => (SameNodes e e' ∨ TitleOnly e x title content e') ∧
        (within → Reported failure) := by
  refine ⟨fun _ _ _ _ _ => trivial, ?_⟩
  rintro e' failure e'' rfl h
  have hrun : updateNode env x (some title) (some content) e'
      = Action.next (fun _ => updateNode env x none (some content))
          (DocumentEntry.onDocument (setNodeTitle x title) e') := rfl
  cases hn : e'.document.lookup x with
  | none =>
      rw [hrun, DocumentEntry.onDocument, setNodeTitle, updateKnownNode, Action.bind_apply,
        Action.view_apply, nodeOr_of_missing hn] at h
      cases h
      exact ⟨.inl (.refl e'), fun hw => reported_missing (hx hw) _⟩
  | some n =>
      -- The title is set; then the node is live still, with the content it had.
      have htitled : (e'.document.modifyNode x (·.setTitle title)).lookup x
          = some (n.setTitle title) := by
        rw [lookup_modifyNode, if_pos rfl, hn]
        rfl
      rw [hrun, DocumentEntry.onDocument, setNodeTitle, updateKnownNode, Action.bind_apply,
        Action.view_apply, nodeOr_of_lookup hn] at h
      obtain ⟨rfl, rfl, hcontent, hfits⟩ := updateContent_stops hquiet
        (e := { e' with document := e'.document.modifyNode x (·.setTitle title) }) htitled h
      exact ⟨.inr ⟨rfl, n, hn, hcontent, hfits⟩, fun _ => reported_error _⟩

end Update

/-! ## The attachment of a leaf -/

section Attach

variable {e : DocumentEntry} {within : Prop} {x p : Nat} {source : Source} {env : Env}

/-- What a write of a content keeps. -/
theorem keeps_replace {I : DocumentEntry → Prop}
    (hI : ∀ e y content total, I e → I { e with
      document := e.document.withContent y (·.setContent content) total })
    (y : Nat) (content : Bytes) : Action.Keeps I (replaceNodeContentWithAccounting y content) := by
  refine Action.keeps_of fun e he => ?_
  cases hy : e.document.lookup y with
  | none =>
      rw [replaceNodeContentWithAccounting, withStableNode, Action.bind_apply, Action.view_apply,
        nodeOr_of_missing hy]
      exact he
  | some m =>
      rw [replaceContent_eq hy, DocumentEntry.onDocument, replaceStable_eq hy]
      split
      · exact he
      · split
        · exact hI e y content _ he
        · exact he

theorem hasLeaf_withContent (e : DocumentEntry) (y : Nat) (content : Bytes) (total : Nat)
    (he : HasLeaf x p source e) : HasLeaf x p source { e with
      document := e.document.withContent y (·.setContent content) total } := by
  obtain ⟨n, hn, hparent, hsource⟩ := he
  have hwritten : (e.document.modifyNode y (·.setContent content)).lookup x
      = some (if x = y then n.setContent content else n) := by
    rw [lookup_modifyNode, hn]
    split <;> rfl
  refine ⟨_, hwritten, ?_, ?_⟩
  · split <;> exact hparent
  · split <;> exact hsource

section Refresh

variable {I : DocumentEntry → Prop}
  (hI : ∀ y content, Action.Keeps I (replaceNodeContentWithAccounting y content))

include hI in
theorem keeps_refreshSource (visit y : Nat) : Action.Keeps I (refreshSource env visit y) := by
  refine (Action.advances_view Action.always_progress _).bind Action.always_progress fun node => ?_
  split
  · refine (hI y _).bind Action.always_progress fun changed => ?_
    split
    · exact Action.advances_view Action.always_progress _
    · exact Action.advances_pure Action.always_progress _
  · exact Action.advances_pure Action.always_progress _

variable (hquiet : env.Quiet)
include hquiet

theorem refuses_refreshSource (visit : Nat) {y : Nat} (hy : y ≠ 0) :
    Refuses e within (refreshSource env visit y) fun _ _ => True := by
  refine refuses_view_bind (fun _ => reports_findNode hy) fun node _ => ?_
  split
  · exact refuses_setNodeContentFromSource hquiet (fun _ => hy) _
  · exact Action.ends_pure fun _ _ => trivial

include hI in
/-- A refresh of the sources keeps what every write of a content keeps, whether it succeeds or
fails. -/
theorem refreshSources_ends (visit : Nat) :
    Action.Ends (fun e => I e ∧ Valid e.document) (refreshSourcesForDocument env visit)
      (fun _ => I) fun failure e => I e ∧ Reported failure := by
  refine Action.Ends.of_each ?_
  rintro e ⟨hstart, hv⟩
  obtain ⟨r, hr, -⟩ := hv.shape.root
  have hread : Action.Ends (fun e' => e' = e)
      (Action.view fun e => e.document.collectPreorderNodeIds)
      (fun nodeIds e' => I e' ∧ ∀ y ∈ nodeIds, y ≠ 0) fun failure e' => I e' ∧ Reported failure := by
    refine Action.ends_view ?_ ?_
    · rintro e' nodeIds rfl h
      rw [hv.shape.collectPreorderNodeIds_eq] at h
      cases h
      refine ⟨hstart, fun y hy => ?_⟩
      rw [Forest.mem_preorder] at hy
      obtain ⟨m, hm⟩ := hv.shape.live_of_below hr hy
      exact lookup_pos hm
    · rintro e' failure rfl h
      rw [hv.shape.collectPreorderNodeIds_eq] at h
      cases h
  refine hread.bind fun nodeIds => Action.Ends.of_each ?_
  rintro e' ⟨hread', hpos⟩
  have hloop : Action.Ends I (nodeIds.forM (refreshSource env visit)) (fun _ => I)
      fun failure e => I e ∧ Reported failure := by
    refine Action.ends_forM fun y hy => Action.Ends.of_each fun e₀ he₀ => ?_
    have hrefuses : Refuses e₀ True (refreshSource env visit y) fun _ _ => True :=
      refuses_refreshSource hquiet visit (hpos y hy)
    refine (hrefuses.keep (I := I) ?_).mono (fun _ h => h) (fun _ _ h => h.2) ?_
    · rintro e₁ rfl
      exact (keeps_refreshSource hI visit y e₁ he₀).1
    · rintro failure e₁ ⟨⟨-, hreport⟩, hkept⟩
      exact ⟨hkept, hreport trivial⟩
  exact hloop.pre fun e₀ he₀ => he₀ ▸ hread'

end Refresh

theorem attachLeaf_ends (hquiet : env.Quiet) (hs : Sane e) (documentPath : Bytes)
    (hnext : within → e.document.nextNodeId + 1 < u64Limit) (kind : NodeKind) (title : Bytes)
    (source : Source) :
    Action.Ends (fun e' => e' = e) (attachLeaf env documentPath kind title source)
      (fun _ _ => True)
      fun failure e' => (SameNodes e e' ∨ LeafAttached e source e') ∧
        (within → Reported failure) := by
  have hroot : e.document.rootNodeId ≠ 0 := by
    obtain ⟨r, hr⟩ := live_rootNodeId hs.valid
    exact lookup_pos hr
  have happend := (refuses_appendNodeWithRuntime hs.valid documentPath
    (fun hw : within => ⟨hroot, hnext hw⟩) kind title source).keep (I := Sane) (by
      rintro e' rfl
      exact (sound_appendNodeWithRuntime documentPath _ kind title source e' hs).1)
  have hrest : ∀ nodeId, Action.Ends
      (fun e' => (nodeId = e.document.nextNodeId ∧ ∃ n, e'.document.lookup nodeId = some n ∧
        n.parentId = some e.document.rootNodeId ∧ n.source = source) ∧ Sane e')
      (do
        refreshSourcesForDocument env 0
        notifyInvalidate env nodeId .structural
        return nodeId)
      (fun _ _ => True)
      fun failure e' => (SameNodes e e' ∨ LeafAttached e source e') ∧
        (within → Reported failure) := by
    intro nodeId
    refine Action.Ends.of_each ?_
    rintro e' ⟨⟨rfl, hleaf⟩, hs'⟩
    have hrefresh : Action.Ends (fun e' => LeafAttached e source e' ∧ Valid e'.document)
        (refreshSourcesForDocument env 0) (fun _ => LeafAttached e source)
        fun failure e' => LeafAttached e source e' ∧ Reported failure :=
      refreshSources_ends (keeps_replace hasLeaf_withContent) hquiet 0
    have hnotify : Settling (LeafAttached e source) (do
        notifyInvalidate env e.document.nextNodeId .structural
        return e.document.nextNodeId) fun _ _ => True :=
      settling_notify_pure hquiet _ .structural _
    refine (hrefresh.mono ?_ (fun _ _ h => h) ?_).bind fun _ =>
      hnotify.mono (fun _ h => h) (fun _ _ h => h) fun _ _ h => h.elim
    · rintro e₀ rfl
      exact ⟨hleaf, hs'.valid⟩
    · rintro failure e₀ ⟨hkept, hreport⟩
      exact ⟨.inr hkept, fun _ => hreport⟩
  have hread : Action.Ends (fun e' => e' = e)
      (Action.view fun e : DocumentEntry => (.ok e.document.rootNodeId : Except Failure Nat))
      (fun rootNodeId e' => e' = e ∧ rootNodeId = e.document.rootNodeId)
      fun failure e' => (SameNodes e e' ∨ LeafAttached e source e') ∧
        (within → Reported failure) := by
    refine Action.ends_view ?_ ?_
    · rintro e' rootNodeId rfl h
      cases h
      exact ⟨rfl, rfl⟩
    · rintro e' failure rfl h
      cases h
  refine hread.bind fun rootNodeId => Action.Ends.of_each ?_
  rintro e' ⟨rfl, rfl⟩
  refine (happend.mono (fun _ h => h) (fun _ _ h => h) ?_).bind hrest
  rintro failure e₀ ⟨⟨hsame, hreport⟩, -⟩
  exact ⟨.inl hsame, hreport⟩

end Attach

end Sequential

/-! ## Every call -/

section Calls

variable {α : Type} {e : DocumentEntry} {within : Prop} {f : EntryAction α}
  {Q : α → DocumentEntry → Prop} {H : DocumentEntry → Prop}

/-- A refusal is not half of anything. -/
theorem ends_orHalf (h : Refuses e within f Q) :
    Action.Ends (fun e' => e' = e) f (fun _ _ => True)
      fun failure e' => (SameNodes e e' ∨ H e') ∧ (within → Reported failure) :=
  h.mono (fun _ h => h) (fun _ _ _ => trivial) fun _ _ h => ⟨.inl h.1, h.2⟩

theorem ends_effect {E : Failure → DocumentEntry → Prop}
    (h : Action.Ends (fun e' => e' = e) f Q E) :
    Action.Ends (fun e' => e' = e) (effect f) (fun _ _ => True) E :=
  h.bind fun _ => Action.ends_pure fun _ _ => trivial

open Daemon.Sequential in
/-- One call, on any document that calls to the store can lead to. -/
theorem storeCall_ends (hs : Sane e) {env : Env} (hquiet : env.Quiet) (documentPath : Bytes)
    {call : StoreCall} (hone : call.OneNode) :
    Action.Ends (fun e' => e' = e) (call.reading env documentPath) (fun _ _ => True)
      fun failure e' => (SameNodes e e' ∨ call.HalfDone e e') ∧
        (call.InRange e.document → Reported failure) := by
  have hv := hs.valid
  cases call with
  | appendNode p kind title =>
      exact ends_orHalf (ends_effect (refuses_appendNode hv hquiet documentPath id kind title))
  | attachSyntheticTty p title sessionName =>
      exact ends_orHalf (ends_effect
        (refuses_attachSyntheticTty hv hquiet documentPath id title sessionName))
  | attachFile path mode =>
      exact ends_effect (attachLeaf_ends hquiet hs documentPath id _ path _)
  | attachTty sessionName =>
      exact ends_effect (attachLeaf_ends hquiet hs documentPath id .ttyLeaf sessionName _)
  | updateNode x title content =>
      cases title with
      | none =>
          cases content with
          | none => exact ends_orHalf (refuses_updateNothing hquiet)
          | some content => exact ends_orHalf (refuses_updateContent hquiet id content)
      | some title =>
          cases content with
          | none => exact ends_orHalf (refuses_updateTitle hquiet id title)
          | some content => exact updateBoth_ends hquiet id title content
  | appendTextChunk x chunk => exact ends_orHalf (refuses_appendTextChunk hquiet id chunk)
  | pushSyntheticTtyChunk x chunk =>
      exact ends_orHalf (refuses_pushSyntheticTtyChunk hquiet id chunk)
  | removeNode x =>
      exact ends_orHalf (refuses_removeNode hv hquiet id)
  | setViewRoot x => exact ends_orHalf (refuses_onDocument (refusesEdit_view _ id))
  | toggleElided x => exact ends_orHalf (refuses_onDocument (refusesEdit_view _ id))
  | expandNode x => exact ends_orHalf (refuses_onDocument (refusesEdit_view _ id))
  | clearViewRoot =>
      exact ends_orHalf (refuses_onDocument (Q := fun _ _ => True) (refusesEdit_modify trivial))
  | resetView =>
      exact ends_orHalf (refuses_onDocument (Q := fun _ _ => True) (refusesEdit_modify trivial))
  | freezeDocument =>
      exact ends_orHalf (refuses_onDocument (Q := fun _ _ => True) (refusesEdit_modify trivial))
  | freezeNode x artifactKind =>
      exact ends_orHalf (refuses_freezeTerminalNode hquiet id artifactKind)
  | setFileFollowTail x enabled => exact ends_orHalf (refuses_setFileFollowTail hquiet id enabled)
  | captureTmuxPane paneId capture =>
      exact ends_orHalf (refuses_captureTmuxPane hv hquiet paneId capture)
  | tmuxOutput paneId normalized =>
      exact ends_orHalf (refuses_appendTmuxPaneOutput hv hquiet paneId normalized)
  | windowRenamed windowId windowName =>
      exact ends_orHalf (ends_effect (refuses_tryApplyWindowRenamed hv hquiet windowId windowName))
  | windowClose windowId => exact ends_orHalf (refuses_tryApplyWindowClose hv hquiet windowId)
  | setPaneFollowTail paneId enabled =>
      exact ends_orHalf (refuses_setPaneFollowTail hv hquiet paneId enabled)
  | refreshSources visit => exact hone.elim
  | rebuildTmuxSession visit p snapshots => exact hone.elim
  | projectNewPane visit p snapshots paneId => exact hone.elim
  | reconcileTmuxState visit snapshots => exact hone.elim
  | closeTmuxPane visit remaining again paneId => exact hone.elim

end Calls

end Muxly.Daemon
