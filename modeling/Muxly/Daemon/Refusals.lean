/-
# Muxly.Daemon.Refusals -- what an operation that fails has done

`Refuses e within f Q`: run on the entry `e`, the operation `f` either succeeds, and then `Q` holds,
or it leaves the nodes of `e` as they were; and if what it was called with is `within` range, its
failure is an error that the request is told about. Every operation of the store that makes a single
edit refuses in this way. Those that make several are `updateNode` with a title and a content, and
the attachment of a leaf, which refreshes all sources after it.

The streams are taken to accept what they are notified of.
-/
import Muxly.Core.Refusals
import Muxly.Core.Removals
import Muxly.Daemon.StoreRuns

namespace Muxly.Daemon

open Muxly.Control Muxly.Core Muxly.Sync Muxly.Tree
open Document

/-- No stream refuses a notification. -/
structure Env.Quiet (env : Env) : Prop where
  onInvalidate : ∀ d x reason, env.onInvalidate d x reason = .ok ()
  onTtyData : ∀ d x chunk, env.onTtyData d x chunk = .ok ()

/-- The same entry, but for the node id that is given out next. -/
def SameNodes (e e' : DocumentEntry) : Prop :=
  ∃ nextNodeId, e' = { e with document := { e.document with nextNodeId := nextNodeId } }

theorem SameNodes.refl (e : DocumentEntry) : SameNodes e e := ⟨e.document.nextNodeId, rfl⟩

/-! ## Edits of a document -/

/-- `m` succeeds, or leaves the document as it was and reports why. -/
abbrev RefusesEdit {α : Type} (d : Document) (within : Prop) (m : DocM α)
    (Q : α → Document → Prop) : Prop :=
  Action.Ends (fun d' => d' = d) m Q fun failure d' => d' = d ∧ (within → Reported failure)

section Edits

variable {α : Type} {d : Document} {within : Prop} {Q : α → Document → Prop}

/-- An edit that starts by looking up its node. -/
theorem refusesEdit_known {x : Nat} {err : Err} {k : Node → DocM α} (hx : within → x ≠ 0)
    (hk : ∀ n, d.lookup x = some n → RefusesEdit d within (k n) Q) :
    RefusesEdit d within (Action.view (fun d => d.nodeOr x err) >>= k) Q := by
  have hlook : RefusesEdit d within (Action.view fun d => d.nodeOr x err)
      fun n d' => d' = d ∧ d.lookup x = some n := by
    refine Action.ends_view ?_ ?_
    · rintro d' n rfl hn
      exact ⟨rfl, nodeOr_eq_ok.mp hn⟩
    · rintro d' failure rfl hfail
      exact ⟨rfl, fun hw => reports_nodeOr (hx hw) err failure hfail⟩
  refine hlook.bind fun n => Action.Ends.of_each ?_
  rintro d' ⟨rfl, hn⟩
  exact hk n hn

theorem refusesEdit_modify {f : Document → Document} {Q : PUnit → Document → Prop}
    (hQ : Q ⟨⟩ (f d)) : RefusesEdit d within (modify f) Q := by
  refine Action.ends_modify ?_
  rintro d' rfl
  exact hQ

/-- A write to a live node. -/
theorem refusesEdit_updateKnownNode {x : Nat} (f : Node → Node) (hx : within → x ≠ 0) :
    RefusesEdit d within (updateKnownNode x f) fun _ d' => d' = d.modifyNode x f :=
  refusesEdit_known hx fun _ _ => refusesEdit_modify rfl

/-- A replacement of the content of a live node writes, or finds nothing to write, or is refused. -/
theorem replaceStable_eq {x : Nat} {n : Node} (hn : d.lookup x = some n) (content : Bytes) :
    replaceStableNodeContent x content d
      = if n.content = content then (.ok false, d)
        else if d.FitsReplace n.content.length content.length then
          (.ok true, d.withContent x (·.setContent content)
            (d.contentBytes - n.content.length + content.length))
        else (.error (.error .documentTooLarge), d) := by
  simp only [replaceStableNodeContent, Action.bind_apply, Action.view_apply, deref_of_lookup hn,
    Action.next_ok]
  split
  · rfl
  · rw [Action.bind_apply, setContent_eq hn]
    split <;> rfl

theorem refusesEdit_replace {x : Nat} {n : Node} (hn : d.lookup x = some n) (content : Bytes) :
    RefusesEdit d within (replaceStableNodeContent x content)
      fun _ d' => ∃ n', d'.lookup x = some n' ∧ n'.source = n.source := by
  have hrun := replaceStable_eq hn content
  constructor
  · rintro d' a d'' rfl h
    rw [hrun] at h
    split at h
    · cases h
      exact ⟨n, hn, rfl⟩
    · split at h
      · cases h
        refine ⟨n.setContent content, ?_, rfl⟩
        show (d'.modifyNode x _).lookup x = _
        rw [lookup_modifyNode, if_pos rfl, hn]
        rfl
      · cases h
  · rintro d' failure d'' rfl h
    rw [hrun] at h
    split at h
    · cases h
    · split at h
      · cases h
      · cases h
        exact ⟨rfl, fun _ => reported_error _⟩

theorem refusesEdit_appendText {x : Nat} {n : Node} (hn : d.lookup x = some n) (chunk : Bytes) :
    RefusesEdit d within (appendTextToStableNode x chunk) fun _ _ => True where
  returns _ _ _ _ _ := trivial
  stops d' failure d'' hd h := by
    subst hd
    rw [appendText_eq hn] at h
    split at h
    · cases h
    · cases h
      exact ⟨rfl, fun _ => reported_error _⟩

/-- A change of the view that starts by looking up its node. -/
theorem refusesEdit_view {x : Nat} (f : Document → Document) (hx : within → x ≠ 0) :
    RefusesEdit d within (do
      let _ ← Action.view fun d => d.nodeOr x .unknownNode
      modify f) fun _ _ => True := refusesEdit_known hx fun _ _ => refusesEdit_modify trivial

end Edits

/-! ## Operations on an entry -/

/-- `f` succeeds, or leaves the nodes as they were and reports why. -/
abbrev Refuses {α : Type} (e : DocumentEntry) (within : Prop) (f : EntryAction α)
    (Q : α → DocumentEntry → Prop) : Prop :=
  Action.Ends (fun e' => e' = e) f Q
    fun failure e' => SameNodes e e' ∧ (within → Reported failure)

/-- `f` cannot fail. -/
abbrev Settling {α : Type} (P : DocumentEntry → Prop) (f : EntryAction α)
    (Q : α → DocumentEntry → Prop) : Prop := Action.Ends P f Q fun _ _ => False

section Rules

variable {α β : Type} {e : DocumentEntry} {within : Prop} {Q : α → DocumentEntry → Prop}
  {R : β → DocumentEntry → Prop} {f : EntryAction α} {k : α → EntryAction β}

/-- What follows an edit does not fail. -/
theorem refuses_settling (hf : Refuses e within f Q) (hk : ∀ a, Settling (Q a) (k a) R) :
    Refuses e within (f >>= k) R :=
  hf.bind fun a => (hk a).mono (fun _ h => h) (fun _ _ h => h) fun _ _ h => h.elim

/-- What comes before an edit only reads. -/
theorem refuses_view_bind {g : DocumentEntry → Except Failure α} (hg : within → Reports (g e))
    (hk : ∀ a, g e = .ok a → Refuses e within (k a) R) :
    Refuses e within (Action.view g >>= k) R := by
  have hread : Refuses e within (Action.view g) fun a e' => e' = e ∧ g e = .ok a := by
    refine Action.ends_view ?_ ?_
    · rintro e' a rfl ha
      exact ⟨rfl, ha⟩
    · rintro e' failure rfl hfail
      exact ⟨.refl e', fun hw => hg hw failure hfail⟩
  refine hread.bind fun a => Action.Ends.of_each ?_
  rintro e' ⟨rfl, ha⟩
  exact hk a ha

theorem refuses_onDocument {m : DocM α} {Q : α → Document → Prop}
    (hm : RefusesEdit e.document within m Q) :
    Refuses e within (DocumentEntry.onDocument m) fun a e' => Q a e'.document := by
  constructor
  · rintro e' a e'' rfl h
    obtain ⟨hresult, rfl⟩ := Prod.mk.inj h
    exact hm.returns e'.document a _ rfl (Prod.ext hresult rfl)
  · rintro e' failure e'' rfl h
    obtain ⟨hresult, rfl⟩ := Prod.mk.inj h
    obtain ⟨hsame, hreport⟩ := hm.stops e'.document failure _ rfl (Prod.ext hresult rfl)
    exact ⟨⟨e'.document.nextNodeId,
      congrArg (fun d => { e' with document := d }) hsame⟩, hreport⟩

end Rules

/-! ## How a node is removed -/

section Removals

variable {d : Document} (hv : Valid d)
include hv

theorem reports_classify {x : Nat} (hx : x ≠ 0) :
    Reports (classifyRemoveExecutionMode d x) := by
  by_cases hroot : x = d.rootNodeId
  · rw [classifyRemoveExecutionMode, if_pos hroot]
    exact stopsWith_ok _
  cases hn : d.lookup x with
  | none =>
      unfold classifyRemoveExecutionMode
      rw [if_neg hroot]
      refine (reports_nodeOr hx _).bind fun n hfound => ?_
      rw [nodeOr_of_missing hn] at hfound
      cases hfound
  | some n =>
      obtain ⟨p, hp, -⟩ := hv.shape.parent hn (hv.shape.rootNodeId ▸ hroot)
      obtain ⟨m, hm, -⟩ := hv.linked hn hp
      rw [classify_eq hroot hn hp hm]
      split
      · split <;> exact stopsWith_ok _
      · split
        · exact stopsWith_ok _
        · refine (reports_domainRoot hv _ hx).bind fun domainId _ => ?_
          cases domainId with
          | none => exact stopsWith_ok _
          | some r =>
              dsimp only
              split
              · exact stopsWith_ok _
              · refine (reports_subtreeContains hv _ hx).bind fun contains _ => ?_
                cases contains <;> exact stopsWith_ok _

theorem reports_resolveRemoval {x : Nat} (hx : x ≠ 0) : Reports (resolveRemoval d x) := by
  refine (reports_classify hv hx).bind fun mode _ => ?_
  split
  · exact reports_throw _
  · refine (reports_nodeOr hx _).bind fun n _ => ?_
    cases n.parentId with
    | none => exact reports_throw _
    | some p => exact stopsWith_ok _

end Removals

namespace Sequential

section Notifications

variable {α : Type} {env : Env} (hquiet : env.Quiet) {P : DocumentEntry → Prop}
include hquiet

theorem settling_notifyInvalidate (x : Nat) (reason : ProjectionEventReason) :
    Settling P (notifyInvalidate env x reason) fun _ => P := by
  refine Action.ends_view (fun e _ he _ => he) fun e failure _ h => ?_
  rw [hquiet.onInvalidate] at h
  cases h

theorem settling_notifyTtyData (x : Nat) (chunk : Bytes) :
    Settling P (notifyTtyData env x chunk) fun _ => P := by
  refine Action.ends_view (fun e _ he _ => he) fun e failure _ h => ?_
  rw [hquiet.onTtyData] at h
  cases h

/-- The notification at the end of an operation that returns something. -/
theorem settling_notify_pure (x : Nat) (reason : ProjectionEventReason) (a : α) :
    Settling P (do
      notifyInvalidate env x reason
      return a) fun _ _ => True :=
  (settling_notifyInvalidate hquiet x reason).bind fun _ =>
    Action.ends_pure fun _ _ => trivial

end Notifications

/-! ## Content -/

section Content

variable {e : DocumentEntry} {within : Prop} {x : Nat}

theorem refuses_withStableNode {α : Type} {check : Node → Except Failure Unit}
    {body : EntryAction α} {Q : α → DocumentEntry → Prop} (hx : within → x ≠ 0)
    (hcheck : ∀ n, Reports (check n))
    (hbody : ∀ n, e.document.lookup x = some n → check n = .ok () → Refuses e within body Q) :
    Refuses e within (withStableNode x check body) Q := by
  refine refuses_view_bind (fun hw => ?_) fun _ h => ?_
  · exact (reports_nodeOr (hx hw) _).bind fun n _ => hcheck n
  · obtain ⟨n, hn, hok⟩ := bind_eq_ok.mp h
    exact hbody n (nodeOr_eq_ok.mp hn) hok

theorem refuses_replaceContent (hx : within → x ≠ 0) (content : Bytes) :
    Refuses e within (replaceNodeContentWithAccounting x content) fun _ e' =>
      ∃ n n', e.document.lookup x = some n ∧ e'.document.lookup x = some n' ∧
        n'.source = n.source := by
  refine refuses_withStableNode hx (fun _ => stopsWith_ok ()) fun n hn _ => ?_
  refine (refuses_onDocument (refusesEdit_replace hn content)).mono (fun _ h => h) ?_
    fun _ _ h => h
  rintro _ e' ⟨n', hn', hsource⟩
  exact ⟨n, n', hn, hn', hsource⟩

theorem refuses_appendContent (hx : within → x ≠ 0) (chunk : Bytes) :
    Refuses e within (appendNodeContentWithAccounting x chunk) fun _ _ => True :=
  refuses_withStableNode hx (fun _ => stopsWith_ok ()) fun _ hn _ =>
    refuses_onDocument (refusesEdit_appendText hn chunk)

theorem reports_isSyntheticTty (n : Node) : Reports (isSyntheticTty n) := by
  unfold isSyntheticTty
  split
  · split
    · exact reports_throw _
    · exact stopsWith_ok ()
  · exact reports_throw _

variable {env : Env} (hquiet : env.Quiet)
include hquiet

theorem refuses_setNodeContentFromSource (hx : within → x ≠ 0) (content : Bytes) :
    Refuses e within (setNodeContentFromSource env x content) fun _ _ => True := by
  refine refuses_settling (refuses_replaceContent hx content) fun changed => ?_
  cases changed with
  | true =>
      exact (settling_notifyInvalidate hquiet x .content).mono (fun _ h => h)
        (fun _ _ _ => trivial) fun _ _ h => h
  | false => exact Action.ends_pure fun _ _ => trivial

theorem refuses_appendTextChunk (hx : within → x ≠ 0) (chunk : Bytes) :
    Refuses e within (appendTextChunk env x chunk) fun _ _ => True :=
  refuses_settling (refuses_appendContent hx chunk) fun _ =>
    settling_notifyInvalidate hquiet x .content

theorem refuses_pushSyntheticTtyChunk (hx : within → x ≠ 0) (chunk : Bytes) :
    Refuses e within (pushSyntheticTtyChunk env x chunk) fun _ _ => True := by
  refine refuses_withStableNode hx reports_isSyntheticTty fun n hn _ => ?_
  refine refuses_settling (refuses_onDocument (refusesEdit_appendText hn chunk)) fun _ => ?_
  exact (settling_notifyInvalidate hquiet x .content).bind fun _ =>
    settling_notifyTtyData hquiet x chunk

/-- An update of the content only. -/
theorem refuses_updateContent (hx : within → x ≠ 0) (content : Bytes) :
    Refuses e within (updateNode env x none (some content)) fun _ _ => True :=
  refuses_settling (refuses_replaceContent hx content) fun _ =>
    (settling_notifyInvalidate hquiet x .content).mono (fun _ h => h) (fun _ _ _ => trivial)
      fun _ _ h => h

/-- An update of the title only. -/
theorem refuses_updateTitle (hx : within → x ≠ 0) (title : Bytes) :
    Refuses e within (updateNode env x (some title) none) fun _ _ => True :=
  refuses_settling (refuses_onDocument (refusesEdit_updateKnownNode _ hx)) fun _ =>
    (settling_notifyInvalidate hquiet x .metadata).mono (fun _ h => h) (fun _ _ _ => trivial)
      fun _ _ h => h

/-- An update of nothing only notifies. -/
theorem refuses_updateNothing : Refuses e within (updateNode env x none none) fun _ _ => True :=
  (settling_notifyInvalidate hquiet x .metadata).mono (fun _ h => h) (fun _ _ _ => trivial)
    fun _ _ h => h.elim

theorem refuses_setFileFollowTail (hx : within → x ≠ 0) (enabled : Bool) :
    Refuses e within (setFileFollowTail env x enabled) fun _ _ => True := by
  have hedit : RefusesEdit e.document within (do
      let node ← Action.view fun d => d.nodeOr x .unknownNode
      Action.lift (requireFileSource node)
      modify (·.modifyNode x fun node => { node with followTail := enabled }))
      fun _ _ => True := by
    refine refusesEdit_known hx fun n _ => ?_
    have hlift : RefusesEdit e.document within (Action.lift (requireFileSource n))
        fun _ d' => d' = e.document := by
      refine Action.ends_lift (fun d' _ hd _ => hd) fun d' failure hd h => ⟨hd, fun _ => ?_⟩
      unfold requireFileSource at h
      split at h
      · cases h
      · cases h
        exact reported_error _
    exact hlift.bind fun _ => refusesEdit_modify trivial
  exact refuses_settling (refuses_onDocument hedit) fun _ =>
    (settling_notifyInvalidate hquiet x .metadata)

/-- The capture of a pane replaces the content only; then the node is a tty node still. -/
theorem refuses_freezeTerminalNode (hx : within → x ≠ 0) (artifactKind : TerminalArtifactKind) :
    Refuses e within (freezeTerminalNode env x artifactKind) fun _ _ => True := by
  have hcapture : Refuses e within (captureTerminalArtifact env x artifactKind)
      fun _ e' => ∃ n' tty, e'.document.lookup x = some n' ∧ n'.source = .tty tty := by
    refine refuses_view_bind (fun hw => ?_) fun captured hcaptured => ?_
    · refine StopsWith.bind ((reports_nodeOr (hx hw) _).bind fun n _ => ?_) fun paneId _ => ?_
      · split
        · split
          · exact stopsWith_ok _
          · exact reports_throw _
        · exact reports_throw _
      · unfold artifactCapture
        split
        · split
          · exact stopsWith_ok _
          · exact stopsWith_error (reported_error _)
        · split
          · exact stopsWith_ok _
          · exact stopsWith_error (reported_error _)
    · -- The pane was read from a tty source.
      obtain ⟨paneId, hpane, -⟩ := bind_eq_ok.mp hcaptured
      obtain ⟨n, hn, hpane⟩ := bind_eq_ok.mp hpane
      have hlook := nodeOr_eq_ok.mp hn
      refine (refuses_replaceContent hx captured.1).bind fun changed => Action.ends_pure ?_
      rintro e' ⟨m, n', hm, hn', hsource⟩
      rw [hlook] at hm
      cases hm
      split at hpane
      · rename_i tty htty
        exact ⟨n', tty, hn', hsource.trans htty⟩
      · cases hpane
  refine refuses_settling hcapture fun sections => ?_
  have hfreeze : Settling (fun e' => ∃ n' tty, e'.document.lookup x = some n' ∧
      n'.source = .tty tty) (DocumentEntry.onDocument (freezeTtyNodeAsArtifact x artifactKind
        sections)) fun _ _ => True := by
    refine ⟨fun _ _ _ _ _ => trivial, ?_⟩
    rintro e' failure e'' ⟨n', tty, hn', htty⟩ h
    rw [DocumentEntry.onDocument, freezeTtyNodeAsArtifact, Action.bind_apply, Action.view_apply,
      nodeOr_of_lookup hn', Action.next_ok, htty] at h
    cases h
  exact hfreeze.bind fun _ => settling_notifyInvalidate hquiet x .structural

end Content

/-! ## Structure -/

section Structure

variable {e : DocumentEntry} {within : Prop} (hv : Valid e.document)
include hv

theorem refuses_commitAppend {p : Nat}
    (hp : within → p ≠ 0 ∧ e.document.nextNodeId + 1 < u64Limit) (kind : NodeKind)
    (title : Bytes) (source : Source) :
    Refuses e within (commitAppend p kind title source) fun x e' =>
      x = e.document.nextNodeId ∧
        ∃ n, e'.document.lookup x = some n ∧ n.parentId = some p ∧ n.source = source := by
  have hedit : Refuses e within
      (DocumentEntry.onDocument (Document.appendNode p kind title source)) fun x e' =>
        x = e.document.nextNodeId ∧
          ∃ n, e'.document.lookup x = some n ∧ n.parentId = some p ∧ n.source = source := by
    rcases appendNode_cases hv.shape p kind title source with
      ⟨-, hparent, name, -, heq⟩ | ⟨-, -, heq⟩ | ⟨hlimit, heq⟩
    · have ha := attachable_prepared hparent kind title source name
      constructor
      · rintro e' x e'' rfl h
        rw [DocumentEntry.onDocument, heq] at h
        cases h
        refine ⟨rfl, preparedNode e'.document.nextNodeId p kind title source name, ?_, rfl, rfl⟩
        show (e'.document.bumped.attached p _).lookup e'.document.nextNodeId = _
        rw [ha.lookup_bumped hv.shape]
        exact if_pos rfl
      · rintro e' failure e'' rfl h
        rw [DocumentEntry.onDocument, heq] at h
        cases h
    · constructor
      · rintro e' x e'' rfl h
        rw [DocumentEntry.onDocument, heq] at h
        cases h
      · rintro e' failure e'' rfl h
        rw [DocumentEntry.onDocument, heq] at h
        cases h
        exact ⟨⟨_, rfl⟩, fun hw => reported_missing (hp hw).1 _⟩
    · constructor
      · rintro e' x e'' rfl h
        rw [DocumentEntry.onDocument, heq] at h
        cases h
      · rintro e' failure e'' rfl h
        rw [DocumentEntry.onDocument, heq] at h
        cases h
        exact ⟨.refl e', fun hw => absurd (hp hw).2 hlimit⟩
  refine refuses_settling hedit fun x => ?_
  refine Action.Ends.bind (Q := fun _ e' => x = e.document.nextNodeId ∧
    ∃ n, e'.document.lookup x = some n ∧ n.parentId = some p ∧ n.source = source)
    (Action.ends_modify fun e' h => h) fun _ => Action.ends_pure fun e' h => h

theorem refuses_appendNodeWithRuntime (documentPath : Bytes) {p : Nat}
    (hp : within → p ≠ 0 ∧ e.document.nextNodeId + 1 < u64Limit) (kind : NodeKind)
    (title : Bytes) (source : Source) :
    Refuses e within (appendNodeWithRuntime documentPath p kind title source) fun x e' =>
      x = e.document.nextNodeId ∧
        ∃ n, e'.document.lookup x = some n ∧ n.parentId = some p ∧ n.source = source := by
  have hcommit := refuses_commitAppend hv hp kind title source
  unfold appendNodeWithRuntime
  split
  · refine refuses_view_bind (g := fun _ => .ok false) (fun _ => stopsWith_ok _) fun _ _ => ?_
    exact hcommit
  · refine refuses_view_bind (fun hw => ?_) fun _ _ => hcommit
    unfold appendNeedsCoordinatorParentLock
    split
    · exact stopsWith_ok _
    · refine (reports_findNode (hp hw).1).bind fun found _ => ?_
      cases found with
      | none => exact stopsWith_ok _
      | some parent => exact stopsWith_ok _

section Notified

variable {env : Env} (hquiet : env.Quiet)
include hquiet

theorem refuses_appendNode (documentPath : Bytes) {p : Nat}
    (hp : within → p ≠ 0 ∧ e.document.nextNodeId + 1 < u64Limit) (kind : NodeKind)
    (title : Bytes) : Refuses e within (appendNode env documentPath p kind title) fun _ _ => True :=
  refuses_settling (refuses_appendNodeWithRuntime hv documentPath hp kind title .none) fun x =>
    settling_notify_pure hquiet x .structural x

theorem refuses_attachSyntheticTty (documentPath : Bytes) {p : Nat}
    (hp : within → p ≠ 0 ∧ e.document.nextNodeId + 1 < u64Limit) (title sessionName : Bytes) :
    Refuses e within (attachSyntheticTty env documentPath p title sessionName) fun _ _ => True :=
  refuses_settling (refuses_appendNodeWithRuntime hv documentPath hp .ttyLeaf title _) fun x =>
    settling_notify_pure hquiet x .structural x

end Notified

/-- A removal that got as far as measuring its nodes goes through. -/
theorem refuses_removeNodeWithRuntime {x : Nat} (hx : within → x ≠ 0) :
    Refuses e within (removeNodeWithRuntime x) fun _ _ => True := by
  refine ⟨fun _ _ _ _ _ => trivial, ?_⟩
  rintro e' failure e'' rfl h
  cases hresolve : resolveRemoval e'.document x with
  | error f =>
      simp only [removeNodeWithRuntime, Action.bind_apply, Action.view_apply, hresolve,
        Action.next_error] at h
      cases h
      exact ⟨.refl e', fun hw => reports_resolveRemoval hv (hx hw) failure hresolve⟩
  | ok resolved =>
      obtain ⟨mode, p⟩ := resolved
      obtain ⟨-, n, hr⟩ := resolveRemoval_ok hresolve
      obtain ⟨postorder, hpost, hmeasure⟩ := measureRemoval_eq hv hr
      obtain ⟨hremovable, -, -, -⟩ := hv.removal hr.node hr.parentId hpost
      have hle := hv.sum_content_le hremovable.nodup hremovable.live
      have hrun : removeNodeWithRuntime x e'
          = commitRemoval p x postorder (postorder.map e'.document.contentLength).sum e' := by
        simp only [removeNodeWithRuntime, Action.bind_apply, Action.view_apply, hresolve,
          Action.next_ok, hmeasure]
      rw [hrun] at h
      obtain ⟨m, hm⟩ := hr.parent
      rcases commitRemoval_cases hv.shape hremovable (postorder.map e'.document.contentLength).sum
        with heq | ⟨hdrift, -⟩ | ⟨-, heq⟩
      · rw [heq] at h
        cases h
        exact ⟨.refl e', fun _ => reported_missing (lookup_pos hm) _⟩
      · omega
      · rw [heq] at h
        cases h

theorem refuses_removeNode {env : Env} (hquiet : env.Quiet) {x : Nat} (hx : within → x ≠ 0) :
    Refuses e within (removeNode env x) fun _ _ => True :=
  refuses_settling (refuses_removeNodeWithRuntime hv hx) fun _ =>
    settling_notifyInvalidate hquiet x .structural

end Structure

/-! ## Panes of tmux -/

section Panes

variable {e : DocumentEntry} {within : Prop} (hv : Valid e.document)
include hv

/-- The search by a pane always ends. -/
theorem findNodeIdByPaneId_ends (paneId : Bytes) :
    ∃ found, findNodeIdByPaneId e.document paneId = .ok found := by
  obtain ⟨r, hr, -⟩ := hv.shape.root
  let hit : Nat → Bool := fun y =>
    (e.document.lookup y).any fun n => ttyPaneId n.source == some paneId
  refine ⟨(hv.shape.forest.preorder 1).find? hit, ?_⟩
  unfold findNodeIdByPaneId
  rw [hv.shape.collectPreorderNodeIds_eq]
  refine findM?_ok fun y hy => ?_
  rw [Forest.mem_preorder] at hy
  obtain ⟨m, hm⟩ := hv.shape.live_of_below hr hy
  rw [findNode_of_ne_zero (lookup_pos hm), hm]
  show Except.ok _ = Except.ok ((e.document.lookup y).any _)
  rw [hm]
  rfl

/-- What an operation does with the node of a pane. -/
theorem refuses_findPane {α : Type} {paneId : Bytes} {k : Option Nat → EntryAction α}
    {Q : α → DocumentEntry → Prop} (hnone : Refuses e within (k none) Q)
    (hsome : ∀ x n, e.document.lookup x = some n → Refuses e within (k (some x)) Q) :
    Refuses e within (Action.view (fun e => findNodeIdByPaneId e.document paneId) >>= k) Q := by
  obtain ⟨found, hfound⟩ := findNodeIdByPaneId_ends hv paneId
  refine refuses_view_bind (fun _ => reports_of_ok hfound) fun found' hfound' => ?_
  cases found' with
  | none => exact hnone
  | some x =>
      obtain ⟨n, hn, -⟩ := findNodeIdByPaneId_some hfound'
      exact hsome x n hn

variable {env : Env} (hquiet : env.Quiet)
include hquiet

theorem refuses_captureTmuxPane (paneId capture : Bytes) :
    Refuses e within (captureTmuxPane env paneId capture) fun _ _ => True := by
  refine refuses_findPane hv (Action.ends_pure fun _ _ => trivial) fun x n hn => ?_
  refine refuses_view_bind (fun _ => reports_findNode (lookup_pos hn)) fun found _ => ?_
  split
  · exact refuses_setNodeContentFromSource hquiet (fun _ => lookup_pos hn) capture
  · exact Action.ends_pure fun _ _ => trivial

theorem refuses_appendTmuxPaneOutput (paneId normalized : Bytes) :
    Refuses e within (appendTmuxPaneOutput env paneId normalized) fun _ _ => True := by
  refine refuses_findPane hv
    (Action.ends_throw fun e' he => ⟨he ▸ .refl e', fun _ => reported_error _⟩) fun x n hn => ?_
  refine refuses_view_bind (fun _ => reports_nodeOr (lookup_pos hn) _) fun node _ => ?_
  split
  · exact Action.ends_pure fun _ _ => trivial
  · refine refuses_settling (refuses_onDocument (refusesEdit_appendText hn normalized)) fun _ => ?_
    exact (settling_notifyInvalidate hquiet x .content).bind fun _ =>
      settling_notifyTtyData hquiet x normalized

theorem refuses_setPaneFollowTail (paneId : Bytes) (enabled : Bool) :
    Refuses e within (setPaneFollowTail env paneId enabled) fun _ _ => True := by
  refine refuses_findPane hv
    (Action.ends_throw fun e' he => ⟨he ▸ .refl e', fun _ => reported_error _⟩) fun x n hn => ?_
  refine refuses_settling (Q := fun _ _ => True) ?_ fun _ =>
    settling_notifyInvalidate hquiet x .metadata
  exact (refuses_onDocument (refusesEdit_updateKnownNode _ fun _ => lookup_pos hn)).mono
    (fun _ h => h) (fun _ _ _ => trivial) fun _ _ h => h

theorem refuses_tryApplyWindowRenamed (windowId windowName : Bytes) :
    Refuses e within (tryApplyWindowRenamed env windowId windowName) fun _ _ => True := by
  obtain ⟨found, hfound, -⟩ :=
    findNodeByBackendId_live hv (windowBackendPrefix ++ windowId)
  refine refuses_view_bind (fun _ => reports_of_ok hfound) fun node _ => ?_
  cases node with
  | none => exact Action.ends_pure fun _ _ => trivial
  | some node =>
      refine refuses_settling (Q := fun _ _ => True) (Action.ends_modify fun _ _ => trivial)
        fun _ => ?_
      exact settling_notify_pure hquiet node.id .metadata true

/-- What a removal refuses, a close drops. -/
theorem refuses_tryApplyWindowClose (windowId : Bytes) :
    Refuses e within (tryApplyWindowClose env windowId) fun _ _ => True := by
  obtain ⟨found, hfound, hlive⟩ :=
    findNodeByBackendId_live hv (windowBackendPrefix ++ windowId)
  refine refuses_view_bind (fun _ => reports_of_ok hfound) fun node hnode => ?_
  cases node with
  | none => exact Action.ends_pure fun _ _ => trivial
  | some node =>
      rw [hfound] at hnode
      cases hnode
      have hpos := lookup_pos (hlive node rfl)
      refine refuses_settling (Q := fun _ _ => True) ?_ fun removed => ?_
      · refine ⟨fun _ _ _ _ _ => trivial, ?_⟩
        rintro e' failure e'' rfl h
        -- The removal goes through, or it fails with an error, which is dropped.
        rcases (hv.removeSubtree_outcome node.id).mpr hpos with ⟨err, hrun⟩ | ⟨d', hrun, -⟩
        · simp only [tryCatch, MonadExcept.tryCatch,
            Action.bind_apply, DocumentEntry.onDocument, hrun, Action.next_error] at h
          cases h
        · simp only [tryCatch, MonadExcept.tryCatch,
            Action.bind_apply, DocumentEntry.onDocument, hrun, Action.next_ok] at h
          cases h
      · cases removed with
        | false => exact Action.ends_pure fun _ _ => trivial
        | true =>
            exact Action.Ends.bind (Q := fun _ _ => True) (Action.ends_modify fun _ _ => trivial)
              fun _ => settling_notifyInvalidate hquiet node.id .structural

end Panes

end Sequential

end Muxly.Daemon
