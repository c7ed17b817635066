/-
# Muxly.Daemon.ContentCap -- the byte count and the content cap

Runs of content writes, appends and removals on a document that starts with no content, through the
functions of `document.zig` and of `store.zig`. The count stays the sum of the live contents and
under the cap, and a write is refused exactly when it would pass the cap.

A removal of the root of a childless document leaves no node at all (`Hollow`); every other state of
such a run is `Valid`.
-/
import Mathlib.Init
import Muxly.Daemon.Removal

namespace Muxly.Daemon

open Muxly.Control Muxly.Core Muxly.Sync Muxly.Tree
open Document

/-! ## The calls -/

/-- A write of content: the two functions of the document and the two of the store. -/
inductive ContentWrite where
  | documentReplace (nodeId : Nat) (content : Bytes)
  | documentAppend (nodeId : Nat) (chunk : Bytes)
  | storeReplace (nodeId : Nat) (content : Bytes)
  | storeAppend (nodeId : Nat) (chunk : Bytes)

/-- The code of a write. -/
def ContentWrite.run : ContentWrite → EntryM Unit
  | .documentReplace nodeId content => onDocument (Document.setNodeContent nodeId content)
  | .documentAppend nodeId chunk => onDocument (Document.appendTextToNode nodeId chunk)
  | .storeReplace nodeId content => do
    let _ ← replaceNodeContentWithAccounting nodeId content
  | .storeAppend nodeId chunk => appendNodeContentWithAccounting nodeId chunk

/-- The count that a write of a live node results in. -/
def ContentWrite.total (d : Document) : ContentWrite → Option Nat
  | .documentReplace nodeId content | .storeReplace nodeId content =>
    (d.lookup nodeId).map fun node => d.contentBytes - node.content.length + content.length
  | .documentAppend nodeId chunk | .storeAppend nodeId chunk =>
    (d.lookup nodeId).map fun _ => d.contentBytes + chunk.length

/-- A call that takes part in the accounting. -/
inductive ContentCall where
  | write (w : ContentWrite)
  | documentAppendNode (parentId : Nat) (kind : NodeKind) (title : Bytes) (source : Source)
  | storeAppendNode (parentId : Nat) (kind : NodeKind) (title : Bytes) (source : Source)
  | documentRemoveNode (nodeId : Nat)
  | documentRemoveSubtree (nodeId : Nat)
  | storeRemoveNode (nodeId : Nat)

/-- The code of a call on the document at a path. -/
def ContentCall.run (documentPath : Bytes) : ContentCall → EntryM Unit
  | .write w => w.run
  | .documentAppendNode parentId kind title source => do
    let _ ← onDocument (Document.appendNode parentId kind title source)
  | .storeAppendNode parentId kind title source => do
    let _ ← appendNodeWithRuntime documentPath parentId kind title source
  | .documentRemoveNode nodeId => onDocument (Document.removeNode nodeId)
  | .documentRemoveSubtree nodeId => onDocument (Document.removeSubtree nodeId)
  | .storeRemoveNode nodeId => removeNodeWithRuntime documentPath nodeId

/-- An entry with a new document and a cap. -/
def cappedEntry (documentPath : Bytes) (id : Nat) (title : Bytes) (maxContentBytes : UInt64) :
    DocumentEntry where
  path := documentPath
  document := (Document.init id title).setMaxContentBytes maxContentBytes.toNat
  runtime := .init

/-- The entry after some calls, one after another. -/
def afterCalls (documentPath : Bytes) (e : DocumentEntry) (calls : List ContentCall) :
    DocumentEntry := calls.foldl (fun e call => (call.run documentPath).leaves e) e

/-! ## The invariant -/

/-- The states of a run with a fixed cap. -/
structure Capped (max : Nat) (d : Document) : Prop where
  cap : d.maxContentBytes = max
  limit : max < u64Limit
  state : Valid d ∨ Hollow d

namespace Capped

variable {max : Nat} {d : Document} (hc : Capped max d)
include hc

theorem bytes : d.contentBytes = sumNodes contentWeight d := by
  rcases hc.state with hv | hh
  · exact hv.bytes
  · rw [hh.sumNodes_eq, hh.bytes]

theorem bounded : d.contentBytes ≤ max := by
  rcases hc.state with hv | hh
  · exact hc.cap ▸ hv.cap
  · rw [hh.bytes]
    exact Nat.zero_le _

theorem length_le {x : Nat} {n : Node} (hx : d.lookup x = some n) :
    n.content.length ≤ d.contentBytes := by
  have hsum := sumNodes_dropped contentWeight hx
  have hbytes := hc.bytes
  show contentWeight n ≤ _
  omega

/-- An append fits exactly when its total is under the cap. -/
theorem fitsAppend_iff (added : Nat) : d.FitsAppend added ↔ d.contentBytes + added ≤ max := by
  have hbounded := hc.bounded
  have hcap := hc.cap
  unfold FitsAppend
  omega

/-- A replacement fits exactly when its total is under the cap. -/
theorem fitsReplace_iff {x : Nat} {n : Node} (hx : d.lookup x = some n) (replacement : Nat) :
    d.FitsReplace n.content.length replacement ↔
      d.contentBytes - n.content.length + replacement ≤ max := by
  have hlen := hc.length_le hx
  have hbounded := hc.bounded
  have hcap := hc.cap
  unfold FitsReplace
  omega

/-- A write of a live node that keeps the count right and under the cap. -/
theorem withContent {x bytes : Nat} {n : Node} (hx : d.lookup x = some n) {f : Node → Node}
    (hf : KeepsLinks f) (hbytes : bytes + n.content.length = d.contentBytes + (f n).content.length)
    (hle : bytes ≤ max) : Capped max (d.withContent x f bytes) where
  cap := hc.cap
  limit := hc.limit
  state := by
    rcases hc.state with hv | hh
    · exact .inl (hv.withContent hx hf hbytes (hc.cap ▸ hle))
    · rw [hh.lookup x] at hx
      cases hx

end Capped

/-! ## The cap stays -/

/-- `m` does not touch the cap. -/
abbrev KeepsCap {α : Type} (m : DocM α) : Prop :=
  Action.Advances (fun _ => True) (fun d d' => d'.maxContentBytes = d.maxContentBytes) m

theorem cap_progress :
    Action.Progress fun d d' : Document => d'.maxContentBytes = d.maxContentBytes where
  refl _ := rfl
  trans h h' := h'.trans h

theorem keepsCap_modify {f : Document → Document}
    (hf : ∀ d, (f d).maxContentBytes = d.maxContentBytes) : KeepsCap (modify f) :=
  fun d _ => ⟨trivial, hf d⟩

theorem keepsCap_view {α : Type} (f : Document → Except Failure α) : KeepsCap (Action.view f) :=
  Action.advances_view cap_progress f

theorem keepsCap_removeNodeRegistryOnly (x : Nat) : KeepsCap (removeNodeRegistryOnly x) := by
  refine (keepsCap_view _).bind cap_progress fun _ => ?_
  refine (keepsCap_modify (f := (·.withSlot x none)) fun _ => rfl).bind cap_progress fun _ => ?_
  refine (Action.advances_of_unchanged cap_progress fun _ => rfl).bind cap_progress fun d => ?_
  split
  · exact Action.advances_throw_bind cap_progress _ _
  · exact keepsCap_modify fun _ => rfl

theorem keepsCap_removeDetachedPostorder (postorder : List Nat) (total : Nat) :
    KeepsCap (removeDetachedPostorder postorder total) := by
  refine (Action.advances_of_unchanged cap_progress fun _ => rfl).bind cap_progress fun d => ?_
  split
  · exact Action.advances_throw_bind cap_progress _ _
  · exact (Action.Advances.forM_of cap_progress fun x _ => keepsCap_removeNodeRegistryOnly x).bind
      cap_progress fun _ => keepsCap_modify fun _ => rfl

theorem keepsCap_detachChildFromParent (p x : Nat) : KeepsCap (detachChildFromParent p x) :=
  (keepsCap_view _).bind cap_progress fun _ => keepsCap_modify fun _ => rfl

theorem keepsCap_removeNode (x : Nat) : KeepsCap (Document.removeNode x) := by
  refine (keepsCap_view _).bind cap_progress fun n => ?_
  by_cases hleaf : n.children ≠ []
  · simp only [if_pos hleaf]
    exact Action.advances_throw_bind cap_progress _ _
  · simp only [if_neg hleaf]
    refine (keepsCap_view _).bind cap_progress fun total => ?_
    cases n.parentId with
    | none => exact keepsCap_removeDetachedPostorder _ _
    | some p =>
        exact (keepsCap_detachChildFromParent p x).bind cap_progress fun _ =>
          keepsCap_removeDetachedPostorder _ _

theorem keepsCap_removeSubtree (x : Nat) : KeepsCap (Document.removeSubtree x) := by
  refine (Action.advances_of_unchanged cap_progress fun _ => rfl).bind cap_progress fun d => ?_
  split
  · exact Action.advances_throw_bind cap_progress _ _
  · refine (keepsCap_view _).bind cap_progress fun n => ?_
    refine (keepsCap_view _).bind cap_progress fun postorder => ?_
    refine (keepsCap_view _).bind cap_progress fun total => ?_
    cases n.parentId with
    | none => exact Action.advances_throw cap_progress _
    | some p =>
        exact (keepsCap_detachChildFromParent p x).bind cap_progress fun _ =>
          keepsCap_removeDetachedPostorder _ _

theorem keepsCap_appendNode (p : Nat) (kind : NodeKind) (title : Bytes) (source : Source) :
    KeepsCap (Document.appendNode p kind title source) := by
  have hreserve : KeepsCap reserveNodeId := by
    intro d _
    unfold reserveNodeId
    split
    · exact ⟨trivial, rfl⟩
    · exact ⟨trivial, rfl⟩
  have hslot : ∀ node : Node, KeepsCap (setNodeSlot node.id (some node)) := by
    intro node
    unfold setNodeSlot
    split
    · exact Action.advances_throw_bind cap_progress _ _
    · exact keepsCap_modify fun _ => rfl
  have hcommit : ∀ node : Node, KeepsCap (commitPreparedNode p node) := by
    intro node
    have hlink : KeepsCap (modify (·.modifyNode p (·.addChild node.id))) :=
      keepsCap_modify fun _ => rfl
    refine (keepsCap_view _).bind cap_progress fun _ => hlink.bind cap_progress fun _ => ?_
    exact (hslot node).bind cap_progress fun _ => keepsCap_modify fun _ => rfl
  exact hreserve.bind cap_progress fun _ => (keepsCap_view _).bind cap_progress fun node =>
    (hcommit node).bind cap_progress fun _ => Action.advances_pure cap_progress _

/-! ## Each call keeps the invariant -/

/-- A mutation keeps the invariant when it keeps the cap, and each of the two states. -/
theorem keepsCapped {α : Type} {m : DocM α} (hcap : KeepsCap m)
    (hvalid : ∀ d, Valid d → Valid (m d).2 ∨ Hollow (m d).2)
    (hhollow : ∀ d, Hollow d → Hollow (m d).2) {max : Nat} {d : Document} (hc : Capped max d) :
    Capped max (m d).2 where
  cap := (hcap d trivial).2.trans hc.cap
  limit := hc.limit
  state := by
    rcases hc.state with hv | hh
    · exact hvalid d hv
    · exact .inr (hhollow d hh)

theorem capped_appendNode {max : Nat} {d : Document} (hc : Capped max d) (p : Nat)
    (kind : NodeKind) (title : Bytes) (source : Source) :
    Capped max (Document.appendNode p kind title source d).2 := by
  exact keepsCapped (keepsCap_appendNode p kind title source)
    (fun d hv => .inl (appendNode_sound p kind title source d hv).1)
    (fun d hh => hh.appendNode p kind title source) hc

theorem capped_removeNode {max : Nat} {d : Document} (hc : Capped max d) (x : Nat) :
    Capped max (Document.removeNode x d).2 := by
  refine keepsCapped (keepsCap_removeNode x) (fun d hv => hv.removeNode_state x) (fun d hh => ?_) hc
  rw [hh.removeNode]
  exact hh

theorem capped_removeSubtree {max : Nat} {d : Document} (hc : Capped max d) (x : Nat) :
    Capped max (Document.removeSubtree x d).2 := by
  refine keepsCapped (keepsCap_removeSubtree x) (fun d hv => .inl (removeSubtree_sound x d hv).1)
    (fun d hh => ?_) hc
  rw [hh.removeSubtree]
  exact hh

/-! ## Writes -/

/-- What a write does under a cap, where `total` is the count that it would result in. -/
structure Outcome (max : Nat) (total : Option Nat) (e : DocumentEntry)
    (result : Except Failure Unit × DocumentEntry) : Prop where
  refused : result.1 = .error (.error .documentTooLarge) ↔ ∃ t, total = some t ∧ max < t
  unchanged : result.1 = .error (.error .documentTooLarge) → result.2 = e
  written : ∀ t, total = some t → t ≤ max →
    result.1 = .ok () ∧ result.2.document.contentBytes = t

theorem missing_ne (x : Nat) : missing x .unknownNode ≠ .error .documentTooLarge := by
  unfold missing
  split <;> simp

/-- The outcome of a write that keeps the invariant. -/
structure Written (max : Nat) (total : Option Nat) (e : DocumentEntry)
    (result : Except Failure Unit × DocumentEntry) : Prop where
  outcome : Outcome max total e result
  capped : Capped max result.2.document

/-- A write of a node that is not there. -/
theorem written_missing {max : Nat} {e : DocumentEntry} (hc : Capped max e.document) (x : Nat) :
    Written max none e (.error (missing x .unknownNode), e) := by
  refine ⟨⟨⟨fun h => ?_, ?_⟩, fun _ => rfl, fun t ht => (by cases ht)⟩, hc⟩
  · exact absurd (Except.error.inj h) (missing_ne x)
  · rintro ⟨t, ht, -⟩
    cases ht

/-- A write that is refused above the cap and counted below it. -/
theorem written_checked {max total : Nat} {e e' : DocumentEntry} (hc : Capped max e.document)
    {result : Except Failure Unit × DocumentEntry}
    (hresult : result = if total ≤ max then (.ok (), e') else
      (.error (.error .documentTooLarge), e))
    (hwrite : total ≤ max → e'.document.contentBytes = total ∧ Capped max e'.document) :
    Written max (some total) e result := by
  subst hresult
  by_cases hle : total ≤ max
  · rw [if_pos hle]
    obtain ⟨hcount, hc'⟩ := hwrite hle
    refine ⟨⟨⟨fun h => (by cases h), ?_⟩, fun h => (by cases h), ?_⟩, hc'⟩
    · rintro ⟨t, ht, hlt⟩
      cases ht
      omega
    · intro t ht _
      cases ht
      exact ⟨rfl, hcount⟩
  · rw [if_neg hle]
    refine ⟨⟨⟨fun _ => ⟨total, rfl, by omega⟩, fun _ => rfl⟩, fun _ => rfl, ?_⟩, hc⟩
    intro t ht hle'
    cases ht
    exact absurd hle' hle

/-- What a write does when no other thread runs. -/
def ContentWrite.reading : ContentWrite → EntryAction Unit
  | .documentReplace nodeId content =>
    DocumentEntry.onDocument (Document.setNodeContent nodeId content)
  | .documentAppend nodeId chunk =>
    DocumentEntry.onDocument (Document.appendTextToNode nodeId chunk)
  | .storeReplace nodeId content => do
    let _ ← Sequential.replaceNodeContentWithAccounting nodeId content
  | .storeAppend nodeId chunk => Sequential.appendNodeContentWithAccounting nodeId chunk

theorem alone_write (w : ContentWrite) : Alone [] w.run w.reading := by
  cases w with
  | documentReplace x content => exact alone_onDocument _
  | documentAppend x chunk => exact alone_onDocument _
  | storeReplace x content =>
      exact (alone_replaceNodeContentWithAccounting handlerFree_nil x content).bind fun _ =>
        alone_pure _
  | storeAppend x chunk =>
      exact alone_appendNodeContentWithAccounting handlerFree_nil x chunk

/-- The entry with another content of one node and another byte count. -/
def DocumentEntry.withContent (e : DocumentEntry) (x : Nat) (f : Node → Node) (bytes : Nat) :
    DocumentEntry := { e with document := e.document.withContent x f bytes }

section Writes

variable {max : Nat} {e : DocumentEntry} (hc : Capped max e.document)
include hc

theorem setContent_checked {x : Nat} {n : Node} (hx : e.document.lookup x = some n)
    (content : Bytes) :
    DocumentEntry.onDocument (setStableNodeContent x content) e
      = if e.document.contentBytes - n.content.length + content.length ≤ max then
          (.ok (), e.withContent x (·.setContent content)
            (e.document.contentBytes - n.content.length + content.length))
        else (.error (.error .documentTooLarge), e) := by
  rw [DocumentEntry.onDocument, setContent_eq hx]
  by_cases hfit : e.document.FitsReplace n.content.length content.length
  · rw [if_pos hfit, if_pos ((hc.fitsReplace_iff hx _).mp hfit)]
    rfl
  · rw [if_neg hfit, if_neg fun h => hfit ((hc.fitsReplace_iff hx _).mpr h)]

theorem appendText_checked {x : Nat} {n : Node} (hx : e.document.lookup x = some n)
    (chunk : Bytes) :
    DocumentEntry.onDocument (appendTextToStableNode x chunk) e
      = if e.document.contentBytes + chunk.length ≤ max then
          (.ok (), e.withContent x (·.appendContent chunk)
            (e.document.contentBytes + chunk.length))
        else (.error (.error .documentTooLarge), e) := by
  rw [DocumentEntry.onDocument, appendText_eq hx]
  by_cases hfit : e.document.FitsAppend chunk.length
  · rw [if_pos hfit, if_pos ((hc.fitsAppend_iff _).mp hfit)]
    rfl
  · rw [if_neg hfit, if_neg fun h => hfit ((hc.fitsAppend_iff _).mpr h)]

omit hc in
/-- A write through a function of the document finds the node first. -/
theorem onDocument_known {x : Nat} (m : DocM Unit) :
    DocumentEntry.onDocument
        (do let _ ← Action.view fun d => d.nodeOr x .unknownNode
            m) e
      = match e.document.lookup x with
        | none => (.error (missing x .unknownNode), e)
        | some _ => DocumentEntry.onDocument m e := by
  rw [DocumentEntry.onDocument, Action.bind_apply, Action.view_apply]
  cases hx : e.document.lookup x with
  | none =>
      rw [nodeOr_of_missing hx]
      rfl
  | some n =>
      rw [nodeOr_of_lookup hx]
      rfl

omit hc in
/-- A write through a function of the store finds the node first. -/
theorem withStableNode_known {α : Type} {x : Nat} (f : EntryAction α) :
    Sequential.withStableNode x (fun _ => .ok ()) f e
      = match e.document.lookup x with
        | none => (.error (missing x .unknownNode), e)
        | some _ => f e := by
  rw [Sequential.withStableNode, Action.bind_apply, Action.view_apply]
  cases hx : e.document.lookup x with
  | none =>
      rw [nodeOr_of_missing hx]
      rfl
  | some n =>
      rw [nodeOr_of_lookup hx]
      rfl

/-- A replacement by the same content is not a write: its total is the count that there is. -/
theorem replace_checked {x : Nat} {n : Node} (hx : e.document.lookup x = some n)
    (content : Bytes) :
    (do let _ ← DocumentEntry.onDocument (replaceStableNodeContent x content) : EntryAction Unit) e
      = if e.document.contentBytes - n.content.length + content.length ≤ max then
          (.ok (), if n.content = content then e
            else e.withContent x (·.setContent content)
              (e.document.contentBytes - n.content.length + content.length))
        else (.error (.error .documentTooLarge), e) := by
  rw [Action.bind_apply, DocumentEntry.onDocument, replaceStableNodeContent, Action.bind_apply,
    Action.view_apply, deref_of_lookup hx, Action.next_ok]
  by_cases hsame : n.content = content
  · have hlen := hc.length_le hx
    have hbounded := hc.bounded
    rw [if_pos hsame, if_pos hsame, if_pos (by rw [← hsame]; omega)]
    rfl
  · rw [if_neg hsame, if_neg hsame, Action.bind_apply, setContent_eq hx]
    by_cases hfit : e.document.FitsReplace n.content.length content.length
    · rw [if_pos hfit, if_pos ((hc.fitsReplace_iff hx _).mp hfit)]
      rfl
    · rw [if_neg hfit, if_neg fun h => hfit ((hc.fitsReplace_iff hx _).mpr h)]
      rfl

theorem capped_setContent {x : Nat} {n : Node} (hx : e.document.lookup x = some n)
    (content : Bytes)
    (hle : e.document.contentBytes - n.content.length + content.length ≤ max) :
    Capped max (e.withContent x (·.setContent content)
      (e.document.contentBytes - n.content.length + content.length)).document := by
  have hlen := hc.length_le hx
  apply hc.withContent hx (keepsLinks_setContent content) _ hle
  show _ = e.document.contentBytes + content.length
  omega

theorem capped_appendText {x : Nat} {n : Node} (hx : e.document.lookup x = some n)
    (chunk : Bytes) (hle : e.document.contentBytes + chunk.length ≤ max) :
    Capped max (e.withContent x (·.appendContent chunk)
      (e.document.contentBytes + chunk.length)).document := by
  apply hc.withContent hx (keepsLinks_appendContent chunk) _ hle
  show _ = e.document.contentBytes + (n.content ++ chunk).length
  rw [List.length_append]
  omega

/-- A write is refused exactly above the cap. -/
theorem written_write (w : ContentWrite) :
    Written max (w.total e.document) e (w.reading e) := by
  cases w with
  | documentReplace x content =>
      show Written max ((e.document.lookup x).map _) e
        (DocumentEntry.onDocument (Document.setNodeContent x content) e)
      rw [Document.setNodeContent, onDocument_known]
      cases hx : e.document.lookup x with
      | none => exact written_missing hc x
      | some n =>
          exact written_checked hc (setContent_checked hc hx content) fun hle =>
            ⟨rfl, capped_setContent hc hx content hle⟩
  | documentAppend x chunk =>
      show Written max ((e.document.lookup x).map _) e
        (DocumentEntry.onDocument (Document.appendTextToNode x chunk) e)
      rw [Document.appendTextToNode, onDocument_known]
      cases hx : e.document.lookup x with
      | none => exact written_missing hc x
      | some n =>
          exact written_checked hc (appendText_checked hc hx chunk) fun hle =>
            ⟨rfl, capped_appendText hc hx chunk hle⟩
  | storeReplace x content =>
      show Written max ((e.document.lookup x).map _) e
        ((do let _ ← Sequential.replaceNodeContentWithAccounting x content : EntryAction Unit) e)
      rw [Action.bind_apply, Sequential.replaceNodeContentWithAccounting, withStableNode_known]
      cases hx : e.document.lookup x with
      | none => exact written_missing hc x
      | some n =>
          have hrun := replace_checked hc hx content
          rw [Action.bind_apply] at hrun
          refine written_checked hc hrun fun hle => ?_
          by_cases hsame : n.content = content
          · have hlen := hc.length_le hx
            subst hsame
            rw [if_pos rfl]
            exact ⟨(Nat.sub_add_cancel hlen).symm, hc⟩
          · rw [if_neg hsame]
            exact ⟨rfl, capped_setContent hc hx content hle⟩
  | storeAppend x chunk =>
      show Written max ((e.document.lookup x).map _) e
        (Sequential.appendNodeContentWithAccounting x chunk e)
      rw [Sequential.appendNodeContentWithAccounting, withStableNode_known]
      cases hx : e.document.lookup x with
      | none => exact written_missing hc x
      | some n =>
          exact written_checked hc (appendText_checked hc hx chunk) fun hle =>
            ⟨rfl, capped_appendText hc hx chunk hle⟩

end Writes

/-! ## Runs -/

/-- An append through the store: the read of the parent changes nothing. -/
theorem capped_storeAppendNode {max : Nat} {e : DocumentEntry} (hc : Capped max e.document)
    (documentPath : Bytes) (p : Nat) (kind : NodeKind) (title : Bytes) (source : Source) :
    Capped max (Sequential.appendNodeWithRuntime documentPath p kind title source e).2.document := by
  have hcommit : Capped max (commitAppend p kind title source e).2.document := by
    have happend := capped_appendNode hc p kind title source
    rw [commitAppend, Action.bind_apply, DocumentEntry.onDocument]
    cases (Document.appendNode p kind title source e.document).1 with
    | error f => exact happend
    | ok nodeId => exact happend
  unfold Sequential.appendNodeWithRuntime
  split
  · exact hcommit
  · rw [Action.bind_apply, Action.view_apply]
    cases appendNeedsCoordinatorParentLock e.document p with
    | error f => exact hc
    | ok needsParentLock => exact hcommit

theorem capped_storeRemoveNode {max : Nat} {e : DocumentEntry} (hc : Capped max e.document)
    (x : Nat) : Capped max (Sequential.removeNodeWithRuntime x e).2.document := by
  rcases hc.state with hv | hh
  · rcases removal_cases hv x with ⟨f, heq⟩ | ⟨n, p, postorder, -, hx, hp, hpost, heq⟩
    · rw [heq]
      exact hc
    · rw [heq]
      obtain ⟨hremovable, -, hrun, hvalid⟩ := hv.removal hx hp hpost
      refine ⟨?_, hc.limit, .inl hvalid⟩
      have hcap := ((keepsCap_detachChildFromParent p x).bind cap_progress fun _ =>
        keepsCap_removeDetachedPostorder postorder
          (postorder.map e.document.contentLength).sum) e.document trivial
      rw [hrun] at hcap
      exact hcap.2.trans hc.cap
  · have hrun : (Sequential.removeNodeWithRuntime x e).2 = e := by
      have hresolve : ∃ f, resolveRemoval e.document x = .error f := by
        unfold resolveRemoval
        by_cases hroot : x = e.document.rootNodeId
        · exact ⟨_, by rw [classifyRemoveExecutionMode, if_pos hroot]; rfl⟩
        · refine ⟨missing x .unknownNode, ?_⟩
          rw [classifyRemoveExecutionMode, if_neg hroot]
          simp only [pure_eq_ok, nodeOr_of_missing (hh.lookup x), error_bind]
      obtain ⟨f, hf⟩ := hresolve
      rw [Sequential.removeNodeWithRuntime, Action.bind_apply, Action.view_apply, hf]
      rfl
    rw [hrun]
    exact hc

/-- Every call keeps the invariant. -/
theorem capped_call {max : Nat} {e : DocumentEntry} (hc : Capped max e.document)
    (documentPath : Bytes) (call : ContentCall) :
    Capped max ((call.run documentPath).leaves e).document := by
  have hfree := handlerFree_nil
  cases call with
  | write w =>
      rw [ContentCall.run, (alone_write w).leaves]
      exact (written_write hc w).capped
  | documentAppendNode p kind title source =>
      rw [ContentCall.run, (alone_onDocument _).leaves_ignore]
      exact capped_appendNode hc p kind title source
  | storeAppendNode p kind title source =>
      rw [ContentCall.run, (alone_appendNodeWithRuntime hfree documentPath p kind title
        source).leaves_ignore]
      exact capped_storeAppendNode hc documentPath p kind title source
  | documentRemoveNode x =>
      rw [ContentCall.run, (alone_onDocument _).leaves]
      exact capped_removeNode hc x
  | documentRemoveSubtree x =>
      rw [ContentCall.run, (alone_onDocument _).leaves]
      exact capped_removeSubtree hc x
  | storeRemoveNode x =>
      rw [ContentCall.run, (alone_removeNodeWithRuntime hfree documentPath x).leaves]
      exact capped_storeRemoveNode hc x

theorem capped_afterCalls {max : Nat} {e : DocumentEntry} (hc : Capped max e.document)
    (documentPath : Bytes) (calls : List ContentCall) :
    Capped max (afterCalls documentPath e calls).document := by
  induction calls generalizing e with
  | nil => exact hc
  | cons call rest ih => exact ih (capped_call hc documentPath call)

theorem valid_cappedEntry (documentPath : Bytes) (id : Nat) (title : Bytes)
    (maxContentBytes : UInt64) :
    Valid (cappedEntry documentPath id title maxContentBytes).document := by
  have hv := valid_init id title
  have hlimit : maxContentBytes.toNat < u64Limit := maxContentBytes.toNat_lt
  refine ⟨?_, hv.linked, hv.bytes, Nat.zero_le _, hlimit, hv.viewRoot, hv.elided, hv.elidedNodup⟩
  exact ⟨hv.shape.id_eq, hv.shape.rootNodeId, hv.shape.root, hv.shape.parent, hv.shape.child,
    hv.shape.nodup, hv.shape.fresh, hv.shape.count⟩

theorem capped_cappedEntry (documentPath : Bytes) (id : Nat) (title : Bytes)
    (maxContentBytes : UInt64) :
    Capped maxContentBytes.toNat (cappedEntry documentPath id title maxContentBytes).document :=
  ⟨rfl, maxContentBytes.toNat_lt, .inl (valid_cappedEntry documentPath id title maxContentBytes)⟩

/-! ## The cap -/

/-- The count of a document under a cap. -/
structure Counted (max : Nat) (d : Document) : Prop where
  cap : d.maxContentBytes = max
  total : d.contentBytes = sumNodes contentWeight d
  bounded : d.contentBytes ≤ max

/-- Every addition and subtraction of the accounting stays inside `usize`. -/
structure InRange (d : Document) : Prop where
  /-- `content_bytes - existing_len`, and `max_content_bytes` minus what is retained. -/
  existing : ∀ {x n}, d.lookup x = some n → n.content.length ≤ d.contentBytes
  /-- `max_content_bytes - content_bytes`. -/
  room : d.contentBytes ≤ d.maxContentBytes
  /-- `content_bytes - existing_len + content.len`, once it was reserved. -/
  replaced : ∀ {x n} (replacement : Nat), d.lookup x = some n →
    d.reserveReplacementContentBytes n.content.length replacement = .ok () →
    d.contentBytes - n.content.length + replacement < u64Limit
  /-- `content_bytes + chunk.len`, once it was reserved. -/
  appended : ∀ added, d.reserveAdditionalContentBytes added = .ok () →
    d.contentBytes + added < u64Limit
  /-- The total of what a removal takes, and `content_bytes - total_content_bytes`. -/
  removed : ∀ {x n} {postorder : List Nat}, d.lookup x = some n →
    (postorder = [x] ∨ d.collectSubtreePostorder x = .ok postorder) →
    ∃ total, d.totalContentBytesForNodes postorder = .ok total ∧ total ≤ d.contentBytes

theorem Capped.inRange {max : Nat} {d : Document} (hc : Capped max d) : InRange d where
  existing := hc.length_le
  room := hc.cap ▸ hc.bounded
  replaced replacement hx hreserve := by
    rw [reserveReplacement_eq] at hreserve
    split at hreserve
    · rename_i hfit
      exact lt_of_le_of_lt ((hc.fitsReplace_iff hx replacement).mp hfit) hc.limit
    · cases hreserve
  appended added hreserve := by
    rw [reserveAdditional_eq] at hreserve
    split at hreserve
    · rename_i hfit
      exact lt_of_le_of_lt ((hc.fitsAppend_iff added).mp hfit) hc.limit
    · cases hreserve
  removed := by
    intro x n postorder hx hpost
    rcases hc.state with hv | hh
    · have hlive : postorder.Nodup ∧ ∀ y ∈ postorder, ∃ n, d.lookup y = some n := by
        rcases hpost with rfl | hpost
        · exact ⟨List.nodup_singleton x, fun y hy => ⟨n, by rw [List.mem_singleton.mp hy, hx]⟩⟩
        · rw [hv.shape.collectSubtreePostorder_eq hx] at hpost
          cases hpost
          exact ⟨hv.shape.forest.nodup_postorder x, fun y hy =>
            hv.shape.live_of_below hx ((Forest.mem_postorder _).mp hy)⟩
      have hle := hv.sum_content_le hlive.1 hlive.2
      have hcap := hv.cap
      have hlimit := hv.capLimit
      exact ⟨_, totalContentBytes_eq postorder hlive.2 (by omega), hle⟩
    · rw [hh.lookup x] at hx
      cases hx

/-- After any calls on a new document with a cap: the count is the sum of the live contents and
under the cap, the arithmetic of the next call stays in range, and a write returns; it is refused
exactly when the count that it would result in is above the cap, and then changes nothing. -/
theorem contentBytes_capped (documentPath : Bytes) (id : Nat) (title : Bytes)
    (maxContentBytes : UInt64) (calls : List ContentCall) :
    let max := maxContentBytes.toNat
    let e := afterCalls documentPath (cappedEntry documentPath id title maxContentBytes) calls
    Counted max e.document ∧ InRange e.document ∧
      ∀ w : ContentWrite, ∃ result e', w.run.solo [] e = (.done result, [], e') ∧
        Outcome max (w.total e.document) e (result, e') := by
  intro max e
  have hc : Capped max e.document :=
    capped_afterCalls (capped_cappedEntry documentPath id title maxContentBytes) documentPath calls
  refine ⟨⟨hc.cap, hc.bytes, hc.bounded⟩, hc.inRange, fun w => ?_⟩
  exact ⟨_, _, alone_write w e, (written_write hc w).outcome⟩

end Muxly.Daemon
