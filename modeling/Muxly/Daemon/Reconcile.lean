/-
# Muxly.Daemon.Reconcile -- projecting tmux sessions into a document

The functions of `tmux/reconcile.zig`: a session is a subdocument with a backend id, its windows are
subdocuments below it, their panes are tty leaves. Reconciliation makes the projection of one
session match a list of pane snapshots.
-/
import Muxly.Core.Tidy

namespace Muxly.Daemon

open Muxly.Control Muxly.Core Muxly.Tree Document

/-- `events.PaneSnapshot`. -/
structure PaneSnapshot where
  sessionName : Bytes
  sessionId : Bytes
  windowId : Bytes
  windowName : Bytes
  paneId : Bytes
  paneTitle : Bytes
  paneActive : Bool
  deriving DecidableEq, Repr

/-- `session_backend_prefix`. -/
def sessionBackendPrefix : Bytes := ascii "tmux-session:"

/-- `window_backend_prefix`. -/
def windowBackendPrefix : Bytes := ascii "tmux-window:"

/-- `backendSuffix`. -/
def backendSuffix (backendId : Option Bytes) (pre : Bytes) : Option Bytes :=
  backendId.bind (afterPrefix pre)

/-- The window id of a window projection: `isWindowProjection` and the suffix of its backend id. -/
def windowProjectionId (node : Node) : Option Bytes :=
  if node.kind = .subdocument then backendSuffix node.backendId windowBackendPrefix else none

/-- The pane id of a live tty source. -/
def ttyPaneId (source : Source) : Option Bytes :=
  match source with
  | .tty tty => tty.paneId
  | _ => none

/-! ## Finding projections -/

/-- `findSessionProjectionNode`. -/
def findSessionProjectionNode (d : Document) (sessionId : Bytes) : Except Failure (Option Nat) := do
  let bid := sessionBackendPrefix ++ sessionId
  if let some nodeId ← d.findChildByBackendId d.rootNodeId .subdocument bid then return some nodeId
  match d.walkPreorderWith Early.failed (fun (_ : Unit) node =>
      if node.kind = .subdocument ∧ node.backendId = some bid then .error (Early.found node.id)
      else .ok ()) () with
  | .error (.found nodeId) => return some nodeId
  | .error (.failed (.error _)) => return none
  | .error (.failed failure) => throw failure
  | .ok _ => return none

/-- `SessionProjectionRef`. -/
structure SessionProjectionRef where
  nodeId : Nat
  parentId : Nat
  sessionId : Bytes

/-- `listSessionProjections`. -/
def listSessionProjections (d : Document) : Except Failure (List SessionProjectionRef) :=
  d.walkPreorder (fun projections node => .ok <|
    if node.kind = .subdocument then
      match backendSuffix node.backendId sessionBackendPrefix, node.parentId with
      | some sessionId, some parentId => projections ++ [⟨node.id, parentId, sessionId⟩]
      | _, _ => projections
    else projections) []

/-- The loop of `findSessionIdForPaneNode`. -/
def findSessionIdLoop (d : Document) : Nat → Nat → Except Failure (Option Bytes)
  | 0, _ => .error .outOfFuel
  | fuel + 1, cursor => do
    let some node ← d.findNode cursor | return none
    match backendSuffix node.backendId sessionBackendPrefix with
    | some sessionId => return some sessionId
    | none =>
      let some parentId := node.parentId | return none
      findSessionIdLoop d fuel parentId

/-- `findSessionIdForPaneNode`. -/
def findSessionIdForPaneNode (d : Document) (paneNodeId : Nat) : Except Failure (Option Bytes) :=
  findSessionIdLoop d (d.nodeSlots.length + 1) paneNodeId

/-- `findPaneChild`. -/
def findPaneChild (d : Document) (parentId : Nat) (paneId : Bytes) :
    Except Failure (Option Nat) := do
  let some parent ← d.findNode parentId | return none
  parent.children.findM? fun childId => do
    let some child ← d.findNode childId | return false
    return child.kind = .ttyLeaf && ttyPaneId child.source == some paneId

/-! ## Reconciliation -/

/-- `removeSubtree` of `reconcile.zig`: children first, one `removeNode` each. -/
def removeProjection : Nat → Nat → DocM Unit
  | 0, _ => throw .outOfFuel
  | fuel + 1, nodeId => do
    let node ← Action.view fun d => d.nodeOr nodeId .unknownNode
    node.children.forM (removeProjection fuel)
    removeNode nodeId

/-- `removeSubtree` of `reconcile.zig`, with fuel for every level a document can have. -/
def removeSubtreeNodes (nodeId : Nat) : DocM Unit := do
  removeProjection ((← get).nodeSlots.length + 1) nodeId

/-- `ensureSessionNode` and `ensureWindowNode`: a child subdocument with this backend id. -/
def ensureSubdocument (parentId : Nat) (bid title : Bytes) : DocM Nat := do
  match ← Action.view fun d => d.findChildByBackendId parentId .subdocument bid with
  | some nodeId =>
    updateKnownNode nodeId (·.setTitle title)
    return nodeId
  | none =>
    let nodeId ← appendNode parentId .subdocument title .none
    setNodeBackendId nodeId bid
    return nodeId

/-- `ensureSessionNode`. -/
def ensureSessionNode (parentId : Nat) (snapshot : PaneSnapshot) : DocM Nat :=
  ensureSubdocument parentId (sessionBackendPrefix ++ snapshot.sessionId) snapshot.sessionName

/-- `ensureWindowNode`. -/
def ensureWindowNode (sessionNodeId : Nat) (snapshot : PaneSnapshot) : DocM Nat :=
  ensureSubdocument sessionNodeId (windowBackendPrefix ++ snapshot.windowId)
    (if snapshot.windowName ≠ [] then snapshot.windowName else snapshot.windowId)

/-- The source of a projected pane. -/
def paneSource (snapshot : PaneSnapshot) : Source :=
  .tty ⟨snapshot.sessionName, some snapshot.windowId, some snapshot.paneId⟩

/-- `ensurePaneNode`. -/
def ensurePaneNode (windowNodeId : Nat) (snapshot : PaneSnapshot) : DocM Nat := do
  let paneTitle := if snapshot.paneTitle ≠ [] then snapshot.paneTitle else snapshot.paneId
  match ← Action.view fun d => findPaneChild d windowNodeId snapshot.paneId with
  | some nodeId =>
    updateKnownNode nodeId (·.setTitle paneTitle)
    updateKnownNode nodeId (·.setSource (paneSource snapshot))
    return nodeId
  | none => appendNode windowNodeId .ttyLeaf paneTitle (paneSource snapshot)

/-- `pruneMissingPanes`. -/
def pruneMissingPanes (windowNodeId : Nat) (snapshots : List PaneSnapshot) : DocM Unit := do
  let windowNode ← Action.view fun d => d.nodeOr windowNodeId .unknownNode
  windowNode.children.forM fun childId => do
    match ← Action.view fun d => d.findNode childId with
    | none => return ()
    | some child =>
      if child.kind = .ttyLeaf then
        match ttyPaneId child.source with
        | none => return ()
        | some paneId =>
          if snapshots.any (·.paneId == paneId) then return () else removeSubtreeNodes childId
      else return ()

/-- `reconcileSessionSnapshots`. -/
def reconcileSessionSnapshots (parentId : Nat) (snapshots : List PaneSnapshot) : DocM Nat := do
  match snapshots with
  | [] => throw (.error .emptySnapshot)
  | first :: rest =>
    if rest.any fun snapshot => snapshot.sessionId ≠ first.sessionId then
      throw (.error .mixedSessionSnapshot)
    let sessionNodeId ← ensureSessionNode parentId first
    let desiredWindowIds ← (first :: rest).foldlM (fun desired snapshot => do
      let windowNodeId ← ensureWindowNode sessionNodeId snapshot
      let _ ← ensurePaneNode windowNodeId snapshot
      return if snapshot.windowId ∈ desired then desired else desired ++ [snapshot.windowId]) []
    let sessionNode ← Action.view fun d => d.nodeOr sessionNodeId .unknownNode
    sessionNode.children.forM fun windowNodeId => do
      match ← Action.view fun d => d.findNode windowNodeId with
      | none => return ()
      | some windowNode =>
        match windowProjectionId windowNode with
        | none => return ()
        | some windowId =>
          if windowId ∈ desiredWindowIds then pruneMissingPanes windowNodeId snapshots
          else removeSubtreeNodes windowNodeId
    return sessionNodeId

/-- `removeSessionProjection`. -/
def removeSessionProjection (sessionId : Bytes) : DocM Bool := do
  match ← Action.view fun d => findSessionProjectionNode d sessionId with
  | none => return false
  | some sessionNodeId =>
    removeSubtreeNodes sessionNodeId
    return true

/-! ## Reconciliation keeps the invariant -/

theorem child_ne_root {d : Document} (h : Shape d) {p c : Nat} {n : Node}
    (hp : d.lookup p = some n) (hc : c ∈ n.children) : c ≠ 1 := by
  rintro rfl
  obtain ⟨m, hm, hmp⟩ := h.child hp hc
  have := h.parent_lt hm hmp
  omega

theorem findNode_eq_some {d : Document} {x : Nat} {n : Node} (h : d.findNode x = .ok (some n)) :
    d.lookup x = some n := by
  by_cases hx : x = 0
  · subst hx
    cases h
  · rw [findNode_of_ne_zero hx] at h
    exact Except.ok.inj h

section Removing

variable {R : Document → Document → Prop} (hR : Action.Progress R)
  (hremove : ∀ x, x ≠ 1 → Action.Advances Valid R (removeNode x))
include hR hremove

/-- `removeSubtree` only removes nodes. -/
theorem removeProjection_advances (fuel : Nat) {x : Nat} (hx : x ≠ 1) :
    Action.Advances Valid R (removeProjection fuel x) := by
  induction fuel generalizing x with
  | zero => exact Action.advances_throw hR _
  | succ fuel ih =>
      refine (Action.advances_view hR _).bind_of hR fun d node d' hv hview hv' => ?_
      have hnode : d.lookup x = some node := nodeOr_eq_ok.mp (congrArg Prod.fst hview)
      have hforM : Action.Advances Valid R (node.children.forM (removeProjection fuel)) :=
        Action.Advances.forM_of hR fun c hc => ih (child_ne_root hv.shape hnode hc)
      exact (hforM.bind hR fun _ => hremove x hx) d' hv'

theorem removeSubtreeNodes_advances {x : Nat} (hx : x ≠ 1) :
    Action.Advances Valid R (removeSubtreeNodes x) :=
  (Action.advances_of_unchanged hR fun _ => rfl).bind hR fun _ =>
    removeProjection_advances hR hremove _ hx

theorem pruneMissingPanes_advances (windowNodeId : Nat) (snapshots : List PaneSnapshot) :
    Action.Advances Valid R (pruneMissingPanes windowNodeId snapshots) := by
  refine (Action.advances_view hR _).bind_of hR fun d node d' hv hview hv' => ?_
  have hnode : d.lookup windowNodeId = some node := nodeOr_eq_ok.mp (congrArg Prod.fst hview)
  refine Action.Advances.forM_of hR (fun c hc => ?_) d' hv'
  have hc1 := child_ne_root hv.shape hnode hc
  refine (Action.advances_view hR _).bind hR fun child => ?_
  cases child with
  | none => exact Action.advances_pure hR _
  | some child =>
      simp only
      split
      · split
        · exact Action.advances_pure hR _
        · split
          · exact Action.advances_pure hR _
          · exact removeSubtreeNodes_advances hR hremove hc1
      · exact Action.advances_pure hR _

end Removing

theorem removeSubtreeNodes_settled {x : Nat} (hx : x ≠ 1) : Settled (removeSubtreeNodes x) :=
  removeSubtreeNodes_advances settles_progress (fun _ hx _ hv => removeNode_settled hv hx) hx

theorem ensureSubdocument_settled (parentId : Nat) (bid title : Bytes) :
    Settled (ensureSubdocument parentId bid title) := by
  refine (settled_view _).bind settles_progress fun found => ?_
  cases found with
  | some nodeId =>
      exact (setNodeTitle_settled nodeId title).bind settles_progress fun _ =>
        Action.advances_pure settles_progress _
  | none =>
      exact (appendNode_settled parentId .subdocument title .none).bind settles_progress fun nodeId =>
        (setNodeBackendId_settled nodeId bid).bind settles_progress fun _ =>
          Action.advances_pure settles_progress _

theorem ensurePaneNode_settled (windowNodeId : Nat) (snapshot : PaneSnapshot) :
    Settled (ensurePaneNode windowNodeId snapshot) := by
  refine (settled_view _).bind_of settles_progress fun d found d' hv hfound hv' => ?_
  cases found with
  | some nodeId =>
      -- The pane is a child of its window, so it is not the root.
      have hchild : nodeId ≠ 1 := by
        have hfind : findPaneChild d windowNodeId snapshot.paneId = .ok (some nodeId) :=
          congrArg Prod.fst hfound
        rw [findPaneChild] at hfind
        obtain ⟨parent, hparent, hfind⟩ := bind_eq_ok.mp hfind
        cases parent with
        | none => cases hfind
        | some n => exact child_ne_root hv.shape (findNode_eq_some hparent) (mem_of_findM? hfind)
      refine ((setNodeTitle_settled nodeId _).bind settles_progress fun _ => ?_) d' hv'
      exact (updateKnownNode_settled nodeId (keepsLinks_setSource _) (fun _ => rfl)
        fun h => absurd h hchild).bind settles_progress fun _ =>
          Action.advances_pure settles_progress _
  | none => exact appendNode_settled _ _ _ _ d' hv'

theorem pruneMissingPanes_settled (windowNodeId : Nat) (snapshots : List PaneSnapshot) :
    Settled (pruneMissingPanes windowNodeId snapshots) :=
  pruneMissingPanes_advances settles_progress (fun _ hx _ hv => removeNode_settled hv hx) _ _

theorem reconcileSessionSnapshots_settled (parentId : Nat) (snapshots : List PaneSnapshot) :
    Settled (reconcileSessionSnapshots parentId snapshots) := by
  unfold reconcileSessionSnapshots
  cases snapshots with
  | nil => exact Action.advances_throw settles_progress _
  | cons first rest =>
      simp only
      split
      · exact Action.advances_throw_bind settles_progress _ _
      · refine (ensureSubdocument_settled parentId _ _).bind settles_progress fun sessionNodeId => ?_
        refine (Action.Advances.foldlM settles_progress (fun desired snapshot => ?_) _ _).bind
          settles_progress fun desiredWindowIds => ?_
        · refine (ensureSubdocument_settled sessionNodeId _ _).bind settles_progress fun w => ?_
          exact (ensurePaneNode_settled w snapshot).bind settles_progress fun _ =>
            Action.advances_pure settles_progress _
        · refine (settled_view _).bind_of settles_progress fun d node d' hv hview hv' => ?_
          have hnode : d.lookup sessionNodeId = some node :=
            nodeOr_eq_ok.mp (congrArg Prod.fst hview)
          refine ((Action.Advances.forM_of settles_progress fun c hc => ?_).bind settles_progress
            fun _ => Action.advances_pure settles_progress _) d' hv'
          have hc1 := child_ne_root hv.shape hnode hc
          refine (settled_view _).bind settles_progress fun child => ?_
          cases child with
          | none => exact Action.advances_pure settles_progress _
          | some child =>
              simp only
              split
              · exact Action.advances_pure settles_progress _
              · split
                · exact pruneMissingPanes_settled _ _
                · exact removeSubtreeNodes_settled hc1

/-- A search over the nodes that stops with an id stops at a node with that id. -/
theorem search_found {d : Document} {hit : Node → Prop} [DecidablePred hit] (xs : List Nat)
    {answer : Nat}
    (h : xs.foldlM (fun (_ : Unit) x => (d.nodeOr x .unknownNode).mapError Early.failed >>=
      fun node => if hit node then .error (Early.found node.id) else .ok ()) ()
      = .error (.found answer)) :
    ∃ x n, d.lookup x = some n ∧ hit n ∧ n.id = answer := by
  induction xs with
  | nil => cases h
  | cons x rest ih =>
      rw [List.foldlM_cons] at h
      cases hx : d.nodeOr x .unknownNode with
      | error e =>
          rw [hx] at h
          cases h
      | ok n =>
          rw [hx] at h
          have hrun : ((Except.ok n).mapError Early.failed >>= fun node =>
              if hit node then (.error (Early.found node.id) : Except (Early Nat) Unit) else .ok ())
              = if hit n then .error (Early.found n.id) else .ok () := rfl
          rw [hrun] at h
          by_cases hhit : hit n
          · rw [if_pos hhit] at h
            cases h
            exact ⟨x, n, nodeOr_eq_ok.mp hx, hhit, rfl⟩
          · rw [if_neg hhit] at h
            exact ih h

/-- A session projection is a live subdocument, so it is not the root. -/
theorem findSessionProjectionNode_ne_root {d : Document} (h : Shape d) {sessionId : Bytes} {x : Nat}
    (hx : findSessionProjectionNode d sessionId = .ok (some x)) : x ≠ 1 := by
  obtain ⟨r, hr, -, hdoc⟩ := h.root
  rw [findSessionProjectionNode, h.rootNodeId] at hx
  cases hchild : d.findChildByBackendId 1 .subdocument (sessionBackendPrefix ++ sessionId) with
  | error e =>
      rw [hchild] at hx
      cases hx
  | ok found =>
      rw [hchild, ok_bind] at hx
      cases found with
      | some c =>
          cases hx
          rw [findChildByBackendId, findNode_of_ne_zero (by omega), hr, ok_bind] at hchild
          exact child_ne_root h hr (mem_of_findM? hchild)
      | none =>
          simp only [h.walkPreorderWith_eq] at hx
          split at hx
          · rename_i y hfound
            cases hx
            obtain ⟨z, n, hz, ⟨hkind, -⟩, hid⟩ := search_found _ hfound
            rintro rfl
            rw [h.id_eq hz] at hid
            subst hid
            rw [hr] at hz
            cases hz
            rw [hdoc] at hkind
            cases hkind
          · cases hx
          · cases hx
          · cases hx

theorem removeSessionProjection_settled (sessionId : Bytes) :
    Settled (removeSessionProjection sessionId) := by
  refine (settled_view _).bind_of settles_progress fun d found d' hv hview hv' => ?_
  cases found with
  | none => exact Action.advances_pure settles_progress _ d' hv'
  | some x =>
      have hx := findSessionProjectionNode_ne_root hv.shape (congrArg Prod.fst hview)
      exact ((removeSubtreeNodes_settled hx).bind settles_progress fun _ =>
        Action.advances_pure settles_progress _) d' hv'

end Muxly.Daemon
