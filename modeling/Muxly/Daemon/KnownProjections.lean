/-
# Muxly.Daemon.KnownProjections -- the session projections of a document

`KnownProjection d p t`: below the parent `p` lies a projection of the session `t`. A pass adds at
most the projection it is for, removing one adds none, and the searches of the store find the
projections there are.
-/
import Muxly.Daemon.Artifacts
import Muxly.Daemon.TmuxPump

namespace Muxly.Daemon

open Muxly.Control Muxly.Core Muxly.Sync Muxly.Tree
open Document

/-! ## Known projections -/

/-- A projection of the session lies directly below the parent. -/
def KnownProjection (d : Document) (parentId : Nat) (sessionId : Bytes) : Prop :=
  ∃ y, (outline d).Child parentId y ∧ (outline d).Has (·.session = some sessionId) y

theorem knownProjection_of_outline {d d' : Document} (h : outline d' = outline d) {p : Nat}
    {t : Bytes} : KnownProjection d' p t ↔ KnownProjection d p t := by
  unfold KnownProjection
  rw [h]

/-- Taking nodes away adds no projection. -/
theorem knownProjection_of_drop {d d' : Document} {S : Set Nat} (h : outline d' = (outline d).drop S)
    {p : Nat} {t : Bytes} (hknown : KnownProjection d' p t) : KnownProjection d p t := by
  obtain ⟨y, hchild, hhas⟩ := hknown
  rw [h] at hchild hhas
  exact ⟨y, (Outline.child_drop.mp hchild).2, (Outline.has_drop.mp hhas).2⟩

/-- A node that projects a window or a pane projects no session. -/
theorem session_none_of_window {n : Node} {w : Bytes} (hw : (projectionOf n).window = some w) :
    (projectionOf n).session = none := by
  cases hs : (projectionOf n).session with
  | none => rfl
  | some t =>
      obtain ⟨-, hbackend⟩ := projectedSession_eq_some.mp hs
      have hwindow := (windowProjectionId_eq_some.mp hw).2
      have hnone := backendSuffix_session_window t
      rw [← hbackend, hwindow, backendSuffix_eq_some.mpr rfl] at hnone
      cases hnone

theorem session_none_of_pane {n : Node} {p : Bytes} (hp : (projectionOf n).pane = some p) :
    (projectionOf n).session = none := by
  cases hs : (projectionOf n).session with
  | none => rfl
  | some t =>
      have hkind := (projectedSession_eq_some.mp hs).1
      rw [(projectedPane_eq_some.mp hp).1] at hkind
      cases hkind

/-- A pass adds at most the projection it is for. -/
theorem known_of_reconcile {d d' : Document} (hv : Valid d) {p s : Nat}
    {snapshots : List PaneSnapshot}
    (h : reconcileSessionSnapshots p snapshots d = (.ok s, d')) {q : Nat} {t : Bytes}
    (hknown : KnownProjection d' q t) :
    KnownProjection d q t ∨ (q = p ∧ t = Pump.sessionOf snapshots) := by
  cases snapshots with
  | nil => cases h
  | cons first rest =>
      obtain ⟨-, d₁, hsession, -, O, hwide, hout⟩ := reconcile_loops hv h
      obtain ⟨y, hchild, hhas⟩ := hknown
      rw [hout] at hchild hhas
      obtain ⟨-, hchild⟩ := Outline.child_drop.mp hchild
      obtain ⟨hy, e, he, hlabel⟩ := Outline.has_drop.mp hhas
      -- What the loops added are windows and panes.
      have hold : outline d₁ y = some e := by
        cases hnew : outline d₁ y with
        | some f => rw [hwide.extend.entry hnew he]
        | none =>
            have hkept : outline d' y = some e := by
              rw [hout]
              exact Outline.drop_eq_some.mpr ⟨hy, he⟩
            obtain ⟨n, -, rfl⟩ := outline_eq_some.mp hkept
            have hnone : (projectionOf n).session = none := by
              rcases hwide.new he hnew with hw | hp
              · obtain ⟨snapshot, -, hwindow, -⟩ := hw.window
                exact session_none_of_window hwindow
              · obtain ⟨snapshot, -, hpane, -⟩ := hp.pane
                exact session_none_of_pane hpane
            have hsome : (projectionOf n).session = some t := hlabel
            rw [hnone] at hsome
            cases hsome
      have hparent : e.parent = some q := by
        obtain ⟨f, hf, hfq⟩ := hchild
        rw [he] at hf
        cases hf
        exact hfq
      obtain ⟨-, hensured⟩ := ensureSubdocument_outline hv hsession
        (·.session = some first.sessionId) fun _ => projectedSession_eq_some
      rcases hensured.entry hold with hbefore | ⟨-, rfl, -⟩
      · exact .inl ⟨y, ⟨e, hbefore, hparent⟩, e, hbefore, hlabel⟩
      · refine .inr ⟨(Option.some.inj hparent).symm, ?_⟩
        have hfirst : (subdocumentProjection (sessionBackendPrefix ++ first.sessionId)).session
            = some first.sessionId :=
          (@backendSuffix_eq_some _ sessionBackendPrefix _).mpr rfl
        have hsome : (subdocumentProjection (sessionBackendPrefix ++ first.sessionId)).session
            = some t := hlabel
        rw [hfirst] at hsome
        exact (Option.some.inj hsome).symm

/-- Removing a session adds no projection. -/
theorem known_of_removeSessionProjection {d d' : Document} (hv : Valid d) {sessionId : Bytes}
    {b : Bool} (h : removeSessionProjection sessionId d = (.ok b, d')) {q : Nat} {t : Bytes}
    (hknown : KnownProjection d' q t) : KnownProjection d q t := by
  rw [removeSessionProjection, Action.bind_apply, Action.view_apply] at h
  rcases hfind : findSessionProjectionNode d sessionId with f | found
  · rw [hfind] at h
    cases h
  rw [hfind, Action.next_ok] at h
  cases found with
  | none =>
      cases h
      exact hknown
  | some y =>
      simp only at h
      rw [Action.bind_apply] at h
      rcases hremove : removeSubtreeNodes y d with ⟨_ | _, d₁⟩
      · rw [hremove] at h
        cases h
      · rw [hremove, Action.next_ok] at h
        cases h
        obtain ⟨-, hout⟩ := removeSubtreeNodes_outline
          (findSessionProjectionNode_ne_root hv.shape hfind) (Outline.closed_empty _) hv
          (outline d).drop_empty.symm hremove
        exact knownProjection_of_drop hout hknown

theorem sessionOf_filter {snapshots : List PaneSnapshot} {t : Bytes}
    (h : snapshots.filter (fun snapshot => snapshot.sessionId == t) ≠ []) :
    Pump.sessionOf (snapshots.filter fun snapshot => snapshot.sessionId == t) = t := by
  obtain ⟨first, rest, heq⟩ := List.exists_cons_of_ne_nil h
  have hmem : first ∈ snapshots.filter fun snapshot => snapshot.sessionId == t := by
    rw [heq]
    exact List.mem_cons_self ..
  rw [heq]
  exact beq_iff_eq.mp (List.mem_filter.mp hmem).2

/-- The turn of `reconcileKnownTmuxProjections` for one projection. -/
theorem known_of_reconcileProjection {d d' : Document} (hv : Valid d)
    {snapshots : List PaneSnapshot} {projection : SessionProjectionRef}
    (h : Sequential.reconcileProjection snapshots projection d = (.ok (), d')) {q : Nat} {t : Bytes}
    (hknown : KnownProjection d' q t) :
    KnownProjection d q t ∨ (q = projection.parentId ∧ t = projection.sessionId) := by
  unfold Sequential.reconcileProjection at h
  split at h
  · rw [Action.bind_apply] at h
    rcases hremove : removeSessionProjection projection.sessionId d with ⟨_ | b, d₁⟩
    · rw [hremove] at h
      cases h
    · rw [hremove, Action.next_ok] at h
      cases h
      exact .inl (known_of_removeSessionProjection hv hremove hknown)
  · rename_i hne
    rw [Action.bind_apply] at h
    rcases hpass : reconcileSessionSnapshots projection.parentId
      (snapshots.filter fun snapshot => snapshot.sessionId == projection.sessionId) d with ⟨_ | s, d₁⟩
    · rw [hpass] at h
      cases h
    · rw [hpass, Action.next_ok] at h
      cases h
      have hadd := known_of_reconcile hv hpass hknown
      rwa [sessionOf_filter hne] at hadd

/-! ### What the searches find -/

/-- What `listSessionProjections` lists for one node. -/
def projectionRefs (node : Node) : List SessionProjectionRef :=
  if node.kind = .subdocument then
    match backendSuffix node.backendId sessionBackendPrefix, node.parentId with
    | some sessionId, some parentId => [⟨node.id, parentId, sessionId⟩]
    | _, _ => []
  else []

theorem listSessionProjections_eq (d : Document) :
    listSessionProjections d
      = d.walkPreorder (fun projections node => .ok (projections ++ projectionRefs node)) [] := by
  have hturn : ∀ (projections : List SessionProjectionRef) (node : Node),
      (if node.kind = .subdocument then
        match backendSuffix node.backendId sessionBackendPrefix, node.parentId with
        | some sessionId, some parentId => projections ++ [⟨node.id, parentId, sessionId⟩]
        | _, _ => projections
      else projections) = projections ++ projectionRefs node := by
    intro projections node
    unfold projectionRefs
    split
    · split
      · rfl
      · exact (List.append_nil _).symm
    · exact (List.append_nil _).symm
  show d.walkPreorder _ [] = _
  congr 1
  funext projections node
  exact congrArg Except.ok (hturn projections node)

/-- A walk that collects what each node gives has it all. -/
theorem mem_of_collecting {α : Type} {d : Document} {g : Node → List α} {xs : List Nat}
    {acc out : List α}
    (h : xs.foldlM (fun s x => d.nodeOr x .unknownNode >>= fun node => Except.ok (s ++ g node)) acc
      = .ok out) :
    acc ⊆ out ∧ ∀ x ∈ xs, ∀ n, d.lookup x = some n → g n ⊆ out := by
  induction xs generalizing acc with
  | nil =>
      cases h
      exact ⟨fun _ ha => ha, fun _ hx => by cases hx⟩
  | cons x rest ih =>
      rw [List.foldlM_cons] at h
      obtain ⟨acc', hturn, hrest⟩ := bind_eq_ok.mp h
      obtain ⟨node, hnode, hturn⟩ := bind_eq_ok.mp hturn
      cases hturn
      obtain ⟨hsub, hmem⟩ := ih hrest
      refine ⟨fun a ha => hsub (List.mem_append_left _ ha), fun y hy n hn => ?_⟩
      rcases List.mem_cons.mp hy with rfl | hy
      · rw [nodeOr_eq_ok.mp hnode] at hn
        cases hn
        exact fun a ha => hsub (List.mem_append_right _ ha)
      · exact hmem y hy n hn

/-- `listSessionProjections` lists every projection. -/
theorem mem_listSessionProjections {d : Document} (hv : Valid d) {refs : List SessionProjectionRef}
    (h : listSessionProjections d = .ok refs) {p : Nat} {t : Bytes} (hknown : KnownProjection d p t) :
    ∃ ref ∈ refs, ref.parentId = p ∧ ref.sessionId = t := by
  obtain ⟨y, hchild, hhas⟩ := hknown
  obtain ⟨n, hn, hparent⟩ := child_outline.mp hchild
  obtain ⟨n', hn', hsession⟩ := has_outline.mp hhas
  rw [hn] at hn'
  cases hn'
  obtain ⟨hkind, hbackend⟩ := projectedSession_eq_some.mp hsession
  rw [listSessionProjections_eq, hv.shape.walkPreorder_eq] at h
  have hsub := (mem_of_collecting h).2 y (hv.mem_preorder_root.mpr ⟨n, hn⟩) n hn
  have hrefs : projectionRefs n = [⟨n.id, p, t⟩] := by
    rw [projectionRefs, if_pos hkind, hbackend, backendSuffix_eq_some.mpr rfl, hparent]
  exact ⟨⟨n.id, p, t⟩, hsub (by rw [hrefs]; exact List.mem_singleton_self _), rfl, rfl⟩

/-- A search over live nodes, one of which hits, stops. -/
theorem search_stops {d : Document} {p : Node → Prop} [DecidablePred p] {xs : List Nat}
    (hlive : ∀ x ∈ xs, ∃ n, d.lookup x = some n) {y : Nat} (hy : y ∈ xs) {n : Node}
    (hn : d.lookup y = some n) (hhit : p n) :
    ∃ answer, xs.foldlM (fun (_ : Unit) x => (d.nodeOr x .unknownNode).mapError Early.failed >>=
      fun node => if p node then .error (Early.found node.id) else .ok ()) ()
      = .error (.found answer) := by
  induction xs with
  | nil => cases hy
  | cons x rest ih =>
      obtain ⟨m, hm⟩ := hlive x (List.mem_cons_self ..)
      have hrun : ((d.nodeOr x .unknownNode).mapError Early.failed >>= fun node =>
          if p node then (.error (Early.found node.id) : Except (Early Nat) Unit) else .ok ())
          = if p m then .error (Early.found m.id) else .ok () := by
        rw [nodeOr_of_lookup hm]
        rfl
      rw [List.foldlM_cons, hrun]
      by_cases hx : p m
      · rw [if_pos hx]
        exact ⟨m.id, rfl⟩
      · rw [if_neg hx]
        rcases List.mem_cons.mp hy with rfl | hy
        · rw [hm] at hn
          cases hn
          exact absurd hhit hx
        · exact ih (fun z hz => hlive z (List.mem_cons_of_mem _ hz)) hy

/-- A session that is projected is found. -/
theorem findSessionProjectionNode_of_known {d : Document} (hv : Valid d) {p : Nat} {t : Bytes}
    (hknown : KnownProjection d p t) : ∃ y, findSessionProjectionNode d t = .ok (some y) := by
  obtain ⟨y, -, hhas⟩ := hknown
  obtain ⟨n, hn, hsession⟩ := has_outline.mp hhas
  obtain ⟨r, hr, -⟩ := hv.shape.root
  have hsearch : ∃ found, d.findChildByBackendId d.rootNodeId .subdocument
      (sessionBackendPrefix ++ t) = .ok found := by
    obtain ⟨found, hfound, -⟩ := @findM?_children d hv _ r hr
      (isSubdocumentOf (sessionBackendPrefix ++ t)) (·.session = some t)
      fun _ => isSubdocumentOf_iff.trans projectedSession_eq_some.symm
    refine ⟨found, ?_⟩
    rw [findChildByBackendId_eq, hv.shape.rootNodeId, searchChildren,
      findNode_of_ne_zero (by decide), hr]
    exact hfound
  obtain ⟨found, hfound⟩ := hsearch
  rw [findSessionProjectionNode, hfound, ok_bind]
  cases found with
  | some c => exact ⟨c, rfl⟩
  | none =>
      simp only [hv.shape.walkPreorderWith_eq]
      have hlive : ∀ x ∈ hv.shape.forest.preorder 1, ∃ n, d.lookup x = some n :=
        fun x hx => hv.mem_preorder_root.mp hx
      obtain ⟨answer, hanswer⟩ := search_stops (p := fun node =>
        node.kind = .subdocument ∧ node.backendId = some (sessionBackendPrefix ++ t)) hlive
        (hv.mem_preorder_root.mpr ⟨n, hn⟩) hn (projectedSession_eq_some.mp hsession)
      rw [hanswer]
      exact ⟨answer, rfl⟩

/-- The parent of the only projection of a session is found. -/
theorem findProjectionParent_of_known {d : Document} (hv : Valid d) {p : Nat} {t : Bytes}
    (hknown : KnownProjection d p t) (honly : ∀ q, KnownProjection d q t → q = p) :
    Sequential.findProjectionParentForSession d t = .ok (some p) := by
  obtain ⟨y, hy⟩ := findSessionProjectionNode_of_known hv hknown
  have hhas := findSessionProjectionNode_has hv hy
  obtain ⟨n, hn, -⟩ := has_outline.mp hhas
  obtain ⟨q, hq, -⟩ := hv.shape.parent hn (findSessionProjectionNode_ne_root hv.shape hy)
  have hqp : q = p := honly q ⟨y, child_outline.mpr ⟨n, hn, hq⟩, hhas⟩
  rw [Sequential.findProjectionParentForSession, hy, ok_bind]
  simp only [findNode_of_ne_zero (lookup_pos hn), hn, ok_bind]
  rw [hq, hqp]
  rfl

end Muxly.Daemon
