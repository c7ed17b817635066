/-
# Muxly.Daemon.Outline -- what reconciliation does to the outline of a document

The outline of a document keeps, of every live node, its parent and the session, window or pane it
projects. Each function of `tmux/reconcile.zig` that succeeds makes one step on it: the `ensure`
functions find or add one node, `removeSubtree` takes a tree away.
-/
import Muxly.Daemon.Reconcile
import Muxly.Tree.Outline

namespace Muxly.Daemon

open Muxly.Control Muxly.Core Muxly.Tree Document

/-! ## The outline -/

/-- What a node projects. -/
structure Projects where
  session : Option Bytes
  window : Option Bytes
  pane : Option Bytes

/-- The session, window or pane that a node stands for. -/
def projectionOf (n : Node) : Projects where
  session := if n.kind = .subdocument then backendSuffix n.backendId sessionBackendPrefix else none
  window := windowProjectionId n
  pane := if n.kind = .ttyLeaf then ttyPaneId n.source else none

/-- A node as the outline has it. -/
def outlineEntry (n : Node) : Entry Projects := ⟨n.parentId, projectionOf n⟩

/-- The outline of a document. -/
def outline (d : Document) : Outline Projects := fun x => (d.lookup x).map outlineEntry

theorem outline_of_lookup {d : Document} {x : Nat} {n : Node} (h : d.lookup x = some n) :
    outline d x = some (outlineEntry n) := by rw [outline, h]; rfl

theorem outline_eq_none {d : Document} {x : Nat} : outline d x = none ↔ d.lookup x = none :=
  Option.map_eq_none_iff

theorem outline_eq_some {d : Document} {x : Nat} {e : Entry Projects} :
    outline d x = some e ↔ ∃ n, d.lookup x = some n ∧ outlineEntry n = e :=
  Option.map_eq_some_iff

theorem has_outline {d : Document} {hit : Projects → Prop} {x : Nat} :
    (outline d).Has hit x ↔ ∃ n, d.lookup x = some n ∧ hit (projectionOf n) := by
  constructor
  · rintro ⟨e, he, hhit⟩
    obtain ⟨n, hn, rfl⟩ := outline_eq_some.mp he
    exact ⟨n, hn, hhit⟩
  · rintro ⟨n, hn, hhit⟩
    exact ⟨_, outline_of_lookup hn, hhit⟩

theorem child_outline {d : Document} {p c : Nat} :
    (outline d).Child p c ↔ ∃ n, d.lookup c = some n ∧ n.parentId = some p := by
  constructor
  · rintro ⟨e, he, hp⟩
    obtain ⟨n, hn, rfl⟩ := outline_eq_some.mp he
    exact ⟨n, hn, hp⟩
  · rintro ⟨n, hn, hp⟩
    exact ⟨_, outline_of_lookup hn, hp⟩

/-- The children of a node are the nodes that name it as their parent. -/
theorem mem_children_iff {d : Document} (hv : Valid d) {p : Nat} {n : Node}
    (hp : d.lookup p = some n) {c : Nat} : c ∈ n.children ↔ (outline d).Child p c := by
  rw [child_outline]
  constructor
  · exact fun hc => hv.shape.child hp hc
  · rintro ⟨m, hm, hmp⟩
    obtain ⟨n', hn', hc⟩ := hv.linked hm hmp
    rw [hp] at hn'
    cases hn'
    exact hc

theorem wellFormed_outline {d : Document} (hv : Valid d) : (outline d).WellFormed where
  parent h := by
    obtain ⟨n, hn, hp⟩ := child_outline.mp h
    obtain ⟨m, hm, -⟩ := hv.linked hn hp
    exact ⟨_, outline_of_lookup hm⟩
  above h := by
    obtain ⟨n, hn, hp⟩ := child_outline.mp h
    exact (hv.shape.parent_lt hn hp).2

theorem outline_modifyNode (d : Document) (x : Nat) (f : Node → Node) (y : Nat) :
    outline (d.modifyNode x f) y
      = if y = x then (d.lookup y).map (fun n => outlineEntry (f n)) else outline d y := by
  unfold outline
  rw [lookup_modifyNode]
  split
  · exact Option.map_map _ _ _
  · rfl

/-- An edit of a node that keeps its entry. -/
theorem outline_modifyNode_of_eq {d : Document} {x : Nat} {n : Node} {f : Node → Node}
    (hx : d.lookup x = some n) (hf : outlineEntry (f n) = outlineEntry n) :
    outline (d.modifyNode x f) = outline d := by
  funext y
  rw [outline_modifyNode]
  split
  · rename_i hy
    rw [hy, hx, outline_of_lookup hx, Option.map_some, hf]
  · rfl

/-- Taking nodes out of a document takes them out of its outline. -/
theorem outline_pruned {d : Document} {p x : Nat} {postorder : List Nat}
    (hr : Removable d p x postorder) (total : Nat) :
    outline (d.pruned p x postorder total) = (outline d).drop {y | y ∈ postorder} := by
  funext y
  by_cases hy : y ∈ postorder
  · rw [Outline.drop_of_mem hy, outline_eq_none, hr.lookup_pruned, if_pos hy]
  · rw [Outline.drop_of_notMem hy]
    show ((d.pruned p x postorder total).lookup y).map outlineEntry = (d.lookup y).map outlineEntry
    rw [hr.lookup_pruned, if_neg hy, Option.map_map]
    refine congrFun (congrArg Option.map (funext fun n => ?_)) _
    show outlineEntry (if y = p then n.dropChild x else n) = outlineEntry n
    split <;> rfl

/-! ## Finding a child -/

/-- The test on one child in the searches of the source. -/
def testChild (d : Document) (test : Node → Bool) (childId : Nat) : Except Failure Bool := do
  let some child ← d.findNode childId | return false
  return test child

theorem testChild_eq {d : Document} {c : Nat} {m : Node} (hm : d.lookup c = some m)
    (test : Node → Bool) : testChild d test c = .ok (test m) := by
  rw [testChild, findNode_of_ne_zero (lookup_pos hm), hm]
  rfl

/-- A search among the children of a live node takes the first one that passes the test. -/
theorem findM?_testChild {d : Document} (hv : Valid d) {p : Nat} {n : Node}
    (hp : d.lookup p = some n) (test : Node → Bool) :
    n.children.findM? (testChild d test)
      = .ok (n.children.find? fun c => (d.lookup c).any test) := by
  apply findM?_ok
  intro c hc
  obtain ⟨m, hm, -⟩ := hv.shape.child hp hc
  rw [testChild_eq hm, hm]
  rfl

/-- The test is one on the outline. -/
theorem any_iff_has {d : Document} {test : Node → Bool} {hit : Projects → Prop}
    (hiff : ∀ m, test m = true ↔ hit (projectionOf m)) (c : Nat) :
    (d.lookup c).any test = true ↔ (outline d).Has hit c := by
  rw [has_outline, Option.any_eq_true]
  simp only [hiff]

/-- What a search among the children of a live node finds. -/
theorem findM?_children {d : Document} (hv : Valid d) {p : Nat} {n : Node}
    (hp : d.lookup p = some n) {test : Node → Bool} {hit : Projects → Prop}
    (hiff : ∀ m, test m = true ↔ hit (projectionOf m)) :
    ∃ found, n.children.findM? (testChild d test) = .ok found ∧
      match found with
      | some c => (outline d).Child p c ∧ (outline d).Has hit c
      | none => ∀ c, (outline d).Child p c → ¬ (outline d).Has hit c := by
  have hany : ∀ c, (d.lookup c).any test = true ↔ (outline d).Has hit c := any_iff_has hiff
  refine ⟨_, findM?_testChild hv hp test, ?_⟩
  cases hfind : n.children.find? fun c => (d.lookup c).any test with
  | some c =>
      have hc : c ∈ n.children := List.mem_of_find?_eq_some hfind
      have htest := List.find?_some (p := fun c => (d.lookup c).any test) hfind
      exact ⟨(mem_children_iff hv hp).mp hc, (hany c).mp htest⟩
  | none =>
      intro c hc hhit
      have hmem := (mem_children_iff hv hp).mpr hc
      exact List.find?_eq_none.mp hfind c hmem ((hany c).mpr hhit)

/-- A search among the children of a node, as `findChildByBackendId` and `findPaneChild` do it. -/
def searchChildren (d : Document) (p : Nat) (test : Node → Bool) : Except Failure (Option Nat) := do
  let some parent ← d.findNode p | return none
  parent.children.findM? (testChild d test)

theorem searchChildren_eq {d : Document} (hv : Valid d) {p : Nat} {n : Node}
    (hp : d.lookup p = some n) (test : Node → Bool) :
    searchChildren d p test = .ok (n.children.find? fun c => (d.lookup c).any test) := by
  rw [searchChildren, findNode_of_ne_zero (lookup_pos hp), hp]
  exact findM?_testChild hv hp test

/-- A search finds a child that passes the test, or there is none. -/
theorem searchChildren_cases {d : Document} (hv : Valid d) (p : Nat) (test : Node → Bool)
    (hit : Projects → Prop) (hiff : ∀ m, test m = true ↔ hit (projectionOf m)) :
    (∃ c, searchChildren d p test = .ok (some c) ∧ (outline d).Child p c ∧ (outline d).Has hit c) ∨
    ((∀ c, searchChildren d p test ≠ .ok (some c)) ∧
      ∀ c, (outline d).Child p c → ¬ (outline d).Has hit c) := by
  cases hp : d.lookup p with
  | none =>
      refine .inr ⟨fun c => ?_, fun c hc => ?_⟩
      · by_cases hp0 : p = 0
        · subst hp0
          exact fun h => by cases h
        · rw [searchChildren, findNode_of_ne_zero hp0, hp]
          exact fun h => by cases h
      · obtain ⟨e, he⟩ := (wellFormed_outline hv).parent hc
        rw [outline_eq_none.mpr hp] at he
        cases he
  | some n =>
      have hsearch : searchChildren d p test = n.children.findM? (testChild d test) := by
        rw [searchChildren, findNode_of_ne_zero (lookup_pos hp), hp]
        rfl
      obtain ⟨found, hfound, hspec⟩ := findM?_children hv hp hiff
      rw [hsearch, hfound]
      cases found with
      | none =>
          refine .inr ⟨fun c h => ?_, hspec⟩
          cases h
      | some c => exact .inl ⟨c, rfl, hspec⟩

theorem backendSuffix_eq_some {backendId : Option Bytes} {pre rest : Bytes} :
    backendSuffix backendId pre = some rest ↔ backendId = some (pre ++ rest) := by
  constructor
  · intro h
    obtain ⟨bid, rfl, hbid⟩ := Option.bind_eq_some_iff.mp h
    rw [afterPrefix_eq_some hbid]
  · rintro rfl
    exact afterPrefix_append pre rest

theorem windowProjectionId_eq_some {n : Node} {windowId : Bytes} :
    windowProjectionId n = some windowId ↔
      n.kind = .subdocument ∧ n.backendId = some (windowBackendPrefix ++ windowId) := by
  unfold windowProjectionId
  rw [← backendSuffix_eq_some]
  split <;> simp [*]

theorem projectedSession_eq_some {n : Node} {sessionId : Bytes} :
    (projectionOf n).session = some sessionId ↔
      n.kind = .subdocument ∧ n.backendId = some (sessionBackendPrefix ++ sessionId) := by
  show (if n.kind = .subdocument then _ else none) = _ ↔ _
  rw [← backendSuffix_eq_some]
  split <;> simp [*]

theorem projectedPane_eq_some {n : Node} {paneId : Bytes} :
    (projectionOf n).pane = some paneId ↔ n.kind = .ttyLeaf ∧ ttyPaneId n.source = some paneId := by
  show (if n.kind = .ttyLeaf then _ else none) = _ ↔ _
  split <;> simp [*]

/-- A session's backend id is no window's. -/
theorem backendSuffix_session_window (sessionId : Bytes) :
    backendSuffix (some (sessionBackendPrefix ++ sessionId)) windowBackendPrefix = none := by
  cases h : backendSuffix (some (sessionBackendPrefix ++ sessionId)) windowBackendPrefix with
  | none => rfl
  | some rest =>
      have heq := Option.some.inj (backendSuffix_eq_some.mp h)
      have htake := congrArg (List.take 6) heq
      rw [List.take_append_of_le_length (by decide), List.take_append_of_le_length (by decide)]
        at htake
      exact absurd htake (by decide)

/-! ## Adding nodes -/

/-- What a successful `appendNode` does: one fresh node below a live parent. -/
theorem appendNode_outline {d d' : Document} (hv : Valid d) {p x : Nat} {kind : NodeKind}
    {title : Bytes} {source : Source} (h : Document.appendNode p kind title source d = (.ok x, d')) :
    Valid d' ∧ d.lookup x = none ∧ (∃ m, d.lookup p = some m) ∧ p < x ∧
      ∃ name, d'.lookup x = some (preparedNode x p kind title source name) ∧
        outline d' = (outline d).add x (outlineEntry (preparedNode x p kind title source name)) := by
  rcases appendNode_cases hv.shape p kind title source with
    ⟨-, hp, name, -, heq⟩ | ⟨-, -, heq⟩ | ⟨-, heq⟩
  · rw [heq] at h
    cases h
    have ha := attachable_prepared hp kind title source name
    have hlook := ha.lookup_bumped hv.shape
    obtain ⟨m, hm⟩ := hp
    refine ⟨hv.attached ha rfl, ha.fresh hv.shape, ⟨m, hm⟩, hv.shape.lookup_lt hm, name, ?_, ?_⟩
    · exact (hlook _).trans (if_pos rfl)
    · funext y
      unfold outline Outline.add
      rw [hlook]
      -- The parent of the new node gets one more child, which its entry does not show.
      by_cases hy : y = (preparedNode d.nextNodeId p kind title source name).id
      · rw [if_pos hy]
        exact (if_pos hy).symm
      · rw [if_neg hy]
        refine Eq.trans ?_ (if_neg hy).symm
        split
        · exact Option.map_map _ _ _
        · rfl
  · rw [heq] at h
    cases h
  · rw [heq] at h
    cases h

/-- What a node with a backend id below a session or a parent projects. -/
def subdocumentProjection (bid : Bytes) : Projects :=
  ⟨backendSuffix (some bid) sessionBackendPrefix, backendSuffix (some bid) windowBackendPrefix, none⟩

/-- The test of `findChildByBackendId` for subdocuments. -/
def isSubdocumentOf (bid : Bytes) (child : Node) : Bool :=
  decide (child.kind = .subdocument) && child.backendId == some bid

theorem findChildByBackendId_eq (d : Document) (p : Nat) (bid : Bytes) :
    d.findChildByBackendId p .subdocument bid = searchChildren d p (isSubdocumentOf bid) := rfl

theorem isSubdocumentOf_iff {bid : Bytes} {n : Node} :
    isSubdocumentOf bid n = true ↔ n.kind = .subdocument ∧ n.backendId = some bid := by
  simp [isSubdocumentOf]

/-- A subdocument that is found only gets another title. -/
theorem ensureSubdocument_of_found {d d' : Document} {p c x : Nat} {bid title : Bytes}
    (hc : d.findChildByBackendId p .subdocument bid = .ok (some c))
    (h : ensureSubdocument p bid title d = (.ok x, d')) : x = c ∧ outline d' = outline d := by
  rw [ensureSubdocument, Action.bind_apply, Action.view_apply, hc, Action.next_ok] at h
  cases hm : d.lookup c with
  | none =>
      have hset := updateKnownNode_of_missing hm (·.setTitle title)
      simp only [Action.bind_apply, hset, Action.next_error] at h
      cases h
  | some m =>
      have hset := updateKnownNode_of_lookup hm (·.setTitle title)
      simp only [Action.bind_apply, hset, Action.next_ok] at h
      cases h
      exact ⟨rfl, outline_modifyNode_of_eq hm rfl⟩

/-- A subdocument that is not found is added. -/
theorem ensureSubdocument_of_not_found {d d' : Document} (hv : Valid d) {p x : Nat}
    {bid title : Bytes} (hc : ∀ c, d.findChildByBackendId p .subdocument bid ≠ .ok (some c))
    (h : ensureSubdocument p bid title d = (.ok x, d')) :
    outline d x = none ∧ (∃ e, outline d p = some e) ∧ p < x ∧
      outline d' = (outline d).add x ⟨some p, subdocumentProjection bid⟩ := by
  have happend : (do
      let nodeId ← Document.appendNode p .subdocument title .none
      setNodeBackendId nodeId bid
      return nodeId : DocM Nat) d = (.ok x, d') := by
    rw [ensureSubdocument, Action.bind_apply, Action.view_apply] at h
    cases hfind : d.findChildByBackendId p .subdocument bid with
    | error e =>
        rw [hfind] at h
        cases h
    | ok found =>
        rw [hfind, Action.next_ok] at h
        cases found with
        | none => exact h
        | some c => exact absurd hfind (hc c)
  rw [Action.bind_apply] at happend
  rcases happ : Document.appendNode p .subdocument title .none d with ⟨_ | z, d₁⟩
  · rw [happ] at happend
    cases happend
  · rw [happ, Action.next_ok, Action.bind_apply] at happend
    obtain ⟨-, hfresh, ⟨m, hm⟩, hlt, name, hz, hadd⟩ := appendNode_outline hv happ
    have hset : setNodeBackendId z bid d₁ = (.ok (), d₁.modifyNode z (·.setBackendId bid)) :=
      updateKnownNode_of_lookup hz _
    rw [hset, Action.next_ok] at happend
    cases happend
    refine ⟨outline_eq_none.mpr hfresh, ⟨_, outline_of_lookup hm⟩, hlt, ?_⟩
    funext k
    rw [outline_modifyNode, hadd]
    by_cases hk : k = x
    · rw [if_pos hk, hk, hz]
      exact (if_pos rfl).symm
    · rw [if_neg hk]
      exact (if_neg hk).trans (if_neg hk).symm

/-- `ensureSubdocument` finds a child with the backend id, or adds one. -/
theorem ensureSubdocument_outline {d d' : Document} (hv : Valid d) {p x : Nat} {bid title : Bytes}
    (h : ensureSubdocument p bid title d = (.ok x, d')) (hit : Projects → Prop)
    (hhit : ∀ n : Node, hit (projectionOf n) ↔ n.kind = .subdocument ∧ n.backendId = some bid) :
    Valid d' ∧ (outline d).Ensured p hit (subdocumentProjection bid) x (outline d') := by
  have hvalid : Valid d' := by
    have := (ensureSubdocument_settled p bid title d hv).1
    rwa [h] at this
  refine ⟨hvalid, ?_⟩
  rcases searchChildren_cases hv p (isSubdocumentOf bid) hit
      (fun n => isSubdocumentOf_iff.trans (hhit n).symm) with
    ⟨c, hc, hchild, hhas⟩ | ⟨hc, hnone⟩
  · obtain ⟨rfl, hout⟩ := ensureSubdocument_of_found hc h
    rw [hout]
    exact .found hchild hhas
  · obtain ⟨hfresh, hparent, hlt, hout⟩ := ensureSubdocument_of_not_found hv hc h
    rw [hout]
    exact .added hnone hfresh hparent hlt

/-- What a projected pane projects. -/
def paneProjection (paneId : Bytes) : Projects := ⟨none, none, some paneId⟩

/-- The test of `findPaneChild`. -/
def isLeafOf (paneId : Bytes) (child : Node) : Bool :=
  decide (child.kind = .ttyLeaf) && ttyPaneId child.source == some paneId

theorem findPaneChild_eq (d : Document) (p : Nat) (paneId : Bytes) :
    findPaneChild d p paneId = searchChildren d p (isLeafOf paneId) := rfl

theorem isLeafOf_iff {paneId : Bytes} {n : Node} :
    isLeafOf paneId n = true ↔ (projectionOf n).pane = some paneId := by
  rw [projectedPane_eq_some]
  simp [isLeafOf]

/-- A pane that is found gets another title and a source that names the same pane. -/
theorem paneEdit_outline {d : Document} {c : Nat} {m : Node} {snapshot : PaneSnapshot}
    (hm : d.lookup c = some m) (hpane : (projectionOf m).pane = some snapshot.paneId)
    (title : Bytes) :
    (do updateKnownNode c (·.setTitle title)
        updateKnownNode c (·.setSource (paneSource snapshot))
        return c : DocM Nat) d
      = (.ok c, (d.modifyNode c (·.setTitle title)).modifyNode c
        (·.setSource (paneSource snapshot))) ∧
    outline ((d.modifyNode c (·.setTitle title)).modifyNode c (·.setSource (paneSource snapshot)))
      = outline d := by
  obtain ⟨hkind, hid⟩ := projectedPane_eq_some.mp hpane
  have hm' : (d.modifyNode c (·.setTitle title)).lookup c = some (m.setTitle title) := by
    rw [lookup_modifyNode, if_pos rfl, hm]
    rfl
  constructor
  · have htitle := updateKnownNode_of_lookup hm (·.setTitle title)
    have hsource := updateKnownNode_of_lookup hm' (·.setSource (paneSource snapshot))
    simp only [Action.bind_apply, htitle, Action.next_ok, hsource]
    rfl
  · have hentry : outlineEntry ((m.setTitle title).setSource (paneSource snapshot))
        = outlineEntry (m.setTitle title) := by
      show Entry.mk m.parentId (Projects.mk _ _ (if m.kind = .ttyLeaf then some snapshot.paneId
          else none))
        = Entry.mk m.parentId (Projects.mk _ _ (if m.kind = .ttyLeaf then ttyPaneId m.source
          else none))
      rw [hid]
      rfl
    rw [outline_modifyNode_of_eq hm' hentry, outline_modifyNode_of_eq hm rfl]

/-- `ensurePaneNode` finds the pane among the children of the window, or adds it there. -/
theorem ensurePaneNode_outline {d d' : Document} (hv : Valid d) {w x : Nat}
    {snapshot : PaneSnapshot} (h : ensurePaneNode w snapshot d = (.ok x, d')) :
    Valid d' ∧ (outline d).Ensured w (·.pane = some snapshot.paneId)
      (paneProjection snapshot.paneId) x (outline d') := by
  have hvalid : Valid d' := by
    have := (ensurePaneNode_settled w snapshot d hv).1
    rwa [h] at this
  refine ⟨hvalid, ?_⟩
  simp only [ensurePaneNode] at h
  rw [Action.bind_apply, Action.view_apply] at h
  rcases searchChildren_cases hv w (isLeafOf snapshot.paneId) (·.pane = some snapshot.paneId)
      (fun _ => isLeafOf_iff) with ⟨c, hc, hchild, hhas⟩ | ⟨hc, hnone⟩
  · obtain ⟨m, hm, hpane⟩ := has_outline.mp hhas
    rw [findPaneChild_eq, hc, Action.next_ok] at h
    obtain ⟨hrun, hout⟩ := paneEdit_outline hm hpane
      (if snapshot.paneTitle ≠ [] then snapshot.paneTitle else snapshot.paneId)
    simp only [hrun] at h
    cases h
    rw [hout]
    exact .found hchild hhas
  · cases hfind : findPaneChild d w snapshot.paneId with
    | error e =>
        rw [hfind] at h
        cases h
    | ok found =>
        rw [hfind, Action.next_ok] at h
        cases found with
        | some c => exact absurd hfind (hc c)
        | none =>
            obtain ⟨-, hfresh, ⟨m, hm⟩, hlt, name, -, hadd⟩ := appendNode_outline hv h
            rw [hadd]
            exact .added hnone (outline_eq_none.mpr hfresh) ⟨_, outline_of_lookup hm⟩ hlt

/-! ## Taking trees away -/

/-- A leaf that is live and not the root goes. -/
theorem removeNode_outline {d d' : Document} (hv : Valid d) {x : Nat} (hx : x ≠ 1)
    (h : Document.removeNode x d = (.ok (), d')) : Valid d' ∧ outline d' = (outline d).drop {x} := by
  have hvalid : Valid d' := by
    have := (removeNode_sound hv hx).1
    rwa [h] at this
  refine ⟨hvalid, ?_⟩
  rcases removeNode_cases hv hx with ⟨n, p, hn, hleaf, hp, heq⟩ | ⟨f, heq⟩
  · have hpost : [x].Perm (hv.shape.forest.postorder x) := by
      rw [hv.shape.postorder_leaf hn hleaf]
    obtain ⟨hr, -⟩ := hv.removal hn hp hpost
    rw [heq] at h
    cases h
    rw [outline_pruned hr]
    congr 1
    ext y
    simp
  · rw [heq] at h
    cases h

/-- A loop whose turns take closed sets away takes all of them away. -/
theorem forM_drops {O : Outline Projects} {f : Nat → DocM Unit} {R : Nat → Set Nat}
    (hR : ∀ x, O.Closed (R x)) (xs : List Nat)
    (hf : ∀ x ∈ xs, ∀ {S d d'}, O.Closed S → Valid d → outline d = O.drop S →
      f x d = (.ok (), d') → Valid d' ∧ outline d' = O.drop (S ∪ R x))
    {S : Set Nat} {d d' : Document} (hS : O.Closed S) (hv : Valid d)
    (hd : outline d = O.drop S) (h : xs.forM f d = (.ok (), d')) :
    Valid d' ∧ outline d' = O.drop (S ∪ {y | ∃ x ∈ xs, y ∈ R x}) := by
  induction xs generalizing S d with
  | nil =>
      cases h
      refine ⟨hv, hd.trans ?_⟩
      congr 1
      ext y
      simp
  | cons x rest ih =>
      rw [Action.forM_cons_apply] at h
      rcases hx : f x d with ⟨_ | _, d₁⟩
      · rw [hx] at h
        cases h
      · rw [hx, Action.next_ok] at h
        obtain ⟨hv₁, hd₁⟩ := hf x (List.mem_cons_self ..) hS hv hd hx
        obtain ⟨hv', hd'⟩ := ih (fun y hy => hf y (List.mem_cons_of_mem _ hy)) (hS.union (hR x)) hv₁
          hd₁ h
        refine ⟨hv', hd'.trans ?_⟩
        congr 1
        ext y
        simp [or_assoc]

/-- `removeSubtree` takes the tree below a node away. -/
theorem removeProjection_outline {O : Outline Projects} (fuel : Nat) {x : Nat} (hx : x ≠ 1)
    {S : Set Nat} {d d' : Document} (hS : O.Closed S) (hv : Valid d) (hd : outline d = O.drop S)
    (h : removeProjection fuel x d = (.ok (), d')) :
    Valid d' ∧ outline d' = O.drop (S ∪ {y | O.Under x y}) := by
  induction fuel generalizing x S d d' with
  | zero => cases h
  | succ fuel ih =>
      rw [removeProjection, Action.bind_apply, Action.view_apply] at h
      cases hl : d.lookup x with
      | none =>
          rw [nodeOr_of_missing hl] at h
          cases h
      | some n =>
          rw [nodeOr_of_lookup hl, Action.next_ok, Action.bind_apply] at h
          rcases hrest : n.children.forM (removeProjection fuel) d with ⟨_ | _, d₁⟩
          · rw [hrest] at h
            cases h
          · rw [hrest, Action.next_ok] at h
            obtain ⟨hv₁, hd₁⟩ := forM_drops (R := fun c => {y | O.Under c y}) O.closed_under
              n.children (fun c hc => ih (child_ne_root hv.shape hl hc)) hS hv hd hrest
            obtain ⟨hv', hd'⟩ := removeNode_outline hv₁ hx h
            refine ⟨hv', ?_⟩
            have hxS : x ∉ S := by
              intro hmem
              have hnone : outline d x = none := by rw [hd, Outline.drop_of_mem hmem]
              rw [outline_eq_none, hl] at hnone
              cases hnone
            rw [hd', hd₁, Outline.drop_drop]
            -- A child that went before belongs to `S`, and so does everything below it.
            congr 1
            ext y
            simp only [Set.mem_union, Set.mem_ofPred_eq, Set.mem_singleton_iff]
            rw [Outline.under_iff]
            constructor
            · rintro ((hy | ⟨c, hc, hy⟩) | rfl)
              · exact .inl hy
              · have hchild := (mem_children_iff hv hl).mp hc
                rw [hd, Outline.child_drop] at hchild
                exact .inr (.inr ⟨c, hchild.2, hy⟩)
              · exact .inr (.inl rfl)
            · rintro (hy | rfl | ⟨c, hc, hy⟩)
              · exact .inl (.inl hy)
              · exact .inr rfl
              · by_cases hcS : c ∈ S
                · exact .inl (.inl (hS.under hcS hy))
                · refine .inl (.inr ⟨c, ?_, hy⟩)
                  rw [mem_children_iff hv hl, hd, Outline.child_drop]
                  exact ⟨hcS, hc⟩

theorem removeSubtreeNodes_outline {O : Outline Projects} {x : Nat} (hx : x ≠ 1)
    {S : Set Nat} {d d' : Document} (hS : O.Closed S) (hv : Valid d) (hd : outline d = O.drop S)
    (h : removeSubtreeNodes x d = (.ok (), d')) :
    Valid d' ∧ outline d' = O.drop (S ∪ {y | O.Under x y}) :=
  removeProjection_outline _ hx hS hv hd h

end Muxly.Daemon
