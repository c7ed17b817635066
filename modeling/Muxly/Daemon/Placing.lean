/-
# Muxly.Daemon.Placing -- what the first loop of a reconciliation pass writes

Each turn of the loop finds or adds a window below the session and a pane below the window, and
writes the titles and the source that the snapshot gives. `Put` says what one such step does to the
nodes of a document. When no window and no pane is there twice, `Titled` holds after the loop: every
window and every pane shows the last snapshot that names it.
-/
import Muxly.Daemon.Rebuild

namespace Muxly.Daemon

open Muxly.Control Muxly.Core Muxly.Tree Document

/-! ## Finding or adding one node -/

/-- `x` was found below `p` and edited, or it was added there the way the edit leaves a node. -/
structure Put (d d' : Document) (p x : Nat) (edit : Node → Node) : Prop where
  fixed : ∃ n, d'.lookup x = some n ∧ edit n = n
  found : ∀ n, d.lookup x = some n → d'.lookup x = some (edit n)
  others : ∀ y, y ≠ x → d'.lookup y = d.lookup y ∨
    y = p ∧ d.lookup x = none ∧ d'.lookup y = (d.lookup y).map (·.addChild x)
  next : d'.nextNodeId ≤ d.nextNodeId + 1
  slots : (∃ n, d.lookup x = some n) →
    d' = { d with nodeSlots := d'.nodeSlots } ∧ d'.nodeSlots.length = d.nodeSlots.length

/-- A node that was there is there with another list of children at most. -/
theorem Put.old {d d' : Document} {p x : Nat} {edit : Node → Node} (h : Put d d' p x edit) {y : Nat}
    (hy : y ≠ x) {n' : Node} (hn' : d'.lookup y = some n') :
    ∃ n, d.lookup y = some n ∧ (n' = n ∨ y = p ∧ n' = n.addChild x) := by
  rcases h.others y hy with hsame | ⟨hp, -, hadd⟩
  · exact ⟨n', hsame ▸ hn', .inl rfl⟩
  · rw [hadd] at hn'
    obtain ⟨n, hn, heq⟩ := Option.map_eq_some_iff.mp hn'
    exact ⟨n, hn, .inr ⟨hp, heq.symm⟩⟩

/-- When the node was there, the others stay as they are. -/
theorem Put.only {d d' : Document} {p x : Nat} {edit : Node → Node} (h : Put d d' p x edit)
    {n : Node} (hx : d.lookup x = some n) {y : Nat} (hy : y ≠ x) : d'.lookup y = d.lookup y := by
  rcases h.others y hy with hsame | ⟨-, hnone, -⟩
  · exact hsame
  · rw [hx] at hnone
    cases hnone

theorem put_found {d d' : Document} {p x : Nat} {n : Node} (hx : d.lookup x = some n)
    {edit : Node → Node} (hedit : edit (edit n) = edit n)
    (hlook : ∀ y, d'.lookup y = if y = x then (d.lookup y).map edit else d.lookup y)
    (hslots : d' = { d with nodeSlots := d'.nodeSlots })
    (hlength : d'.nodeSlots.length = d.nodeSlots.length) : Put d d' p x edit where
  fixed := ⟨edit n, by rw [hlook, if_pos rfl, hx]; rfl, hedit⟩
  found m hm := by rw [hlook, if_pos rfl, hm]; rfl
  others y hy := by rw [hlook, if_neg hy]; exact .inl rfl
  next := by
    rw [hslots]
    exact Nat.le_succ _
  slots _ := ⟨hslots, hlength⟩

theorem put_added {d d' : Document} {p x : Nat} {edit : Node → Node} {node : Node}
    (hx : d.lookup x = none) (hnode : edit node = node)
    (hlook : ∀ y, d'.lookup y = if y = x then some node
      else if y = p then (d.lookup y).map (·.addChild x) else d.lookup y)
    (hnext : d'.nextNodeId = d.nextNodeId + 1) : Put d d' p x edit where
  fixed := ⟨node, by rw [hlook, if_pos rfl], hnode⟩
  found n hn := by
    rw [hx] at hn
    cases hn
  others y hy := by
    rw [hlook, if_neg hy]
    split
    · exact .inr ⟨‹_›, hx, rfl⟩
    · exact .inl rfl
  next := hnext.le
  slots h := by
    obtain ⟨n, hn⟩ := h
    rw [hx] at hn
    cases hn

/-- The search among the children of a live node gives an answer. -/
theorem searchChildren_live {d : Document} (hv : Valid d) {p : Nat} (hp : ∃ n, d.lookup p = some n)
    (test : Node → Bool) (hit : Projects → Prop) (hiff : ∀ m, test m = true ↔ hit (projectionOf m)) :
    (∃ c m, searchChildren d p test = .ok (some c) ∧ d.lookup c = some m ∧ hit (projectionOf m)) ∨
      searchChildren d p test = .ok none ∧
        ∀ c, (outline d).Child p c → ¬ (outline d).Has hit c := by
  obtain ⟨n, hn⟩ := hp
  have hsearch : searchChildren d p test = n.children.findM? (testChild d test) := by
    rw [searchChildren, findNode_of_ne_zero (lookup_pos hn), hn]
    rfl
  obtain ⟨found, hfound, hspec⟩ := findM?_children hv hn hiff
  rw [hsearch, hfound]
  cases found with
  | none => exact .inr ⟨rfl, hspec⟩
  | some c =>
      obtain ⟨m, hm, hhit⟩ := has_outline.mp hspec.2
      exact .inl ⟨c, m, rfl, hm, hhit⟩

/-- Ids have run out. -/
def Exhausted {α : Type} (used : Nat) (d : Document) (run : Except Failure α × Document) : Prop :=
  u64Limit ≤ d.nextNodeId + used ∧ run.1 = .error (.panic .integerOverflow)

theorem Exhausted.next {α β : Type} {used : Nat} {d : Document} {run : Except Failure α × Document}
    (h : Exhausted used d run) (k : α → DocM β) : Exhausted used d (Action.next k run) := by
  obtain ⟨hlimit, hrun⟩ := h
  rcases run with ⟨_ | _, _⟩
  · exact ⟨hlimit, congrArg Except.error (Except.error.inj hrun)⟩
  · cases hrun

theorem Exhausted.later {α : Type} {used more : Nat} {d d₁ : Document}
    {run : Except Failure α × Document} (h : Exhausted more d₁ run)
    (hnext : d₁.nextNodeId ≤ d.nextNodeId + used) : Exhausted (used + more) d run :=
  ⟨h.1.trans (by omega), h.2⟩

/-- `appendNode` below a live node, unless the ids have run out. -/
theorem appendNode_live {d : Document} (hv : Valid d) {p : Nat} (hp : ∃ n, d.lookup p = some n)
    (kind : NodeKind) (title : Bytes) (source : Source) :
    (d.lookup d.nextNodeId = none ∧ ∃ name d',
      Document.appendNode p kind title source d = (.ok d.nextNodeId, d') ∧
      d'.nextNodeId = d.nextNodeId + 1 ∧
      ∀ y, d'.lookup y = if y = d.nextNodeId then
          some (preparedNode d.nextNodeId p kind title source name)
        else if y = p then (d.lookup y).map (·.addChild d.nextNodeId) else d.lookup y) ∨
      Exhausted 1 d (Document.appendNode p kind title source d) := by
  rcases appendNode_cases hv.shape p kind title source with
    ⟨-, -, name, -, heq⟩ | ⟨-, hmissing, -⟩ | ⟨hlimit, heq⟩
  · have ha := attachable_prepared hp kind title source name
    exact .inl ⟨ha.fresh hv.shape, name, _, heq, rfl, ha.lookup_bumped hv.shape⟩
  · obtain ⟨n, hn⟩ := hp
    rw [hn] at hmissing
    cases hmissing
  · rw [heq]
    exact .inr ⟨by omega, rfl⟩

/-- `ensureSubdocument` below a live node, unless the ids have run out. -/
theorem ensureSubdocument_put {d : Document} (hv : Valid d) {p : Nat} (hp : ∃ n, d.lookup p = some n)
    (bid title : Bytes) (hit : Projects → Prop)
    (hiff : ∀ n, isSubdocumentOf bid n = true ↔ hit (projectionOf n)) :
    (∃ x d', ensureSubdocument p bid title d = (.ok x, d') ∧ Put d d' p x (·.setTitle title)) ∨
      (∀ c, (outline d).Child p c → ¬ (outline d).Has hit c) ∧
        Exhausted 1 d (ensureSubdocument p bid title d) := by
  simp only [ensureSubdocument]
  rw [Action.bind_apply, Action.view_apply, findChildByBackendId_eq]
  rcases searchChildren_live hv hp (isSubdocumentOf bid) hit hiff with ⟨c, m, hc, hm, -⟩ | ⟨hsearch, hnone⟩
  · rw [hc, Action.next_ok]
    have hset := updateKnownNode_of_lookup hm (·.setTitle title)
    refine .inl ⟨c, _, ?_, put_found hm rfl (lookup_modifyNode d c _) rfl (length_modifyNode d c _)⟩
    simp only [Action.bind_apply, hset, Action.next_ok]
    rfl
  · rw [hsearch, Action.next_ok]
    simp only [Action.bind_apply]
    rcases appendNode_live hv hp .subdocument title .none with
      ⟨hfresh, name, d₁, hrun, hnext, hlook⟩ | hexhausted
    · have hset := updateKnownNode_of_lookup ((hlook _).trans (if_pos rfl)) (·.setBackendId bid)
      rw [hrun, Action.next_ok]
      have hlast : ∀ y, (d₁.modifyNode d.nextNodeId (·.setBackendId bid)).lookup y
          = if y = d.nextNodeId then
              some ((preparedNode d.nextNodeId p .subdocument title .none name).setBackendId bid)
            else if y = p then (d.lookup y).map (·.addChild d.nextNodeId) else d.lookup y := by
        intro y
        rw [lookup_modifyNode, hlook]
        split <;> rfl
      exact .inl ⟨d.nextNodeId, _, congrArg (Action.next _) hset, put_added hfresh rfl hlast hnext⟩
    · exact .inr ⟨hnone, hexhausted.next _⟩

/-- The title of a pane. -/
def paneTitle (snapshot : PaneSnapshot) : Bytes :=
  if snapshot.paneTitle ≠ [] then snapshot.paneTitle else snapshot.paneId

/-- What `ensurePaneNode` writes. -/
def showPane (snapshot : PaneSnapshot) (n : Node) : Node :=
  (n.setTitle (paneTitle snapshot)).setSource (paneSource snapshot)

/-- `ensurePaneNode` below a live node, unless the ids have run out. -/
theorem ensurePaneNode_put {d : Document} (hv : Valid d) {w : Nat} (hw : ∃ n, d.lookup w = some n)
    (snapshot : PaneSnapshot) :
    (∃ x d', ensurePaneNode w snapshot d = (.ok x, d') ∧ Put d d' w x (showPane snapshot)) ∨
      (∀ c, (outline d).Child w c → ¬ HasPane (outline d) snapshot.paneId c) ∧
        Exhausted 1 d (ensurePaneNode w snapshot d) := by
  simp only [ensurePaneNode]
  rw [Action.bind_apply, Action.view_apply, findPaneChild_eq]
  rcases searchChildren_live hv hw (isLeafOf snapshot.paneId) (·.pane = some snapshot.paneId)
      (fun _ => isLeafOf_iff) with ⟨c, m, hc, hm, hpane⟩ |
      ⟨hsearch, hnone⟩
  · rw [hc, Action.next_ok]
    obtain ⟨hrun, -⟩ := paneEdit_outline hm hpane (paneTitle snapshot)
    refine .inl ⟨c, _, hrun, put_found hm rfl (fun y => ?_) rfl ?_⟩
    · rw [lookup_modifyNode, lookup_modifyNode]
      split
      · rw [Option.map_map]
        rfl
      · rfl
    · rw [length_modifyNode, length_modifyNode]
  · rw [hsearch, Action.next_ok]
    rcases appendNode_live hv hw .ttyLeaf (paneTitle snapshot) (paneSource snapshot) with
      ⟨hfresh, name, d₁, hrun, hnext, hlook⟩ | hexhausted
    · exact .inl ⟨_, _, hrun, put_added hfresh rfl hlook hnext⟩
    · exact .inr ⟨hnone, hexhausted⟩

/-! ## One turn -/

/-- The title of a window. -/
def windowTitle (snapshot : PaneSnapshot) : Bytes :=
  if snapshot.windowName ≠ [] then snapshot.windowName else snapshot.windowId

/-- What a window node projects. -/
def windowProjection (snapshot : PaneSnapshot) : Projects :=
  subdocumentProjection (windowBackendPrefix ++ snapshot.windowId)

theorem windowProjection_window (snapshot : PaneSnapshot) :
    (windowProjection snapshot).window = some snapshot.windowId := by
  show backendSuffix (some (windowBackendPrefix ++ _)) windowBackendPrefix = _
  exact backendSuffix_eq_some.mpr rfl

/-- What one turn of the first loop does: a window `w` below the session, then a pane `x` below it. -/
structure Turn (s : Nat) (snapshot : PaneSnapshot) (d d₁ d' : Document) (w x : Nat) : Prop where
  valid₁ : Valid d₁
  valid : Valid d'
  window : Put d d₁ s w (·.setTitle (windowTitle snapshot))
  windowThere : (outline d).Ensured s (·.window = some snapshot.windowId)
    (windowProjection snapshot) w (outline d₁)
  pane : Put d₁ d' w x (showPane snapshot)
  paneThere : (outline d₁).Ensured w (·.pane = some snapshot.paneId)
    (paneProjection snapshot.paneId) x (outline d')

/-- A turn succeeds, unless it has to add a node and the ids have run out. -/
theorem ensureTurn_cases {d : Document} (hv : Valid d) {s : Nat} (hs : ∃ n, d.lookup s = some n)
    {snapshot : PaneSnapshot}
    (hone : (outline d).AtMostOne s (·.window = some snapshot.windowId)) (desired : List Bytes) :
    (∃ ids d₁ d' w x, ensureTurn s desired snapshot d = (.ok ids, d') ∧
      Turn s snapshot d d₁ d' w x) ∨
    (∀ q x, (outline d).Child s q → HasWindow (outline d) snapshot.windowId q →
      (outline d).Child q x → ¬ HasPane (outline d) snapshot.paneId x) ∧
        Exhausted 2 d (ensureTurn s desired snapshot d) := by
  rw [ensureTurn, Action.bind_apply]
  rcases ensureSubdocument_put hv hs (windowBackendPrefix ++ snapshot.windowId)
      (windowTitle snapshot) (·.window = some snapshot.windowId)
      (fun _ => isSubdocumentOf_iff.trans windowProjectionId_eq_some.symm)
      with ⟨w, d₁, hrun, hput⟩ | ⟨hnone, hexhausted⟩
  · obtain ⟨hv₁, hthere⟩ := ensureSubdocument_outline hv hrun (·.window = some snapshot.windowId)
      fun _ => windowProjectionId_eq_some
    have hwindow : ensureWindowNode s snapshot d = (.ok w, d₁) := hrun
    rw [hwindow, Action.next_ok, Action.bind_apply]
    obtain ⟨n, hn, -⟩ := hput.fixed
    rcases ensurePaneNode_put hv₁ ⟨n, hn⟩ snapshot with ⟨x, d', hpane, hput'⟩ | ⟨hnone, hexhausted⟩
    · obtain ⟨hv', hthere'⟩ := ensurePaneNode_outline hv₁ hpane
      rw [hpane]
      exact .inl ⟨_, d₁, d', w, x, rfl, hv₁, hv', hput, hthere, hput', hthere'⟩
    · -- Had the pane been below a window of the snapshot, this window is the one that was found.
      refine .inr ⟨fun q x hq hw hx hp => ?_, (hexhausted.next _).later hput.next⟩
      have hthere' := hthere.there (windowProjection_window snapshot)
      have heq := hthere.atMostOne hone (fun hlabel _ l hl => by
        rw [hl, ← windowProjection_window snapshot]) q w (hthere.grows.child hq)
        (hthere.grows.has hw) hthere'.1 hthere'.2
      subst heq
      exact hnone x (hthere.grows.child hx) (hthere.grows.has hp)
  · exact .inr ⟨fun q x hq hw _ _ => hnone q hq hw, (hexhausted.next _).later (Nat.le_succ _)⟩

/-- A window is no pane. -/
theorem window_ne_pane {d : Document} {windowId paneId : Bytes} {q x : Nat}
    (hq : HasWindow (outline d) windowId q) (hx : HasPane (outline d) paneId x) : q ≠ x := by
  rintro rfl
  obtain ⟨n, hn, hwindow⟩ := has_outline.mp hq
  obtain ⟨m, hm, hpane⟩ := has_outline.mp hx
  rw [hn] at hm
  cases hm
  have hkind := (windowProjectionId_eq_some.mp hwindow).1
  rw [(projectedPane_eq_some.mp hpane).1] at hkind
  cases hkind

section Turn

variable {s w x : Nat} {snapshot : PaneSnapshot} {d d₁ d' : Document}
  (ht : Turn s snapshot d d₁ d' w x)
include ht

theorem Turn.grows : (outline d).Extends (outline d') := fun _ _ hy =>
  ht.paneThere.grows (ht.windowThere.grows hy)

theorem Turn.window_there :
    (outline d').Child s w ∧ HasWindow (outline d') snapshot.windowId w := by
  obtain ⟨hchild, hhas⟩ := ht.windowThere.there (windowProjection_window snapshot)
  exact ⟨ht.paneThere.grows.child hchild, ht.paneThere.grows.has hhas⟩

theorem Turn.pane_there : (outline d').Child w x ∧ HasPane (outline d') snapshot.paneId x :=
  ht.paneThere.there rfl

theorem Turn.lt : s < w ∧ w < x :=
  ⟨(wellFormed_outline ht.valid).above ht.window_there.1,
    (wellFormed_outline ht.valid).above ht.pane_there.1⟩

/-- Another node keeps all but its children. -/
theorem Turn.old {y : Nat} (hw : y ≠ w) (hx : y ≠ x) {n' : Node} (hn' : d'.lookup y = some n') :
    ∃ n, d.lookup y = some n ∧ n'.title = n.title ∧ n'.source = n.source ∧
      outline d' y = outline d y := by
  obtain ⟨m, hm, hm'⟩ := ht.pane.old hx hn'
  obtain ⟨n, hn, hn''⟩ := ht.window.old hw hm
  refine ⟨n, hn, ?_, ?_, ?_⟩
  · rcases hm' with rfl | ⟨-, rfl⟩ <;> rcases hn'' with rfl | ⟨-, rfl⟩ <;> rfl
  · rcases hm' with rfl | ⟨-, rfl⟩ <;> rcases hn'' with rfl | ⟨-, rfl⟩ <;> rfl
  · rw [outline_of_lookup hn, outline_of_lookup hn']
    rcases hm' with rfl | ⟨-, rfl⟩ <;> rcases hn'' with rfl | ⟨-, rfl⟩ <;> rfl

/-- A node that had a child before the turn was there, as it is after it. -/
theorem Turn.parent_old (hv : Valid d) {p q y : Nat} (hy : (outline d).Child q y)
    (hq : (outline d').Child p q) {hit : Projects → Prop} (hhit : (outline d').Has hit q) :
    (outline d).Child p q ∧ (outline d).Has hit q := by
  obtain ⟨e, he⟩ := (wellFormed_outline hv).parent hy
  obtain ⟨f, hf, hparent⟩ := hq
  obtain ⟨g, hg, hhit⟩ := hhit
  rw [ht.grows he] at hf hg
  cases hf
  cases hg
  exact ⟨⟨e, he, hparent⟩, ⟨e, he, hhit⟩⟩

/-- The window has its title. -/
theorem Turn.window_title {n' : Node} (hn' : d'.lookup w = some n') :
    n'.title = windowTitle snapshot := by
  obtain ⟨m, hm, hm'⟩ := ht.pane.old ht.lt.2.ne hn'
  obtain ⟨n, hn, hfixed⟩ := ht.window.fixed
  rw [hm] at hn
  cases hn
  have htitle : m.title = windowTitle snapshot := (congrArg Node.title hfixed).symm
  rcases hm' with rfl | ⟨-, rfl⟩
  · exact htitle
  · exact htitle

/-- The pane is as the snapshot shows it. -/
theorem Turn.pane_shown {n' : Node} (hn' : d'.lookup x = some n') :
    n'.title = paneTitle snapshot ∧ n'.source = paneSource snapshot := by
  obtain ⟨n, hn, hfixed⟩ := ht.pane.fixed
  rw [hn'] at hn
  cases hn
  exact ⟨(congrArg Node.title hfixed).symm, (congrArg Node.source hfixed).symm⟩

end Turn

/-! ## Titles -/

/-- No window of the snapshots is below the session twice, and no pane twice below its window. -/
structure Single (O : Outline Projects) (s : Nat) (snapshots : List PaneSnapshot) : Prop where
  window : ∀ snapshot ∈ snapshots, O.AtMostOne s (·.window = some snapshot.windowId)
  pane : ∀ snapshot ∈ snapshots, ∀ {w}, O.Child s w → HasWindow O snapshot.windowId w →
    O.AtMostOne w (·.pane = some snapshot.paneId)

/-- A turn finds what is there, so nothing gets a second time. -/
theorem Single.turn {s w x : Nat} {snapshots : List PaneSnapshot} {snapshot : PaneSnapshot}
    {d d₁ d' : Document} (h : Single (outline d) s snapshots) (hv : Valid d)
    (ht : Turn s snapshot d d₁ d' w x) : Single (outline d') s snapshots where
  window other hother := by
    refine ht.paneThere.atMostOne (ht.windowThere.atMostOne (h.window other hother) ?_) ?_
    · intro hlabel _ l hl
      rw [windowProjection_window] at hlabel
      rw [hl, ← hlabel]
    · intro hlabel
      cases hlabel
  pane other hother {q} hq hw := by
    refine ht.paneThere.atMostOne (ht.windowThere.atMostOne ?_ ?_) ?_
    · intro y z hy hyp hz hzp
      -- The window has a child, so it was there before the turn.
      obtain ⟨hq', hw'⟩ := ht.parent_old hv hy hq hw
      exact h.pane other hother hq' hw' y z hy hyp hz hzp
    · intro hlabel
      cases hlabel
    · intro hlabel _ l hl
      rw [hl, ← hlabel]
      rfl

/-- The last of the snapshots that passes a test. -/
def latest (test : PaneSnapshot → Bool) (snapshots : List PaneSnapshot) : Option PaneSnapshot :=
  snapshots.reverse.find? test

theorem latest_append (test : PaneSnapshot → Bool) (snapshots : List PaneSnapshot)
    (snapshot : PaneSnapshot) : latest test (snapshots ++ [snapshot])
      = if test snapshot then some snapshot else latest test snapshots := by
  rw [latest, List.reverse_append, List.reverse_singleton, List.singleton_append, List.find?_cons]
  cases test snapshot <;> rfl

/-- A snapshot that passes the test makes some snapshot the last one. -/
theorem latest_of_mem (test : PaneSnapshot → Bool) {snapshots : List PaneSnapshot}
    {snapshot : PaneSnapshot} (hmem : snapshot ∈ snapshots) (htest : test snapshot = true) :
    ∃ last, latest test snapshots = some last := by
  refine Option.isSome_iff_exists.mp (List.find?_isSome.mpr ?_)
  exact ⟨snapshot, List.mem_reverse.mpr hmem, htest⟩

/-- The snapshot is one of the window. -/
def ofWindow (windowId : Bytes) (snapshot : PaneSnapshot) : Bool := snapshot.windowId == windowId

/-- The snapshot is one of the pane in the window. -/
def ofPane (windowId paneId : Bytes) (snapshot : PaneSnapshot) : Bool :=
  snapshot.windowId == windowId && snapshot.paneId == paneId

/-- Windows and panes show the last of the snapshots that names them. -/
structure Titled (d : Document) (s : Nat) (served : List PaneSnapshot) : Prop where
  window : ∀ {windowId w n} {last : PaneSnapshot}, latest (ofWindow windowId) served = some last →
    (outline d).Child s w → HasWindow (outline d) windowId w → d.lookup w = some n →
    n.title = windowTitle last
  pane : ∀ {windowId paneId w x n} {last : PaneSnapshot},
    latest (ofPane windowId paneId) served = some last → (outline d).Child s w →
    HasWindow (outline d) windowId w → (outline d).Child w x → HasPane (outline d) paneId x →
    d.lookup x = some n → n.title = paneTitle last ∧ n.source = paneSource last

theorem titled_nil (d : Document) (s : Nat) : Titled d s [] where
  window h := by cases h
  pane h := by cases h

/-- A turn writes what its own snapshot shows, and nothing else. -/
theorem Titled.turn {s w x : Nat} {snapshots served : List PaneSnapshot} {snapshot : PaneSnapshot}
    {d d₁ d' : Document} (h : Titled d s served) (hv : Valid d)
    (hsingle : Single (outline d') s snapshots) (hmem : snapshot ∈ snapshots)
    (ht : Turn s snapshot d d₁ d' w x) : Titled d' s (served ++ [snapshot]) where
  window {windowId q n' last} hlast hq hw hn' := by
    rw [latest_append] at hlast
    by_cases hsame : ofWindow windowId snapshot = true
    · -- The window of this snapshot: there is one only, and the turn wrote its title.
      rw [if_pos hsame] at hlast
      cases hlast
      have hid : snapshot.windowId = windowId := beq_iff_eq.mp hsame
      subst hid
      have heq := hsingle.window snapshot hmem q w hq hw ht.window_there.1 ht.window_there.2
      subst heq
      exact ht.window_title hn'
    · rw [if_neg hsame] at hlast
      have hqw : q ≠ w := by
        rintro rfl
        exact hsame (beq_iff_eq.mpr (ht.window_there.2.unique hw))
      obtain ⟨n, hn, htitle, -, hentry⟩ := ht.old hqw (window_ne_pane hw ht.pane_there.2) hn'
      rw [htitle]
      unfold HasWindow Outline.Has at hw
      unfold Outline.Child at hq
      rw [hentry] at hq hw
      exact h.window hlast hq hw hn
  pane {windowId paneId q y n' last} hlast hq hw hy hp hn' := by
    rw [latest_append] at hlast
    by_cases hsame : ofPane windowId paneId snapshot = true
    · -- The pane of this snapshot.
      rw [if_pos hsame] at hlast
      cases hlast
      obtain ⟨hwid, hpid⟩ := Bool.and_eq_true_iff.mp hsame
      have hid : snapshot.windowId = windowId := beq_iff_eq.mp hwid
      have hpane : snapshot.paneId = paneId := beq_iff_eq.mp hpid
      subst hid hpane
      have hqw := hsingle.window snapshot hmem q w hq hw ht.window_there.1 ht.window_there.2
      subst hqw
      have hyx := hsingle.pane snapshot hmem hq hw y x hy hp ht.pane_there.1 ht.pane_there.2
      subst hyx
      exact ht.pane_shown hn'
    · rw [if_neg hsame] at hlast
      have hyx : y ≠ x := by
        rintro rfl
        have hqw := hy.unique ht.pane_there.1
        subst hqw
        refine hsame (Bool.and_eq_true_iff.mpr ⟨beq_iff_eq.mpr ?_, beq_iff_eq.mpr ?_⟩)
        · exact ht.window_there.2.unique hw
        · exact ht.pane_there.2.unique hp
      obtain ⟨n, hn, htitle, hsource, hentry⟩ :=
        ht.old (window_ne_pane ht.window_there.2 hp).symm hyx hn'
      unfold HasPane Outline.Has at hp
      unfold Outline.Child at hy
      rw [hentry] at hy hp
      -- The window of an old pane is old.
      obtain ⟨hq', hw'⟩ := ht.parent_old hv hy hq hw
      rw [htitle, hsource]
      exact h.pane hlast hq' hw' hy hp hn

/-! ## The first loop -/

/-- What the loop has done from `d₁` on when it has served some of the snapshots. -/
structure Served (d₁ d : Document) (s : Nat) (snapshots served : List PaneSnapshot) : Prop where
  valid : Valid d
  grown : (outline d₁).Extends (outline d)
  single : Single (outline d) s snapshots
  titled : Titled d s served
  session : ∀ n, d₁.lookup s = some n → ∃ n', d.lookup s = some n' ∧ n'.title = n.title
  outside : ∀ y, ¬ (outline d).Under s y → d.lookup y = d₁.lookup y
  next : d.nextNodeId ≤ d₁.nextNodeId + 2 * served.length

theorem served_nil {d : Document} {s : Nat} {snapshots : List PaneSnapshot} (hv : Valid d)
    (hsingle : Single (outline d) s snapshots) : Served d d s snapshots [] where
  valid := hv
  grown _ _ h := h
  single := hsingle
  titled := titled_nil d s
  session n hn := ⟨n, hn, rfl⟩
  outside _ _ := rfl
  next := Nat.le_refl _

/-- Nothing changes away from the window and the pane, but for the list of the session. -/
theorem Turn.outside {s w x : Nat} {snapshot : PaneSnapshot} {d d₁ d' : Document}
    (ht : Turn s snapshot d d₁ d' w x) {y : Nat} (hy : ¬ (outline d').Under s y) :
    d'.lookup y = d.lookup y := by
  have hs : y ≠ s := fun h => hy (h ▸ Outline.under_self _ _)
  have hw : y ≠ w := fun h => hy (h ▸ ht.window_there.1.under)
  have hx : y ≠ x := fun h => hy (h ▸ ht.window_there.1.under.child ht.pane_there.1)
  rcases ht.pane.others y hx with hpane | ⟨rfl, -⟩
  · rcases ht.window.others y hw with hwindow | ⟨rfl, -⟩
    · rw [hpane, hwindow]
    · exact absurd rfl hs
  · exact absurd rfl hw

theorem Served.turn {s w x : Nat} {snapshots served : List PaneSnapshot} {snapshot : PaneSnapshot}
    {d₀ d d₁ d' : Document} (h : Served d₀ d s snapshots served) (hmem : snapshot ∈ snapshots)
    (ht : Turn s snapshot d d₁ d' w x) : Served d₀ d' s snapshots (served ++ [snapshot]) where
  valid := ht.valid
  grown _ _ hy := ht.grows (h.grown hy)
  single := h.single.turn h.valid ht
  titled := h.titled.turn h.valid (h.single.turn h.valid ht) hmem ht
  session n hn := by
    obtain ⟨n₁, hn₁, htitle⟩ := h.session n hn
    obtain ⟨e, he⟩ : ∃ e, outline d' s = some e := ⟨_, ht.grows (outline_of_lookup hn₁)⟩
    obtain ⟨n', hn', -⟩ := outline_eq_some.mp he
    obtain ⟨m, hm, htitle', -⟩ := ht.old ht.lt.1.ne (ht.lt.1.trans ht.lt.2).ne hn'
    rw [hn₁] at hm
    cases hm
    exact ⟨n', hn', htitle'.trans htitle⟩
  outside y hy := by
    rw [ht.outside hy]
    exact h.outside y fun hunder => hy (ht.grows.under_mono hunder)
  next := by
    have hwindow := ht.window.next
    have hpane := ht.pane.next
    have hnext := h.next
    rw [List.length_append, List.length_singleton]
    omega

/-- The loop serves every snapshot, unless the ids run out. -/
theorem ensureLoop_cases {s : Nat} {snapshots : List PaneSnapshot} {d₀ : Document}
    (hs : ∃ n, d₀.lookup s = some n) (rest : List PaneSnapshot)
    (hrest : ∀ snapshot ∈ rest, snapshot ∈ snapshots) {served : List PaneSnapshot} {d : Document}
    (h : Served d₀ d s snapshots served) (desired : List Bytes) :
    (∃ ids d', rest.foldlM (ensureTurn s) desired d = (.ok ids, d') ∧
      Served d₀ d' s snapshots (served ++ rest)) ∨
    Exhausted (2 * rest.length) d (rest.foldlM (ensureTurn s) desired d) := by
  induction rest generalizing served d desired with
  | nil => exact .inl ⟨desired, d, rfl, by rwa [List.append_nil]⟩
  | cons snapshot rest ih =>
      have hmem := hrest snapshot (List.mem_cons_self ..)
      obtain ⟨n, hn⟩ := hs
      obtain ⟨n₁, hn₁, -⟩ := h.session n hn
      rw [List.foldlM_cons, Action.bind_apply, List.length_cons]
      rcases ensureTurn_cases h.valid ⟨n₁, hn₁⟩ (h.single.window snapshot hmem) desired with
        ⟨ids, d₁, d', w, x, hrun, ht⟩ | ⟨-, hexhausted⟩
      · rw [hrun, Action.next_ok]
        have hnext : d'.nextNodeId ≤ d.nextNodeId + 2 := by
          have hwindow := ht.window.next
          have hpane := ht.pane.next
          omega
        rcases ih (fun y hy => hrest y (List.mem_cons_of_mem _ hy)) (h.turn hmem ht) ids with
          ⟨ids', d'', hrun', h'⟩ | hexhausted
        · rw [List.append_assoc, List.singleton_append] at h'
          exact .inl ⟨ids', d'', hrun', h'⟩
        · have hlater := hexhausted.later hnext
          exact .inr ⟨by have := hlater.1; omega, hlater.2⟩
      · have hnext := hexhausted.next fun ids => rest.foldlM (ensureTurn s) ids
        exact .inr ⟨by have := hnext.1; omega, hnext.2⟩

end Muxly.Daemon
