/-
# Muxly.Daemon.Passes -- the two loops of a reconciliation pass, on outlines

`Projected` says that the tree of a session shows a list of pane snapshots and nothing else. The
first loop of `reconcileSessionSnapshots` only adds: `Widened` says what is there after it. The
second loop takes away what is `Stale`, with all that lies below it.
-/
import Muxly.Daemon.Outline

namespace Muxly.Daemon

open Muxly.Control Muxly.Core Muxly.Tree Document

/-! ## What the tree of a session should show -/

variable (O : Outline Projects) (s : Nat) (snapshots : List PaneSnapshot)

/-- A window node of a window. -/
def HasWindow (windowId : Bytes) (x : Nat) : Prop := O.Has (·.window = some windowId) x

/-- A tty leaf of a pane. -/
def HasPane (paneId : Bytes) (x : Nat) : Prop := O.Has (·.pane = some paneId) x

/-- The tree below `s` shows exactly the windows and the panes of the snapshots. -/
structure Projected : Prop where
  window : ∀ snapshot ∈ snapshots, ∃! x, O.Under s x ∧ HasWindow O snapshot.windowId x
  onlyWindows : ∀ {windowId x}, O.Under s x → HasWindow O windowId x →
    windowId ∈ snapshots.map (·.windowId)
  pane : ∀ snapshot ∈ snapshots, ∃! x, O.Under s x ∧ HasPane O snapshot.paneId x
  placed : ∀ snapshot ∈ snapshots, ∀ {x}, O.Under s x → HasPane O snapshot.paneId x →
    ∃ q, O.Child q x ∧ HasWindow O snapshot.windowId q
  onlyPanes : ∀ {paneId x}, O.Under s x → HasPane O paneId x →
    paneId ∈ snapshots.map (·.paneId)

/-! ## The condition on the earlier projection -/

/-- A window of the session that no snapshot names, or a pane below a window that one names and
that no snapshot names itself: what a pass removes. -/
def Stale (c : Nat) : Prop :=
  (∃ windowId, O.Child s c ∧ HasWindow O windowId c ∧
    windowId ∉ snapshots.map (·.windowId)) ∨
  ∃ q windowId paneId, O.Child s q ∧ HasWindow O windowId q ∧
    windowId ∈ snapshots.map (·.windowId) ∧ O.Child q c ∧ HasPane O paneId c ∧
    paneId ∉ snapshots.map (·.paneId)

/-- A node of the session's tree that does not go with something stale. -/
structure Stays (x : Nat) : Prop where
  under : O.Under s x
  fresh : ∀ c, Stale O s snapshots c → ¬ O.Under c x

/-- Every window and every pane that stays is where a snapshot has it, once. -/
structure InPlace : Prop where
  window : ∀ {windowId x}, Stays O s snapshots x → HasWindow O windowId x →
    O.Child s x ∧ windowId ∈ snapshots.map (·.windowId) ∧
      ∀ y, Stays O s snapshots y → HasWindow O windowId y → y = x
  pane : ∀ {paneId x}, Stays O s snapshots x → HasPane O paneId x →
    (∃ snapshot ∈ snapshots, snapshot.paneId = paneId ∧
      ∃ q, O.Child q x ∧ HasWindow O snapshot.windowId q) ∧
      ∀ y, Stays O s snapshots y → HasPane O paneId y → y = x

variable {O s snapshots}

theorem HasWindow.unique {v w : Bytes} {x : Nat} (hv : HasWindow O v x) (hw : HasWindow O w x) :
    v = w := by
  obtain ⟨e, he, hev⟩ := hv
  obtain ⟨f, hf, hfw⟩ := hw
  rw [he] at hf
  cases hf
  rw [hev] at hfw
  exact Option.some.inj hfw

theorem HasPane.unique {p q : Bytes} {x : Nat} (hp : HasPane O p x) (hq : HasPane O q x) :
    p = q := by
  obtain ⟨e, he, hep⟩ := hp
  obtain ⟨f, hf, hfq⟩ := hq
  rw [he] at hf
  cases hf
  rw [hep] at hfq
  exact Option.some.inj hfq

section Staying

variable (hO : O.WellFormed)
include hO

omit hO in
/-- What is stale lies below the session. -/
theorem Stale.under {c : Nat} (hc : Stale O s snapshots c) : O.Under s c := by
  rcases hc with ⟨w, hchild, -⟩ | ⟨q, w, p, hq, -, -, hchild, -⟩
  · exact hchild.under
  · exact hq.under.child hchild

/-- What is stale lies strictly below the session. -/
theorem Stale.lt {c : Nat} (hc : Stale O s snapshots c) : s < c := by
  rcases hc with ⟨w, hchild, -⟩ | ⟨q, w, p, hq, -, -, hchild, -⟩
  · exact hO.above hchild
  · exact (hO.above hq).trans (hO.above hchild)

theorem Stale.not_under_session {c : Nat} (hc : Stale O s snapshots c) : ¬ O.Under c s :=
  fun h => absurd (hO.le h) (hc.lt hO).not_ge

/-- A window of the session that a snapshot names stays. -/
theorem stays_window {q : Nat} {windowId : Bytes} (hq : O.Child s q)
    (hw : HasWindow O windowId q) (hmem : windowId ∈ snapshots.map (·.windowId)) :
    Stays O s snapshots q where
  under := hq.under
  fresh := by
    intro c hc hcq
    by_cases heq : q = c
    · subst heq
      rcases hc with ⟨v, -, hv, hnot⟩ | ⟨r, v, p, hr, -, -, hrq, -⟩
      · exact hnot (hv.unique hw ▸ hmem)
      · have hrs := hrq.unique hq
        subst hrs
        exact absurd (hO.above hr) (lt_irrefl _)
    · exact hc.not_under_session hO (hcq.parent heq hq)

/-- A pane below it that a snapshot names stays. -/
theorem stays_pane {q x : Nat} {windowId paneId : Bytes} (hq : O.Child s q)
    (hw : HasWindow O windowId q) (hmem : windowId ∈ snapshots.map (·.windowId))
    (hx : O.Child q x) (hp : HasPane O paneId x) (hpmem : paneId ∈ snapshots.map (·.paneId)) :
    Stays O s snapshots x where
  under := hq.under.child hx
  fresh := by
    intro c hc hcx
    by_cases heq : x = c
    · subst heq
      rcases hc with ⟨v, hs, -⟩ | ⟨r, v, p, -, -, -, -, hpane, hnot⟩
      · have hsq := hs.unique hx
        subst hsq
        exact absurd (hO.above hq) (lt_irrefl _)
      · exact hnot (hpane.unique hp ▸ hpmem)
    · exact (stays_window hO hq hw hmem).fresh c hc (hcx.parent heq hx)

end Staying

/-! ## What the first loop leaves -/

variable (O s snapshots) in
/-- A window node that the loop added: the only one of its window below the session. -/
structure NewWindow (y : Nat) (e : Entry Projects) : Prop where
  parent : e.parent = some s
  pane : e.label.pane = none
  window : ∃ snapshot ∈ snapshots, e.label.window = some snapshot.windowId ∧
    ∀ z, O.Child s z → HasWindow O snapshot.windowId z → z = y

variable (O s snapshots) in
/-- A pane that the loop added: the only one with its id below its window. -/
structure NewPane (y : Nat) (e : Entry Projects) : Prop where
  window : e.label.window = none
  pane : ∃ snapshot ∈ snapshots, e.label.pane = some snapshot.paneId ∧
    ∃ q, e.parent = some q ∧ O.Child s q ∧ HasWindow O snapshot.windowId q ∧
      ∀ z, O.Child q z → HasPane O snapshot.paneId z → z = y

/-- The outline while the loop runs: what was there is there, what is new is a window or a pane of
a snapshot, and every snapshot that was served has its window and its pane. -/
structure Widened (O₁ O : Outline Projects) (s : Nat) (snapshots served : List PaneSnapshot) :
    Prop where
  extend : O₁.Extends O
  wellFormed : O.WellFormed
  new : ∀ {y e}, O y = some e → O₁ y = none → NewWindow O s snapshots y e ∨ NewPane O s snapshots y e
  served : ∀ snapshot ∈ served, ∃ q x, O.Child s q ∧ HasWindow O snapshot.windowId q ∧
    O.Child q x ∧ HasPane O snapshot.paneId x

theorem Widened.start {O₁ : Outline Projects} (h : O₁.WellFormed) (s : Nat)
    (snapshots : List PaneSnapshot) : Widened O₁ O₁ s snapshots [] where
  extend _ _ hy := hy
  wellFormed := h
  new hy hnone := by
    rw [hnone] at hy
    cases hy
  served _ h := by cases h

/-- A new node stays new when the outline grows by a step that would have found it. -/
theorem NewWindow.step {O O' : Outline Projects} {p x y : Nat} {hit : Projects → Prop}
    {label : Projects} {e : Entry Projects} (h : NewWindow O s snapshots y e)
    (hy : O y = some e) (hstep : O.Ensured p hit label x O')
    (hsame : ∀ {w}, label.window = some w → e.label.window = some w → hit e.label) :
    NewWindow O' s snapshots y e := by
  obtain ⟨snapshot, hmem, hwindow, honly⟩ := h.window
  refine ⟨h.parent, h.pane, snapshot, hmem, hwindow, ?_⟩
  apply hstep.only ⟨e, hy, h.parent⟩ honly
  intro hlabel _
  exact ⟨e, hy, hsame hlabel hwindow⟩

theorem NewPane.step {O O' : Outline Projects} {p x y : Nat} {hit : Projects → Prop}
    {label : Projects} {e : Entry Projects} (h : NewPane O s snapshots y e)
    (hy : O y = some e) (hstep : O.Ensured p hit label x O')
    (hsame : ∀ {i}, label.pane = some i → e.label.pane = some i → hit e.label) :
    NewPane O' s snapshots y e := by
  obtain ⟨snapshot, hmem, hpane, q, hparent, hq, hw, honly⟩ := h.pane
  refine ⟨h.window, snapshot, hmem, hpane, q, hparent, hstep.grows.child hq, hstep.grows.has hw, ?_⟩
  apply hstep.only ⟨e, hy, hparent⟩ honly
  intro hlabel _
  exact ⟨e, hy, hsame hlabel hpane⟩

/-- `ensureWindowNode` in the loop. -/
theorem Widened.window {O₁ O O' : Outline Projects} {served : List PaneSnapshot}
    (h : Widened O₁ O s snapshots served) {snapshot : PaneSnapshot} (hmem : snapshot ∈ snapshots)
    {label : Projects} (hlabel : label.window = some snapshot.windowId) (hpane : label.pane = none)
    {q : Nat} (hstep : O.Ensured s (·.window = some snapshot.windowId) label q O') :
    Widened O₁ O' s snapshots served ∧ O'.Child s q ∧ HasWindow O' snapshot.windowId q := by
  refine ⟨⟨fun _ _ hy => hstep.grows (h.extend hy), hstep.wellFormed h.wellFormed, ?_, ?_⟩,
    hstep.there hlabel⟩
  · intro y e hy hnone
    rcases hstep.entry hy with hold | ⟨rfl, rfl, -⟩
    · rcases h.new hold hnone with hnew | hnew
      · refine .inl (hnew.step hold hstep fun hw hew => ?_)
        rw [hlabel] at hw
        rw [hew, ← hw]
      · refine .inr (hnew.step hold hstep fun hp _ => ?_)
        rw [hpane] at hp
        cases hp
    · cases hq : O y with
      | none => exact .inl ⟨rfl, hpane, snapshot, hmem, hlabel, fun z => hstep.only_added hq⟩
      | some f =>
          rcases hstep with ⟨_, _⟩ | ⟨_, hfresh, _⟩
          · rcases h.new hy hnone with hnew | hnew
            · exact .inl hnew
            · exact .inr hnew
          · rw [hq] at hfresh
            cases hfresh
  · intro earlier hearlier
    obtain ⟨r, x, hr, hw, hx, hp⟩ := h.served earlier hearlier
    exact ⟨r, x, hstep.grows.child hr, hstep.grows.has hw, hstep.grows.child hx,
      hstep.grows.has hp⟩

/-- `ensurePaneNode` in the loop. -/
theorem Widened.pane {O₁ O O' : Outline Projects} {served : List PaneSnapshot}
    (h : Widened O₁ O s snapshots served) {snapshot : PaneSnapshot} (hmem : snapshot ∈ snapshots)
    {q x : Nat} (hq : O.Child s q) (hw : HasWindow O snapshot.windowId q)
    (hstep : O.Ensured q (·.pane = some snapshot.paneId) (paneProjection snapshot.paneId) x O') :
    Widened O₁ O' s snapshots (served ++ [snapshot]) := by
  refine ⟨fun _ _ hy => hstep.grows (h.extend hy), hstep.wellFormed h.wellFormed, ?_, ?_⟩
  · intro y e hy hnone
    rcases hstep.entry hy with hold | ⟨rfl, rfl, -⟩
    · rcases h.new hold hnone with hnew | hnew
      · exact .inl (hnew.step hold hstep fun hwindow _ => by cases hwindow)
      · refine .inr (hnew.step hold hstep fun hp hep => ?_)
        rw [hep, ← hp]
        rfl
    · cases hx : O y with
      | none =>
          refine .inr ⟨rfl, snapshot, hmem, rfl, q, rfl, hstep.grows.child hq, hstep.grows.has hw, ?_⟩
          exact fun z => hstep.only_added hx
      | some f =>
          rcases hstep with ⟨_, _⟩ | ⟨_, hfresh, _⟩
          · exact h.new hy hnone
          · rw [hx] at hfresh
            cases hfresh
  · intro earlier hearlier
    rcases List.mem_append.mp hearlier with hearlier | hlast
    · obtain ⟨r, z, hr, hrw, hz, hp⟩ := h.served earlier hearlier
      exact ⟨r, z, hstep.grows.child hr, hstep.grows.has hrw, hstep.grows.child hz,
        hstep.grows.has hp⟩
    · rw [List.mem_singleton.mp hlast]
      obtain ⟨hx, hp⟩ := hstep.there rfl
      exact ⟨q, x, hstep.grows.child hq, hstep.grows.has hw, hx, hp⟩

/-- One turn of the first loop of the pass. -/
def ensureTurn (sessionNodeId : Nat) (desired : List Bytes) (snapshot : PaneSnapshot) :
    DocM (List Bytes) := do
  let windowNodeId ← ensureWindowNode sessionNodeId snapshot
  let _ ← ensurePaneNode windowNodeId snapshot
  return if snapshot.windowId ∈ desired then desired else desired ++ [snapshot.windowId]

/-- The first loop of the pass serves every snapshot. -/
theorem ensure_loop {O₁ : Outline Projects} (rest : List PaneSnapshot)
    (hrest : ∀ snapshot ∈ rest, snapshot ∈ snapshots) {served : List PaneSnapshot}
    {desired ids : List Bytes} {d d' : Document} (hv : Valid d)
    (hd : Widened O₁ (outline d) s snapshots served)
    (h : rest.foldlM (ensureTurn s) desired d = (.ok ids, d')) :
    Valid d' ∧ Widened O₁ (outline d') s snapshots (served ++ rest) ∧
      ∀ windowId, windowId ∈ ids ↔ windowId ∈ desired ∨ windowId ∈ rest.map (·.windowId) := by
  induction rest generalizing served desired d with
  | nil =>
      cases h
      exact ⟨hv, by rwa [List.append_nil], fun _ => by simp⟩
  | cons snapshot rest ih =>
      have hmem := hrest snapshot (List.mem_cons_self ..)
      rw [List.foldlM_cons, Action.bind_apply, ensureTurn, Action.bind_apply] at h
      rcases hw : ensureWindowNode s snapshot d with ⟨_ | q, d₁⟩
      · rw [hw] at h
        cases h
      · obtain ⟨hv₁, hstep₁⟩ := ensureSubdocument_outline hv hw
          (·.window = some snapshot.windowId) fun _ => windowProjectionId_eq_some
        have hlabel : (subdocumentProjection (windowBackendPrefix ++ snapshot.windowId)).window
            = some snapshot.windowId := by
          show backendSuffix (some (windowBackendPrefix ++ _)) windowBackendPrefix = _
          exact backendSuffix_eq_some.mpr rfl
        obtain ⟨hgrown₁, hq, hqw⟩ := hd.window hmem hlabel rfl hstep₁
        rw [hw, Action.next_ok, Action.bind_apply] at h
        rcases hp : ensurePaneNode q snapshot d₁ with ⟨_ | x, d₂⟩
        · rw [hp] at h
          cases h
        · obtain ⟨hv₂, hstep₂⟩ := ensurePaneNode_outline hv₁ hp
          rw [hp] at h
          obtain ⟨hv', hgrown', hids⟩ := ih (fun y hy => hrest y (List.mem_cons_of_mem _ hy)) hv₂
            (hgrown₁.pane hmem hq hqw hstep₂) h
          refine ⟨hv', ?_, fun windowId => ?_⟩
          · rwa [List.append_assoc, List.singleton_append] at hgrown'
          · rw [hids, List.map_cons, List.mem_cons]
            split
            · constructor
              · rintro (hmem | hmem)
                · exact .inl hmem
                · exact .inr (.inr hmem)
              · rintro (hmem | rfl | hmem)
                · exact .inl hmem
                · exact .inl ‹_›
                · exact .inr hmem
            · simp [or_assoc]

/-! ## What the second loop takes away -/

/-- A loop over the children of a node takes a closed set away for each of them. -/
theorem forM_children_drops {f : Nat → DocM Unit} {R : Nat → Set Nat}
    (hR : ∀ x, O.Closed (R x)) (hbelow : ∀ {x y}, y ∈ R x → O.Under x y)
    {S : Set Nat} {d d' : Document} (hS : O.Closed S) (hv : Valid d) (hd : outline d = O.drop S)
    {w : Nat} {n : Node} (hw : d.lookup w = some n)
    (hf : ∀ x, O.Child w x → x ≠ 1 → ∀ {S d d'}, O.Closed S → Valid d → outline d = O.drop S →
      f x d = (.ok (), d') → Valid d' ∧ outline d' = O.drop (S ∪ R x))
    (h : n.children.forM f d = (.ok (), d')) :
    Valid d' ∧ outline d' = O.drop (S ∪ {y | ∃ x, O.Child w x ∧ y ∈ R x}) := by
  have hmem : ∀ {x}, x ∈ n.children ↔ x ∉ S ∧ O.Child w x := by
    intro x
    rw [mem_children_iff hv hw, hd, Outline.child_drop]
  obtain ⟨hv', hd'⟩ := forM_drops hR n.children
    (fun x hx => hf x (hmem.mp hx).2 (child_ne_root hv.shape hw hx)) hS hv hd h
  refine ⟨hv', hd'.trans ?_⟩
  -- A child that went before takes nothing more with it.
  congr 1
  ext y
  constructor
  · rintro (hy | ⟨x, hx, hy⟩)
    · exact .inl hy
    · exact .inr ⟨x, (hmem.mp hx).2, hy⟩
  · rintro (hy | ⟨x, hx, hy⟩)
    · exact .inl hy
    · by_cases hxS : x ∈ S
      · exact .inl (hS.under hxS (hbelow hy))
      · exact .inr ⟨x, hmem.mpr ⟨hxS, hx⟩, hy⟩

variable (O snapshots) in
/-- What `pruneMissingPanes` takes away for one child of a window. -/
def prunedPane (c : Nat) : Set Nat :=
  {y | (∃ paneId, HasPane O paneId c ∧ paneId ∉ snapshots.map (·.paneId)) ∧ O.Under c y}

theorem closed_prunedPane (c : Nat) : O.Closed (prunedPane O snapshots c) :=
  fun hc hy => ⟨hy.1, hy.2.child hc⟩

/-- Nothing changes where there is nothing to take away. -/
theorem outline_unchanged {S T : Set Nat} {d : Document} (hd : outline d = O.drop S) (hT : T ⊆ S) :
    outline d = O.drop (S ∪ T) := by rw [hd, Set.union_eq_self_of_subset_right hT]

theorem any_paneId_iff {paneId : Bytes} :
    (snapshots.any (·.paneId == paneId)) = true ↔ paneId ∈ snapshots.map (·.paneId) := by
  simp

theorem any_hasPane {c : Nat} {d : Document} {S : Set Nat} (hd : outline d = O.drop S) {m : Node}
    (hm : d.lookup c = some m) {paneId : Bytes} :
    HasPane O paneId c ↔ m.kind = .ttyLeaf ∧ ttyPaneId m.source = some paneId := by
  have hent : O.drop S c = some (outlineEntry m) := by rw [← hd]; exact outline_of_lookup hm
  obtain ⟨-, hc⟩ := Outline.drop_eq_some.mp hent
  rw [← projectedPane_eq_some]
  constructor
  · rintro ⟨e, he, hp⟩
    rw [hc] at he
    cases he
    exact hp
  · exact fun hp => ⟨_, hc, hp⟩

theorem any_hasWindow {c : Nat} {d : Document} {S : Set Nat} (hd : outline d = O.drop S) {m : Node}
    (hm : d.lookup c = some m) {windowId : Bytes} :
    HasWindow O windowId c ↔ windowProjectionId m = some windowId := by
  have hent : O.drop S c = some (outlineEntry m) := by rw [← hd]; exact outline_of_lookup hm
  obtain ⟨-, hc⟩ := Outline.drop_eq_some.mp hent
  constructor
  · rintro ⟨e, he, hp⟩
    rw [hc] at he
    cases he
    exact hp
  · exact fun hp => ⟨_, hc, hp⟩

/-- A node that is not in the document any more is in the set that was taken away. -/
theorem mem_of_missing {c : Nat} {d : Document} {S : Set Nat} (hd : outline d = O.drop S)
    (hc : d.lookup c = none) {e : Entry Projects} (he : O c = some e) : c ∈ S := by
  by_contra hS
  have hnone := outline_eq_none.mpr hc
  rw [hd, Outline.drop_of_notMem hS, he] at hnone
  cases hnone

/-- One turn of `pruneMissingPanes`. -/
def prunePane (snapshots : List PaneSnapshot) (childId : Nat) : DocM Unit := do
  match ← Action.view fun d => d.findNode childId with
  | none => return ()
  | some child =>
    if child.kind = .ttyLeaf then
      match ttyPaneId child.source with
      | none => return ()
      | some paneId =>
        if snapshots.any (·.paneId == paneId) then return () else removeSubtreeNodes childId
    else return ()

/-- One turn of the second loop of the pass. -/
def pruneTurn (desiredWindowIds : List Bytes) (snapshots : List PaneSnapshot)
    (windowNodeId : Nat) : DocM Unit := do
  match ← Action.view fun d => d.findNode windowNodeId with
  | none => return ()
  | some windowNode =>
    match windowProjectionId windowNode with
    | none => return ()
    | some windowId =>
      if windowId ∈ desiredWindowIds then pruneMissingPanes windowNodeId snapshots
      else removeSubtreeNodes windowNodeId

theorem prunePane_outline {c : Nat} (hc1 : c ≠ 1) {e : Entry Projects} (he : O c = some e)
    {S : Set Nat} {d d' : Document} (hS : O.Closed S) (hv : Valid d) (hd : outline d = O.drop S)
    (hrun : prunePane snapshots c d = (.ok (), d')) :
    Valid d' ∧ outline d' = O.drop (S ∪ prunedPane O snapshots c) := by
  have hc0 : c ≠ 0 := by
    rintro rfl
    cases hrun
  rw [prunePane, Action.bind_apply, Action.view_apply, findNode_of_ne_zero hc0,
    Action.next_ok] at hrun
  cases hm : d.lookup c with
  | none =>
      rw [hm] at hrun
      cases hrun
      have hcS := mem_of_missing hd hm he
      exact ⟨hv, outline_unchanged hd fun y hy => hS.under hcS hy.2⟩
  | some m =>
      simp only [hm] at hrun
      by_cases hkind : m.kind = .ttyLeaf
      · rw [if_pos hkind] at hrun
        cases hpane : ttyPaneId m.source with
        | none =>
            rw [hpane] at hrun
            cases hrun
            refine ⟨hv, outline_unchanged hd fun y hy => ?_⟩
            obtain ⟨⟨paneId, hp, -⟩, -⟩ := hy
            obtain ⟨-, hid⟩ := (any_hasPane hd hm).mp hp
            rw [hpane] at hid
            cases hid
        | some paneId =>
            have hhas := (any_hasPane hd hm).mpr ⟨hkind, hpane⟩
            simp only [hpane] at hrun
            by_cases hany : (snapshots.any (·.paneId == paneId)) = true
            · rw [if_pos hany] at hrun
              cases hrun
              refine ⟨hv, outline_unchanged hd fun y hy => ?_⟩
              obtain ⟨⟨paneId', hp, hnot⟩, -⟩ := hy
              exact absurd (hp.unique hhas ▸ any_paneId_iff.mp hany) hnot
            · rw [if_neg hany] at hrun
              obtain ⟨hv', hd'⟩ := removeSubtreeNodes_outline hc1 hS hv hd hrun
              refine ⟨hv', hd'.trans ?_⟩
              congr 2
              ext y
              exact ⟨fun hy => ⟨⟨paneId, hhas, fun hmem => hany (any_paneId_iff.mpr hmem)⟩, hy⟩,
                fun hy => hy.2⟩
      · rw [if_neg hkind] at hrun
        cases hrun
        refine ⟨hv, outline_unchanged hd fun y hy => ?_⟩
        obtain ⟨⟨paneId, hp, -⟩, -⟩ := hy
        exact absurd ((any_hasPane hd hm).mp hp).1 hkind

/-- `pruneMissingPanes` takes the panes that no snapshot names away. -/
theorem pruneMissingPanes_outline {S : Set Nat} {d d' : Document} (hS : O.Closed S) (hv : Valid d)
    (hd : outline d = O.drop S) {w : Nat} (h : pruneMissingPanes w snapshots d = (.ok (), d')) :
    Valid d' ∧
      outline d' = O.drop (S ∪ {y | ∃ c, O.Child w c ∧ y ∈ prunedPane O snapshots c}) := by
  rw [pruneMissingPanes, Action.bind_apply, Action.view_apply] at h
  cases hw : d.lookup w with
  | none =>
      rw [nodeOr_of_missing hw] at h
      cases h
  | some n =>
      rw [nodeOr_of_lookup hw, Action.next_ok] at h
      refine forM_children_drops closed_prunedPane (fun hy => hy.2) hS hv hd hw ?_ h
      rintro c ⟨e, he, -⟩ hc1 S d d' hS hv hd hrun
      exact prunePane_outline hc1 he hS hv hd hrun

variable (O snapshots) in
/-- What the second loop takes away for one child of the session. -/
def prunedWindow (x : Nat) : Set Nat :=
  {y | (∃ windowId, HasWindow O windowId x ∧ windowId ∉ snapshots.map (·.windowId) ∧
      O.Under x y) ∨
    ∃ windowId, HasWindow O windowId x ∧ windowId ∈ snapshots.map (·.windowId) ∧
      ∃ c, O.Child x c ∧ y ∈ prunedPane O snapshots c}

theorem closed_prunedWindow (x : Nat) : O.Closed (prunedWindow O snapshots x) := by
  rintro p c hc (⟨w, hw, hnot, hy⟩ | ⟨w, hw, hmem, z, hz, hy⟩)
  · exact .inl ⟨w, hw, hnot, hy.child hc⟩
  · exact .inr ⟨w, hw, hmem, z, hz, closed_prunedPane z hc hy⟩

theorem prunedWindow_below {x y : Nat} (hy : y ∈ prunedWindow O snapshots x) : O.Under x y := by
  rcases hy with ⟨-, -, -, hy⟩ | ⟨-, -, -, c, hc, hy⟩
  · exact hy
  · exact hc.under.trans hy.2

/-- All windows together: what lies below something stale. -/
theorem prunedWindows_eq :
    {y | ∃ x, O.Child s x ∧ y ∈ prunedWindow O snapshots x}
      = {y | ∃ c, Stale O s snapshots c ∧ O.Under c y} := by
  ext y
  constructor
  · rintro ⟨x, hx, ⟨w, hw, hnot, hy⟩ | ⟨w, hw, hmem, c, hc, ⟨p, hp, hpnot⟩, hy⟩⟩
    · exact ⟨x, .inl ⟨w, hx, hw, hnot⟩, hy⟩
    · exact ⟨c, .inr ⟨x, w, p, hx, hw, hmem, hc, hp, hpnot⟩, hy⟩
  · rintro ⟨c, ⟨w, hx, hw, hnot⟩ | ⟨x, w, p, hx, hw, hmem, hc, hp, hpnot⟩, hy⟩
    · exact ⟨c, hx, .inl ⟨w, hw, hnot, hy⟩⟩
    · exact ⟨x, hx, .inr ⟨w, hw, hmem, c, hc, ⟨p, hp, hpnot⟩, hy⟩⟩

theorem pruneTurn_outline {ids : List Bytes}
    (hids : ∀ w, w ∈ ids ↔ w ∈ snapshots.map (·.windowId)) {x : Nat} (hx1 : x ≠ 1)
    {e : Entry Projects} (he : O x = some e) {S : Set Nat} {d₁ d₂ : Document} (hS : O.Closed S)
    (hv₁ : Valid d₁) (hd₁ : outline d₁ = O.drop S)
    (hrun : pruneTurn ids snapshots x d₁ = (.ok (), d₂)) :
    Valid d₂ ∧ outline d₂ = O.drop (S ∪ prunedWindow O snapshots x) := by
  have hx0 : x ≠ 0 := by
    rintro rfl
    cases hrun
  rw [pruneTurn, Action.bind_apply, Action.view_apply, findNode_of_ne_zero hx0,
    Action.next_ok] at hrun
  cases hm : d₁.lookup x with
  | none =>
      rw [hm] at hrun
      cases hrun
      have hxS := mem_of_missing hd₁ hm he
      exact ⟨hv₁, outline_unchanged hd₁ fun y hy => hS.under hxS (prunedWindow_below hy)⟩
  | some m =>
      simp only [hm] at hrun
      cases hwindow : windowProjectionId m with
      | none =>
          rw [hwindow] at hrun
          cases hrun
          refine ⟨hv₁, outline_unchanged hd₁ fun y hy => ?_⟩
          rcases hy with ⟨w, hw, -⟩ | ⟨w, hw, -⟩
          · rw [any_hasWindow hd₁ hm, hwindow] at hw
            cases hw
          · rw [any_hasWindow hd₁ hm, hwindow] at hw
            cases hw
      | some windowId =>
          have hhas := (any_hasWindow hd₁ hm).mpr hwindow
          simp only [hwindow] at hrun
          by_cases hmem : windowId ∈ ids
          · have hmem' := (hids windowId).mp hmem
            rw [if_pos hmem] at hrun
            obtain ⟨hv₂, hd₂⟩ := pruneMissingPanes_outline hS hv₁ hd₁ hrun
            refine ⟨hv₂, hd₂.trans ?_⟩
            congr 2
            ext y
            constructor
            · exact fun hy => .inr ⟨windowId, hhas, hmem', hy⟩
            · rintro (⟨w, hw, hnot, -⟩ | ⟨w, -, -, hy⟩)
              · exact absurd (hw.unique hhas ▸ hmem') hnot
              · exact hy
          · have hmem' : windowId ∉ snapshots.map (·.windowId) := fun h => hmem ((hids _).mpr h)
            rw [if_neg hmem] at hrun
            obtain ⟨hv₂, hd₂⟩ := removeSubtreeNodes_outline hx1 hS hv₁ hd₁ hrun
            refine ⟨hv₂, hd₂.trans ?_⟩
            congr 2
            ext y
            constructor
            · exact fun hy => .inl ⟨windowId, hhas, hmem', hy⟩
            · rintro (⟨w, -, -, hy⟩ | ⟨w, hw, hin, -⟩)
              · exact hy
              · exact absurd (hw.unique hhas ▸ hin) hmem'

/-- The second loop of the pass takes what is stale away, with all that lies below it. -/
theorem prune_loop {ids : List Bytes} (hids : ∀ w, w ∈ ids ↔ w ∈ snapshots.map (·.windowId))
    {d d' : Document} (hv : Valid d) {n : Node} (hn : d.lookup s = some n)
    (h : n.children.forM (pruneTurn ids snapshots) d = (.ok (), d')) :
    outline d' = (outline d).drop {y | ∃ c, Stale (outline d) s snapshots c ∧
      (outline d).Under c y} := by
  have hclosed : ∀ x, (outline d).Closed (prunedWindow (outline d) snapshots x) :=
    fun x => closed_prunedWindow x
  obtain ⟨-, hd'⟩ := forM_children_drops hclosed prunedWindow_below (Outline.closed_empty _) hv
    (outline d).drop_empty.symm hn
    (fun x ⟨_, he, _⟩ hx1 _ _ _ hS hv₁ hd₁ hrun => pruneTurn_outline hids hx1 he hS hv₁ hd₁ hrun) h
  rw [hd', Set.empty_union, prunedWindows_eq]

end Muxly.Daemon
