/-
# Muxly.Daemon.Repeat -- a second pass over the same snapshots

The second loop of a pass succeeds on every valid document and only takes nodes away. After a pass
every snapshot has its window and its pane, with the titles and the source that it gives, and
nothing is stale. So when no window and no pane is there twice, a second pass over the same
snapshots finds everything, writes what is there, and takes nothing away.
-/
import Mathlib.Data.List.Find
import Muxly.Daemon.Placing

namespace Muxly.Daemon

open Muxly.Control Muxly.Core Muxly.Tree Document

/-! ## Losing nodes -/

/-- What is left is as it was but for its list of children, and as it was when all of these are
left. -/
def Thinned (d d' : Document) : Prop :=
  ∀ y n', d'.lookup y = some n' → ∃ n, d.lookup y = some n ∧ n' = { n with children := n'.children } ∧
    ((∀ c ∈ n.children, ∃ m, d'.lookup c = some m) → n' = n)

theorem thinned_progress : Action.Progress Thinned where
  refl d y n hn := ⟨n, hn, rfl, fun _ => rfl⟩
  trans {d₁ d₂ d₃} h h' y n₃ hn₃ := by
    obtain ⟨n₂, hn₂, heq₃, hkept₃⟩ := h' y n₃ hn₃
    obtain ⟨n₁, hn₁, heq₂, hkept₂⟩ := h y n₂ hn₂
    refine ⟨n₁, hn₁, ?_, fun hall => ?_⟩
    · rw [heq₃, heq₂]
    · have h₂ : n₂ = n₁ := hkept₂ fun c hc => by
        obtain ⟨m, hm⟩ := hall c hc
        obtain ⟨m₂, hm₂, -⟩ := h' c m hm
        exact ⟨m₂, hm₂⟩
      subst h₂
      exact hkept₃ hall

/-- A leaf goes and only its parent's list changes. -/
theorem removeNode_thinned {x : Nat} (hx : x ≠ 1) : Action.Advances Valid Thinned (Document.removeNode x) := by
  intro d hv
  refine ⟨(removeNode_sound hv hx).1, ?_⟩
  rcases removeNode_cases hv hx with ⟨n, p, hn, hleaf, hp, heq⟩ | ⟨f, heq⟩
  · have hpost : [x].Perm (hv.shape.forest.postorder x) := by
      rw [hv.shape.postorder_leaf hn hleaf]
    obtain ⟨hr, -⟩ := hv.removal hn hp hpost
    rw [heq]
    intro y n' hn'
    have hlook := hr.lookup_pruned ([x].map d.contentLength).sum
    rw [hlook] at hn'
    split at hn'
    · cases hn'
    · obtain ⟨m, hm, rfl⟩ := Option.map_eq_some_iff.mp hn'
      refine ⟨m, hm, ?_, fun hall => ?_⟩
      · split <;> rfl
      · split
        · -- The parent lists the leaf, which is not left.
          rename_i hyp
          subst hyp
          obtain ⟨m', hm', hmem⟩ := hv.linked hn hp
          rw [hm] at hm'
          cases hm'
          obtain ⟨k, hk⟩ := hall x hmem
          rw [hlook, if_pos (List.mem_singleton.mpr rfl)] at hk
          cases hk
        · rfl
  · rw [heq]
    exact thinned_progress.refl d

/-! ## The second loop succeeds -/

/-- A loop whose turns succeed and keep what the rest needs. -/
theorem forM_succeeds {f : Nat → DocM Unit} {I : List Nat → Document → Prop}
    (hstep : ∀ x rest d, I (x :: rest) d → ∃ d', f x d = (.ok (), d') ∧ I rest d') (xs : List Nat)
    {d : Document} (h : I xs d) : ∃ d', xs.forM f d = (.ok (), d') ∧ I [] d' := by
  induction xs generalizing d with
  | nil => exact ⟨d, rfl, h⟩
  | cons x rest ih =>
      obtain ⟨d₁, hrun, h₁⟩ := hstep x rest d h
      obtain ⟨d', hrest, h'⟩ := ih h₁
      refine ⟨d', ?_, h'⟩
      rw [Action.forM_cons_apply, hrun, Action.next_ok, hrest]

/-- Some trees of the outline are gone, but none of the nodes that are left to do. -/
structure Remaining (O : Outline Projects) (rest : List Nat) (d : Document) : Prop where
  valid : Valid d
  nodup : rest.Nodup
  gone : ∃ S, O.Closed S ∧ outline d = O.drop S ∧ ∀ c ∈ rest, c ∉ S

theorem Remaining.live {O : Outline Projects} {rest : List Nat} {d : Document}
    (h : Remaining O rest d) {c : Nat} (hc : c ∈ rest) {e : Entry Projects} (he : O c = some e) :
    ∃ m, d.lookup c = some m := by
  obtain ⟨S, -, hout, hfresh⟩ := h.gone
  obtain ⟨m, hm, -⟩ := outline_eq_some.mp ((congrFun hout c).trans
    ((Outline.drop_of_notMem (hfresh c hc)).trans he))
  exact ⟨m, hm⟩

/-- Removing the tree of one sibling leaves the others. -/
theorem Remaining.step {O : Outline Projects} (hO : O.WellFormed) {p c : Nat} {rest : List Nat}
    (hsiblings : ∀ y ∈ c :: rest, O.Child p y) (hc1 : c ≠ 1) {fuel : Nat} {d d' : Document}
    (h : Remaining O (c :: rest) d) (hrun : removeProjection fuel c d = (.ok (), d')) :
    Remaining O rest d' := by
  obtain ⟨S, hS, hout, hfresh⟩ := h.gone
  obtain ⟨hv', hout'⟩ := removeProjection_outline fuel hc1 hS h.valid hout hrun
  obtain ⟨hnotMem, hnodup⟩ := List.nodup_cons.mp h.nodup
  refine ⟨hv', hnodup, _, hS.union (O.closed_under c), hout', fun y hy => ?_⟩
  have hchild := hsiblings y (List.mem_cons_of_mem _ hy)
  rintro (hyS | hyc)
  · exact hfresh y (List.mem_cons_of_mem _ hy) hyS
  · have hne : y ≠ c := fun heq => hnotMem (heq ▸ hy)
    exact hO.not_under_parent (hsiblings c (List.mem_cons_self ..)) (Outline.Under.parent hyc hne hchild)

/-- A node whose children are gone can be removed. -/
theorem removeNode_emptied {d d₁ : Document} (hv : Valid d) {x : Nat} (hx1 : x ≠ 1) {n : Node}
    (hx : d.lookup x = some n) {fuel : Nat}
    (hrun : n.children.forM (removeProjection fuel) d = (.ok (), d₁)) :
    ∃ d', Document.removeNode x d₁ = (.ok (), d') := by
  have hO := wellFormed_outline hv
  obtain ⟨hv₁, hout⟩ := forM_drops (outline d).closed_under n.children
    (fun c hc => removeProjection_outline fuel (child_ne_root hv.shape hx hc)) (Outline.closed_empty _) hv
    (outline d).drop_empty.symm hrun
  rw [Set.empty_union] at hout
  have hstays : x ∉ {y | ∃ c ∈ n.children, y ∈ {y | (outline d).Under c y}} := by
    rintro ⟨c, hc, hunder⟩
    exact hO.not_under_parent ((mem_children_iff hv hx).mp hc) hunder
  obtain ⟨n₁, hn₁, -⟩ := outline_eq_some.mp
    ((congrFun hout x).trans ((Outline.drop_of_notMem hstays).trans (outline_of_lookup hx)))
  have hleaf : n₁.children = [] := by
    refine List.eq_nil_iff_forall_not_mem.mpr fun c hc => ?_
    have hchild := (mem_children_iff hv₁ hn₁).mp hc
    rw [hout, Outline.child_drop] at hchild
    exact hchild.1 ⟨c, (mem_children_iff hv hx).mpr hchild.2, Outline.under_self _ _⟩
  obtain ⟨p, hp, -⟩ := hv₁.shape.parent hn₁ hx1
  exact ⟨_, hv₁.removeNode_leaf hn₁ hleaf hp⟩

/-- The tree below a live node that is not the root can be removed. -/
theorem removeProjection_ok (bound fuel : Nat) {x : Nat} (hx1 : x ≠ 1) {d : Document} (hv : Valid d)
    {n : Node} (hx : d.lookup x = some n) (hbound : ∀ y m, d.lookup y = some m → y ≤ bound)
    (hfuel : bound < x + fuel) : ∃ d', removeProjection fuel x d = (.ok (), d') := by
  -- Children have larger ids than their parent, so `bound - x` bounds the depth below `x`.
  induction fuel generalizing x n d with
  | zero =>
      have hle := hbound x n hx
      omega
  | succ fuel ih =>
      have hO := wellFormed_outline hv
      have hstart : Remaining (outline d) n.children d := ⟨hv, hv.shape.nodup hx, ∅, Outline.closed_empty _,
        (outline d).drop_empty.symm, fun _ _ => Set.notMem_empty _⟩
      obtain ⟨d₁, hrun, -⟩ := @forM_succeeds (removeProjection fuel)
        (fun rest d₁ => (∀ c ∈ rest, c ∈ n.children) ∧ Remaining (outline d) rest d₁) (by
          rintro c rest d₁ ⟨hmem, hd₁⟩
          have hsiblings : ∀ y ∈ c :: rest, (outline d).Child x y := fun y hy =>
            (mem_children_iff hv hx).mp (hmem y hy)
          have hc := List.mem_cons_self (a := c) (l := rest)
          have hc1 := child_ne_root hv.shape hx (hmem c hc)
          obtain ⟨e, he, hparent⟩ := hsiblings c hc
          obtain ⟨m, hm⟩ := hd₁.live hc he
          have hlt := hO.above ⟨e, he, hparent⟩
          have hbound₁ : ∀ y k, d₁.lookup y = some k → y ≤ bound := by
            intro y k hk
            obtain ⟨S, -, hout, -⟩ := hd₁.gone
            obtain ⟨-, hy⟩ := Outline.drop_eq_some.mp ((congrFun hout y).symm.trans
              (outline_of_lookup hk))
            obtain ⟨k', hk', -⟩ := outline_eq_some.mp hy
            exact hbound y k' hk'
          obtain ⟨d₂, hstep⟩ := ih hc1 hd₁.valid hm hbound₁ (by omega)
          exact ⟨d₂, hstep, fun y hy => hmem y (List.mem_cons_of_mem _ hy),
            hd₁.step hO hsiblings hc1 hstep⟩) n.children d ⟨fun _ hc => hc, hstart⟩
      obtain ⟨d', hlast⟩ := removeNode_emptied hv hx1 hx hrun
      refine ⟨d', ?_⟩
      rw [removeProjection, Action.bind_apply, Action.view_apply, nodeOr_of_lookup hx,
        Action.next_ok, Action.bind_apply, hrun, Action.next_ok, hlast]

theorem removeSubtreeNodes_ok {x : Nat} (hx1 : x ≠ 1) {d : Document} (hv : Valid d) {n : Node}
    (hx : d.lookup x = some n) : ∃ d', removeSubtreeNodes x d = (.ok (), d') :=
  removeProjection_ok d.nodeSlots.length _ hx1 hv hx (fun _ _ hm => lookup_le hm) (by omega)

theorem prunePane_runs (snapshots : List PaneSnapshot) {c : Nat} (hc0 : c ≠ 0) (hc1 : c ≠ 1)
    {d : Document} (hv : Valid d) : ∃ d', prunePane snapshots c d = (.ok (), d') := by
  rw [prunePane, Action.bind_apply, Action.view_apply, findNode_of_ne_zero hc0, Action.next_ok]
  cases hc : d.lookup c with
  | none => exact ⟨d, rfl⟩
  | some m =>
      dsimp only
      by_cases hkind : m.kind = .ttyLeaf
      · rw [if_pos hkind]
        cases ttyPaneId m.source with
        | none => exact ⟨d, rfl⟩
        | some paneId =>
            dsimp only
            by_cases hany : (snapshots.any (·.paneId == paneId)) = true
            · rw [if_pos hany]
              exact ⟨d, rfl⟩
            · rw [if_neg hany]
              exact removeSubtreeNodes_ok hc1 hv hc
      · rw [if_neg hkind]
        exact ⟨d, rfl⟩

theorem prunePane_ok (snapshots : List PaneSnapshot) {c : Nat} (hc0 : c ≠ 0) (hc1 : c ≠ 1)
    {d : Document} (hv : Valid d) : ∃ d', prunePane snapshots c d = (.ok (), d') ∧ Valid d' := by
  obtain ⟨d', hrun⟩ := prunePane_runs snapshots hc0 hc1 hv
  refine ⟨d', hrun, ?_⟩
  cases hc : d.lookup c with
  | none =>
      rw [prunePane, Action.bind_apply, Action.view_apply, findNode_of_ne_zero hc0, hc,
        Action.next_ok] at hrun
      cases hrun
      exact hv
  | some m =>
      exact (prunePane_outline hc1 (outline_of_lookup hc) (Outline.closed_empty _) hv
        (outline d).drop_empty.symm hrun).1

/-- A loop over the children that a node had succeeds when every turn does. -/
theorem forM_children_ok {f : Nat → DocM Unit}
    (hf : ∀ c d, c ≠ 0 → c ≠ 1 → Valid d → ∃ d', f c d = (.ok (), d') ∧ Valid d') {d : Document}
    (hv : Valid d) {w : Nat} {n : Node} (hw : d.lookup w = some n) :
    ∃ d', n.children.forM f d = (.ok (), d') := by
  obtain ⟨d', hrun, -⟩ := @forM_succeeds f (fun rest d₁ => (∀ c ∈ rest, c ∈ n.children) ∧ Valid d₁) (by
    rintro c rest d₁ ⟨hmem, hv₁⟩
    have hc := hmem c (List.mem_cons_self ..)
    obtain ⟨m, hm, -⟩ := hv.shape.child hw hc
    obtain ⟨d₂, hrun, hv₂⟩ := hf c d₁ (lookup_pos hm) (child_ne_root hv.shape hw hc) hv₁
    exact ⟨d₂, hrun, fun y hy => hmem y (List.mem_cons_of_mem _ hy), hv₂⟩) n.children d
    ⟨fun _ hc => hc, hv⟩
  exact ⟨d', hrun⟩

theorem pruneMissingPanes_ok (snapshots : List PaneSnapshot) {w : Nat} {d : Document} (hv : Valid d)
    {n : Node} (hw : d.lookup w = some n) : ∃ d', pruneMissingPanes w snapshots d = (.ok (), d') := by
  rw [pruneMissingPanes, Action.bind_apply, Action.view_apply, nodeOr_of_lookup hw, Action.next_ok]
  exact forM_children_ok (fun _ _ hc0 hc1 hv => prunePane_ok snapshots hc0 hc1 hv) hv hw

/-- One turn of the second loop succeeds, and only takes nodes away. -/
theorem pruneTurn_thins (ids : List Bytes) (snapshots : List PaneSnapshot) {x : Nat} (hx1 : x ≠ 1) :
    Action.Advances Valid Thinned (pruneTurn ids snapshots x) := by
  refine (Action.advances_view thinned_progress _).bind thinned_progress fun child => ?_
  cases child with
  | none => exact Action.advances_pure thinned_progress _
  | some m =>
      dsimp only
      cases windowProjectionId m with
      | none => exact Action.advances_pure thinned_progress _
      | some windowId =>
          dsimp only
          by_cases hmem : windowId ∈ ids
          · rw [if_pos hmem]
            exact pruneMissingPanes_advances thinned_progress (fun _ => removeNode_thinned) _ _
          · rw [if_neg hmem]
            exact removeSubtreeNodes_advances thinned_progress (fun _ => removeNode_thinned) hx1

theorem pruneTurn_ok (ids : List Bytes) (snapshots : List PaneSnapshot) {x : Nat} (hx0 : x ≠ 0)
    (hx1 : x ≠ 1) {d : Document} (hv : Valid d) :
    ∃ d', pruneTurn ids snapshots x d = (.ok (), d') ∧ Valid d' := by
  suffices hok : ∃ d', pruneTurn ids snapshots x d = (.ok (), d') by
    obtain ⟨d', hd'⟩ := hok
    have hvalid := (pruneTurn_thins ids snapshots hx1 d hv).1
    rw [hd'] at hvalid
    exact ⟨d', hd', hvalid⟩
  rw [pruneTurn, Action.bind_apply, Action.view_apply, findNode_of_ne_zero hx0, Action.next_ok]
  cases hx : d.lookup x with
  | none => exact ⟨d, rfl⟩
  | some m =>
      dsimp only
      cases windowProjectionId m with
      | none => exact ⟨d, rfl⟩
      | some windowId =>
          dsimp only
          by_cases hmem : windowId ∈ ids
          · rw [if_pos hmem]
            exact pruneMissingPanes_ok snapshots hv hx
          · rw [if_neg hmem]
            exact removeSubtreeNodes_ok hx1 hv hx

/-- The second loop succeeds, and only takes nodes away. -/
theorem pruneLoop_ok (ids : List Bytes) (snapshots : List PaneSnapshot) {s : Nat} {d : Document}
    (hv : Valid d) {n : Node} (hs : d.lookup s = some n) :
    ∃ d', n.children.forM (pruneTurn ids snapshots) d = (.ok (), d') ∧ Valid d' ∧ Thinned d d' := by
  obtain ⟨d', hrun⟩ := forM_children_ok
    (fun _ _ hc0 hc1 hv => pruneTurn_ok ids snapshots hc0 hc1 hv) hv hs
  have hadvances : Action.Advances Valid Thinned (n.children.forM (pruneTurn ids snapshots)) :=
    Action.Advances.forM_of thinned_progress fun _ hc =>
      pruneTurn_thins ids snapshots (child_ne_root hv.shape hs hc)
  have hafter := hadvances d hv
  rw [hrun] at hafter
  exact ⟨d', hrun, hafter⟩

/-! ## The first loop of a second pass -/

/-- A document with the same slots. -/
theorem nodeSlots_ext {d d' : Document} (hlength : d'.nodeSlots.length = d.nodeSlots.length)
    (hlook : ∀ y, d'.lookup y = d.lookup y) : d'.nodeSlots = d.nodeSlots := by
  refine List.ext_getElem hlength fun i hi hi' => ?_
  have hslot := hlook (i + 1)
  rw [lookup_succ, lookup_succ, List.getElem?_eq_getElem hi, List.getElem?_eq_getElem hi'] at hslot
  exact hslot

/-- An edit that a node has already. -/
theorem modifyNode_self {d : Document} {x : Nat} {n : Node} (hx : d.lookup x = some n)
    {f : Node → Node} (hf : f n = n) : d.modifyNode x f = d := by
  have hslots : (d.modifyNode x f).nodeSlots = d.nodeSlots := by
    refine nodeSlots_ext (length_modifyNode d x f) fun y => ?_
    rw [lookup_modifyNode]
    split
    · rename_i hy
      rw [hy, hx, Option.map_some, hf]
    · rfl
  show { d with nodeSlots := (d.modifyNode x f).nodeSlots } = d
  rw [hslots]

/-- A window of the snapshots below the session. -/
def WindowOf (O : Outline Projects) (s : Nat) (snapshots : List PaneSnapshot) (y : Nat) : Prop :=
  ∃ snapshot ∈ snapshots, O.Child s y ∧ HasWindow O snapshot.windowId y

/-- A pane of the snapshots below its window. -/
def PaneOf (O : Outline Projects) (s : Nat) (snapshots : List PaneSnapshot) (y : Nat) : Prop :=
  ∃ snapshot ∈ snapshots, ∃ w, O.Child s w ∧ HasWindow O snapshot.windowId w ∧ O.Child w y ∧
    HasPane O snapshot.paneId y

/-- Every snapshot has its window and its pane. -/
def Complete (O : Outline Projects) (s : Nat) (snapshots : List PaneSnapshot) : Prop :=
  ∀ snapshot ∈ snapshots, ∃ w x, O.Child s w ∧ HasWindow O snapshot.windowId w ∧ O.Child w x ∧
    HasPane O snapshot.paneId x

/-- Between two turns of the loop only titles of windows and panes and sources of panes may differ
from those of the document that it started on. -/
structure Again (d₀ d : Document) (s : Nat) (snapshots served : List PaneSnapshot) : Prop where
  valid : Valid d
  outline_eq : outline d = outline d₀
  titled : Titled d s served
  slots : d = { d₀ with nodeSlots := d.nodeSlots }
  length : d.nodeSlots.length = d₀.nodeSlots.length
  node : ∀ y n, d₀.lookup y = some n → ∃ n', d.lookup y = some n' ∧
    n' = (n.setTitle n'.title).setSource n'.source ∧
    (¬ WindowOf (outline d₀) s snapshots y → ¬ PaneOf (outline d₀) s snapshots y →
      n'.title = n.title) ∧
    (¬ PaneOf (outline d₀) s snapshots y → n'.source = n.source)

/-- A turn that finds its window and its pane. -/
theorem Turn.same {s w x : Nat} {snapshot : PaneSnapshot} {d d₁ d' : Document}
    (ht : Turn s snapshot d d₁ d' w x) {q y : Nat} (hq : (outline d).Child s q)
    (hw : HasWindow (outline d) snapshot.windowId q) (hone : (outline d).AtMostOne s
      (·.window = some snapshot.windowId)) (hy : (outline d).Child q y)
    (hp : HasPane (outline d) snapshot.paneId y) :
    outline d₁ = outline d ∧ outline d' = outline d ∧ q = w := by
  obtain ⟨hout₁, hwc, hwh⟩ := ht.windowThere.same hq hw
  have hqw := hone q w hq hw hwc hwh
  subst hqw
  obtain ⟨hout, -⟩ := ht.paneThere.same (hout₁ ▸ hy) (hout₁ ▸ hp)
  exact ⟨hout₁, hout.trans hout₁, rfl⟩

theorem Again.turn {s w x : Nat} {snapshots served : List PaneSnapshot} {snapshot : PaneSnapshot}
    {d₀ d d₁ d' : Document} (h : Again d₀ d s snapshots served)
    (hsingle : Single (outline d₀) s snapshots) (hcomplete : Complete (outline d₀) s snapshots)
    (hmem : snapshot ∈ snapshots) (ht : Turn s snapshot d d₁ d' w x) :
    Again d₀ d' s snapshots (served ++ [snapshot]) := by
  obtain ⟨q, y, hq, hw, hy, hp⟩ := hcomplete snapshot hmem
  rw [← h.outline_eq] at hq hw hy hp
  have hone := hsingle.window snapshot hmem
  rw [← h.outline_eq] at hone
  obtain ⟨hout₁, hout', -⟩ := ht.same hq hw hone hy hp
  have hout := hout'.trans h.outline_eq
  obtain ⟨hwc, hww⟩ := ht.window_there
  obtain ⟨hxc, hxp⟩ := ht.pane_there
  rw [hout] at hwc hww hxc hxp
  have hlive : ∀ {z}, (∃ e, outline d₀ z = some e) → ∃ n, d.lookup z = some n := by
    rintro z ⟨e, he⟩
    rw [← h.outline_eq] at he
    obtain ⟨n, hn, -⟩ := outline_eq_some.mp he
    exact ⟨n, hn⟩
  obtain ⟨m, hm⟩ : ∃ m, d.lookup w = some m := hlive (by obtain ⟨e, he, -⟩ := hwc; exact ⟨e, he⟩)
  obtain ⟨k, hk⟩ : ∃ k, d.lookup x = some k := hlive (by obtain ⟨e, he, -⟩ := hxc; exact ⟨e, he⟩)
  -- Both were there, so the turn writes to these two nodes only.
  have hm₁ := ht.window.found m hm
  have hk₁ : d₁.lookup x = some k := (ht.window.only hm ht.lt.2.ne').trans hk
  have hk' := ht.pane.found k hk₁
  obtain ⟨hslots₁, hlength₁⟩ := ht.window.slots ⟨m, hm⟩
  obtain ⟨hslots', hlength'⟩ := ht.pane.slots ⟨k, hk₁⟩
  refine ⟨ht.valid, hout, ?_, ?_, ?_, ?_⟩
  · exact h.titled.turn h.valid (by rw [hout]; exact hsingle) hmem ht
  · rw [hslots', hslots₁, h.slots]
  · rw [hlength', hlength₁, h.length]
  · intro z n hn
    obtain ⟨n₁, hn₁, heq, htitle, hsource⟩ := h.node z n hn
    by_cases hzx : z = x
    · subst hzx
      rw [hk] at hn₁
      cases hn₁
      have hpane : PaneOf (outline d₀) s snapshots z := ⟨snapshot, hmem, w, hwc, hww, hxc, hxp⟩
      refine ⟨_, hk', ?_, fun _ hnot => absurd hpane hnot, fun hnot => absurd hpane hnot⟩
      rw [heq]
      rfl
    · rw [ht.pane.only hk₁ hzx]
      by_cases hzw : z = w
      · subst hzw
        rw [hm] at hn₁
        cases hn₁
        have hwindow : WindowOf (outline d₀) s snapshots z := ⟨snapshot, hmem, hwc, hww⟩
        refine ⟨_, hm₁, ?_, fun hnot => absurd hwindow hnot, hsource⟩
        rw [heq]
        rfl
      · rw [ht.window.only hm hzw]
        exact ⟨n₁, hn₁, heq, htitle, hsource⟩

/-- The last write is the one that is there already. -/
theorem Again.eq {s : Nat} {snapshots : List PaneSnapshot} {d₀ d : Document}
    (h : Again d₀ d s snapshots snapshots) (htitled : Titled d₀ s snapshots) : d = d₀ := by
  have hlook : ∀ y, d.lookup y = d₀.lookup y := by
    intro y
    cases hy : d₀.lookup y with
    | none =>
        rw [← outline_eq_none, h.outline_eq, outline_eq_none]
        exact hy
    | some n =>
        obtain ⟨n', hn', heq, htitle, hsource⟩ := h.node y n hy
        rw [hn']
        by_cases hpane : PaneOf (outline d₀) s snapshots y
        · -- Both documents show the last snapshot of the pane.
          obtain ⟨snapshot, hmem, w, hwc, hww, hxc, hxp⟩ := hpane
          obtain ⟨last, hlast⟩ := latest_of_mem (ofPane snapshot.windowId snapshot.paneId) hmem
            (by simp [ofPane])
          obtain ⟨htitle₀, hsource₀⟩ := htitled.pane hlast hwc hww hxc hxp hy
          rw [← h.outline_eq] at hwc hww hxc hxp
          obtain ⟨htitle', hsource'⟩ := h.titled.pane hlast hwc hww hxc hxp hn'
          rw [heq, htitle', hsource', ← htitle₀, ← hsource₀]
          rfl
        · have hsource' := hsource hpane
          have htitle' : n'.title = n.title := by
            by_cases hwindow : WindowOf (outline d₀) s snapshots y
            · obtain ⟨snapshot, hmem, hwc, hww⟩ := hwindow
              obtain ⟨last, hlast⟩ := latest_of_mem (ofWindow snapshot.windowId) hmem
                (by simp [ofWindow])
              have htitle₀ := htitled.window hlast hwc hww hy
              rw [← h.outline_eq] at hwc hww
              rw [h.titled.window hlast hwc hww hn', htitle₀]
            · exact htitle hwindow hpane
          rw [heq, htitle', hsource']
          rfl
  rw [h.slots, nodeSlots_ext h.length hlook]

/-- The first loop of a second pass finds everything and leaves the document as it was. -/
theorem ensureLoop_again {s : Nat} {snapshots : List PaneSnapshot} {d₀ : Document} (hv : Valid d₀)
    (hs : ∃ n, d₀.lookup s = some n) (hsingle : Single (outline d₀) s snapshots)
    (hcomplete : Complete (outline d₀) s snapshots) (htitled : Titled d₀ s snapshots) :
    ∃ ids, snapshots.foldlM (ensureTurn s) [] d₀ = (.ok ids, d₀) := by
  suffices hloop : ∀ (rest served : List PaneSnapshot) (desired : List Bytes) (d : Document),
      (∀ snapshot ∈ rest, snapshot ∈ snapshots) → Again d₀ d s snapshots served →
      ∃ ids d', rest.foldlM (ensureTurn s) desired d = (.ok ids, d') ∧
        Again d₀ d' s snapshots (served ++ rest) by
    have hstart : Again d₀ d₀ s snapshots [] := by
      refine ⟨hv, rfl, titled_nil d₀ s, rfl, rfl, fun y n hn => ?_⟩
      exact ⟨n, hn, rfl, fun _ _ => rfl, fun _ => rfl⟩
    obtain ⟨ids, d', hrun, h⟩ := hloop snapshots [] [] d₀ (fun _ hmem => hmem) hstart
    rw [h.eq htitled] at hrun
    exact ⟨ids, hrun⟩
  -- The loop runs from any state of `Again`, with what it has served so far.
  intro rest
  induction rest with
  | nil => exact fun served desired d _ h => ⟨desired, d, rfl, by rwa [List.append_nil]⟩
  | cons snapshot rest ih =>
      intro served desired d hrest h
      have hmem := hrest snapshot (List.mem_cons_self ..)
      obtain ⟨n, hn⟩ := hs
      obtain ⟨n', hn', -⟩ := h.node s n hn
      have hone := hsingle.window snapshot hmem
      obtain ⟨w, x, hwc, hww, hxc, hxp⟩ := hcomplete snapshot hmem
      rw [← h.outline_eq] at hone hwc hww hxc hxp
      rcases ensureTurn_cases h.valid ⟨n', hn'⟩ hone desired with
        ⟨ids, d₁, d', q, y, hrun, ht⟩ | ⟨hnone, -⟩
      · obtain ⟨ids', d'', hrun', h'⟩ := ih (served ++ [snapshot]) ids d'
          (fun y hy => hrest y (List.mem_cons_of_mem _ hy)) (h.turn hsingle hcomplete hmem ht)
        rw [List.append_assoc, List.singleton_append] at h'
        refine ⟨ids', d'', ?_, h'⟩
        rw [List.foldlM_cons, Action.bind_apply, hrun, Action.next_ok, hrun']
      · exact absurd hxp (hnone w x hwc hww hxc)

/-! ## The second loop of a second pass -/

theorem forM_same {f : Nat → DocM Unit} {xs : List Nat} {d : Document}
    (h : ∀ x ∈ xs, f x d = (.ok (), d)) : xs.forM f d = (.ok (), d) := by
  induction xs with
  | nil => rfl
  | cons x rest ih =>
      rw [Action.forM_cons_apply, h x (List.mem_cons_self ..), Action.next_ok]
      exact ih fun y hy => h y (List.mem_cons_of_mem _ hy)

/-- After a pass nothing is stale. -/
theorem not_stale_kept {O : Outline Projects} {s : Nat} {snapshots : List PaneSnapshot} {c : Nat} :
    ¬ Stale (kept O s snapshots) s snapshots c := by
  rintro (⟨windowId, hc, hw, hnot⟩ | ⟨q, windowId, paneId, hq, hw, hmem, hc, hp, hnot⟩)
  · obtain ⟨hstays, hchild⟩ := Outline.child_drop.mp hc
    obtain ⟨-, hwindow⟩ := Outline.has_drop.mp hw
    exact hstays ⟨c, .inl ⟨windowId, hchild, hwindow, hnot⟩, O.under_self c⟩
  · obtain ⟨hstays, hchild⟩ := Outline.child_drop.mp hc
    obtain ⟨-, hqc⟩ := Outline.child_drop.mp hq
    obtain ⟨-, hwindow⟩ := Outline.has_drop.mp hw
    obtain ⟨-, hpane⟩ := Outline.has_drop.mp hp
    exact hstays ⟨c, .inr ⟨q, windowId, paneId, hqc, hwindow, hmem, hchild, hpane, hnot⟩,
      O.under_self c⟩

section Fresh

variable {s : Nat} {snapshots : List PaneSnapshot} {ids : List Bytes} {d : Document} (hv : Valid d)
  (hfresh : ∀ c, ¬ Stale (outline d) s snapshots c)
  (hids : ∀ w, w ∈ ids ↔ w ∈ snapshots.map (·.windowId))
include hfresh

theorem prunePane_same {q c : Nat} {windowId : Bytes} (hq : (outline d).Child s q)
    (hw : HasWindow (outline d) windowId q) (hmem : windowId ∈ snapshots.map (·.windowId))
    (hc : (outline d).Child q c) : prunePane snapshots c d = (.ok (), d) := by
  obtain ⟨m, hm, hparent⟩ := child_outline.mp hc
  rw [prunePane, Action.bind_apply, Action.view_apply, findNode_of_ne_zero (lookup_pos hm), hm,
    Action.next_ok]
  dsimp only
  by_cases hkind : m.kind = .ttyLeaf
  · rw [if_pos hkind]
    cases hpane : ttyPaneId m.source with
    | none => rfl
    | some paneId =>
        dsimp only
        have hhas : HasPane (outline d) paneId c :=
          has_outline.mpr ⟨m, hm, projectedPane_eq_some.mpr ⟨hkind, hpane⟩⟩
        have hpmem : paneId ∈ snapshots.map (·.paneId) := by
          by_contra hnot
          exact hfresh c (.inr ⟨q, windowId, paneId, hq, hw, hmem, hc, hhas, hnot⟩)
        rw [if_pos (any_paneId_iff.mpr hpmem)]
        rfl
  · rw [if_neg hkind]
    rfl

include hv hids

theorem pruneTurn_same {x : Nat} (hx : (outline d).Child s x) :
    pruneTurn ids snapshots x d = (.ok (), d) := by
  obtain ⟨m, hm, hparent⟩ := child_outline.mp hx
  rw [pruneTurn, Action.bind_apply, Action.view_apply, findNode_of_ne_zero (lookup_pos hm), hm,
    Action.next_ok]
  dsimp only
  cases hwindow : windowProjectionId m with
  | none => rfl
  | some windowId =>
      dsimp only
      have hhas : HasWindow (outline d) windowId x := has_outline.mpr ⟨m, hm, hwindow⟩
      have hmem : windowId ∈ snapshots.map (·.windowId) := by
        by_contra hnot
        exact hfresh x (.inl ⟨windowId, hx, hhas, hnot⟩)
      rw [if_pos ((hids windowId).mpr hmem), pruneMissingPanes, Action.bind_apply,
        Action.view_apply, nodeOr_of_lookup hm, Action.next_ok]
      exact forM_same fun c hc =>
        prunePane_same hfresh hx hhas hmem ((mem_children_iff hv hm).mp hc)

/-- The second loop takes nothing away when nothing is stale. -/
theorem pruneLoop_same {n : Node} (hs : d.lookup s = some n) :
    n.children.forM (pruneTurn ids snapshots) d = (.ok (), d) :=
  forM_same fun _ hx => pruneTurn_same hv hfresh hids ((mem_children_iff hv hs).mp hx)

end Fresh

/-! ## The session -/

/-- The list of the parent after a node was found or added below it. -/
theorem Put.children {d d' : Document} {p x : Nat} {edit : Node → Node} (h : Put d d' p x edit)
    (hv : Valid d) (hv' : Valid d') (hchild : (outline d').Child p x) {n : Node}
    (hp : d.lookup p = some n) :
    (∃ m, d.lookup x = some m) ∧ d'.lookup p = some n ∨
      d.lookup x = none ∧ d'.lookup p = some (n.addChild x) := by
  have hne : p ≠ x := ((wellFormed_outline hv').above hchild).ne
  rcases h.others p hne with hsame | ⟨-, hnone, hadd⟩
  · rw [hp] at hsame
    obtain ⟨m, hm, -⟩ := hv.shape.child hp ((mem_children_iff hv' hsame).mpr hchild)
    exact .inl ⟨⟨m, hm⟩, hsame⟩
  · rw [hp] at hadd
    exact .inr ⟨hnone, hadd⟩

/-- A search gives the same answer when the list is the same and the outline of its nodes. -/
theorem searchChildren_congr {d d' : Document} (hv : Valid d) (hv' : Valid d') {p : Nat} {n : Node}
    (hp : d.lookup p = some n) (hp' : d'.lookup p = some n) {test : Node → Bool}
    (hit : Projects → Prop) (hiff : ∀ m, test m = true ↔ hit (projectionOf m))
    (hout : ∀ c ∈ n.children, outline d' c = outline d c) :
    searchChildren d' p test = searchChildren d p test := by
  rw [searchChildren_eq hv hp, searchChildren_eq hv' hp']
  refine congrArg Except.ok (List.find?_congr fun c hc => Bool.eq_iff_iff.mpr ?_)
  rw [any_iff_has hiff, any_iff_has hiff]
  unfold Outline.Has
  rw [hout c hc]

/-- A later search finds the subdocument that was found or added. -/
theorem ensureSubdocument_finds {d d' : Document} (hv : Valid d) {p x : Nat} {bid title : Bytes}
    (hp : ∃ n, d.lookup p = some n) (hit : Projects → Prop)
    (hhit : ∀ n : Node, hit (projectionOf n) ↔ n.kind = .subdocument ∧ n.backendId = some bid)
    (h : ensureSubdocument p bid title d = (.ok x, d')) (hput : Put d d' p x (·.setTitle title)) :
    d'.findChildByBackendId p .subdocument bid = .ok (some x) := by
  obtain ⟨hv', hens⟩ := ensureSubdocument_outline hv h hit hhit
  have hlabel : hit (subdocumentProjection bid) :=
    (hhit { Node.init 0 .subdocument [] none .none with backendId := some bid }).mpr ⟨rfl, rfl⟩
  obtain ⟨hchild, hhas⟩ := hens.there hlabel
  have hiff : ∀ m, isSubdocumentOf bid m = true ↔ hit (projectionOf m) := fun m =>
    isSubdocumentOf_iff.trans (hhit m).symm
  obtain ⟨n, hn⟩ := hp
  rw [findChildByBackendId_eq]
  rcases searchChildren_live hv ⟨n, hn⟩ (isSubdocumentOf bid) hit hiff with
    ⟨c, m, hc, hm, -⟩ | ⟨hsearch, hnone⟩
  · -- It was found: the list is the same, and so is what the test sees of its nodes.
    obtain ⟨rfl, hout⟩ := ensureSubdocument_of_found hc h
    rcases hput.children hv hv' hchild hn with ⟨-, hsame⟩ | ⟨hmissing, -⟩
    · rw [searchChildren_congr hv hv' hn hsame hit hiff fun c _ => congrFun hout c, hc]
    · rw [hm] at hmissing
      cases hmissing
  · have hnot : ∀ c, d.findChildByBackendId p .subdocument bid ≠ .ok (some c) := by
      intro c hc
      rw [findChildByBackendId_eq, hsearch] at hc
      cases hc
    obtain ⟨hfresh, -⟩ := ensureSubdocument_of_not_found hv hnot h
    rcases hput.children hv hv' hchild hn with ⟨⟨m, hm⟩, -⟩ | ⟨-, hadd⟩
    · rw [outline_eq_none, hm] at hfresh
      cases hfresh
    · -- It was added at the end of a list without a match.
      rw [searchChildren_eq hv' hadd]
      have hold : n.children.find? (fun c => (d'.lookup c).any (isSubdocumentOf bid)) = none := by
        refine List.find?_eq_none.mpr fun c hc hany => ?_
        obtain ⟨m, hm, -⟩ := hv.shape.child hn hc
        obtain ⟨e, he, hhit'⟩ := (any_iff_has hiff c).mp hany
        rw [hens.grows (outline_of_lookup hm)] at he
        cases he
        exact hnone c ((mem_children_iff hv hn).mp hc) ⟨_, outline_of_lookup hm, hhit'⟩
      show Except.ok ((n.children ++ [x]).find? _) = _
      rw [List.find?_append, hold, Option.none_or, List.find?_singleton,
        if_pos ((any_iff_has hiff x).mpr hhas)]

/-! ## A pass in three steps -/

/-- The backend id of the session that a snapshot belongs to. -/
def sessionBackendId (snapshot : PaneSnapshot) : Bytes := sessionBackendPrefix ++ snapshot.sessionId

/-- A pass that succeeds: the session is found or added, the first loop serves the snapshots, the
second one takes away what is stale. -/
structure Pass (d : Document) (p : Nat) (first : PaneSnapshot) (rest : List PaneSnapshot) (s : Nat)
    (d₁ d₂ d' : Document) : Prop where
  valid : Valid d
  valid₁ : Valid d₁
  valid' : Valid d'
  run : ensureSessionNode p first d = (.ok s, d₁)
  put : Put d d₁ p s (·.setTitle first.sessionName)
  there : (outline d).Ensured p (·.session = some first.sessionId)
    (subdocumentProjection (sessionBackendId first)) s (outline d₁)
  finds : d₁.findChildByBackendId p .subdocument (sessionBackendId first) = .ok (some s)
  served : Served d₁ d₂ s (first :: rest) (first :: rest)
  widened : Widened (outline d₁) (outline d₂) s (first :: rest) (first :: rest)
  thinned : Thinned d₂ d'
  outline_eq : outline d' = kept (outline d₂) s (first :: rest)

theorem not_mixed {first : PaneSnapshot} {rest : List PaneSnapshot}
    (hsame : ∀ snapshot ∈ rest, snapshot.sessionId = first.sessionId) :
    ¬ (rest.any fun snapshot => snapshot.sessionId ≠ first.sessionId) = true := by
  rw [List.any_eq_true]
  rintro ⟨snapshot, hmem, hne⟩
  exact of_decide_eq_true hne (hsame snapshot hmem)

/-- A node that was just added has no children. -/
theorem not_child_added {d d₁ : Document} (hv : Valid d) {p s : Nat} {hit : Projects → Prop}
    {label : Projects} (h : (outline d).Ensured p hit label s (outline d₁)) (hs : d.lookup s = none)
    (hlt : p < s) (c : Nat) : ¬ (outline d₁).Child s c := by
  rintro ⟨e, he, hparent⟩
  rcases h.entry he with hold | ⟨-, rfl, -⟩
  · obtain ⟨f, hf⟩ := (wellFormed_outline hv).parent ⟨e, hold, hparent⟩
    rw [outline_eq_none.mpr hs] at hf
    cases hf
  · exact absurd (Option.some.inj hparent) hlt.ne

/-- What does not lie below the session is kept. -/
theorem kept_outside {O : Outline Projects} (hO : O.WellFormed) {s y : Nat}
    {snapshots : List PaneSnapshot} (hy : O.Under s y → y = s) : kept O s snapshots y = O y := by
  refine Outline.drop_of_notMem ?_
  rintro ⟨c, hc, hcy⟩
  have hys := hy (hc.under.trans hcy)
  subst hys
  exact hc.not_under_session hO hcy

section Pass

variable {d d₁ d₂ d' : Document} {p s : Nat} {first : PaneSnapshot} {rest : List PaneSnapshot}
  (h : Pass d p first rest s d₁ d₂ d')
include h

theorem Pass.session_there :
    (outline d₁).Child p s ∧ (outline d₁).Has (·.session = some first.sessionId) s := by
  refine h.there.there ?_
  show backendSuffix (some (sessionBackendPrefix ++ _)) sessionBackendPrefix = _
  exact backendSuffix_eq_some.mpr rfl

theorem Pass.lt : p < s := (wellFormed_outline h.valid₁).above h.session_there.1

/-- The parent is not below the session. -/
theorem Pass.not_under : ¬ (outline d₂).Under s p := fun hunder =>
  absurd ((wellFormed_outline h.served.valid).le hunder) h.lt.not_ge

/-- A node that was there lies below the session exactly when it did before. -/
theorem Pass.under_old {y : Nat} {n : Node} (hy : d.lookup y = some n) :
    (outline d₂).Under s y → (outline d).Under s y := by
  intro hunder
  have hlive : outline d₁ y = some (outlineEntry n) := h.there.grows (outline_of_lookup hy)
  have hunder₁ := (h.served.grown.under (wellFormed_outline h.valid₁) hlive).mp hunder
  exact (h.there.grows.under (wellFormed_outline h.valid) (outline_of_lookup hy)).mp hunder₁

/-- The second loop leaves a node that does not lie below the session as it is. -/
theorem Pass.second_outside {y : Nat} (hy : ¬ (outline d₂).Under s y) :
    d'.lookup y = d₂.lookup y := by
  have hO := wellFormed_outline h.served.valid
  have hout : outline d' y = outline d₂ y := by
    rw [h.outline_eq]
    exact kept_outside hO fun hunder => absurd hunder hy
  cases hn : d₂.lookup y with
  | none =>
      rw [outline_eq_none.mpr hn, outline_eq_none] at hout
      exact hout
  | some n =>
      rw [outline_of_lookup hn] at hout
      obtain ⟨n', hn', -⟩ := outline_eq_some.mp hout
      obtain ⟨m, hm, -, hkept⟩ := h.thinned y n' hn'
      rw [hn] at hm
      cases hm
      rw [hn', hkept]
      intro c hc
      -- A child below the session would have its parent there too, unless it is the session.
      have hchild := (mem_children_iff h.served.valid hn).mp hc
      obtain ⟨e, he, hparent⟩ := hchild
      have hstays : outline d' c = some e := by
        rw [h.outline_eq, kept_outside hO, he]
        intro hunder
        by_contra hne
        exact hy (Outline.Under.parent hunder hne ⟨e, he, hparent⟩)
      obtain ⟨m, hm, -⟩ := outline_eq_some.mp hstays
      exact ⟨m, hm⟩

/-- Of the nodes that were there outside the session's tree, a pass changes the parent at most. -/
theorem Pass.outside {y : Nat} {n : Node} (hn : d.lookup y = some n) (hyp : y ≠ p)
    (hy : ¬ (outline d).Under s y) : d'.lookup y = some n := by
  have hys : y ≠ s := fun heq => hy (heq ▸ Outline.under_self _ _)
  have hnot : ¬ (outline d₂).Under s y := fun hunder => hy (h.under_old hn hunder)
  rw [h.second_outside hnot, h.served.outside y hnot]
  rcases h.put.others y hys with hsame | ⟨heq, -⟩
  · rw [hsame, hn]
  · exact absurd heq hyp

/-- The parent changes when the session is added to its list. -/
theorem Pass.parent {n : Node} (hn : d.lookup p = some n) :
    (∃ m, d.lookup s = some m) ∧ d'.lookup p = some n ∨
      d.lookup s = none ∧ d'.lookup p = some (n.addChild s) := by
  rw [h.second_outside h.not_under, h.served.outside p h.not_under]
  exact h.put.children h.valid h.valid₁ h.session_there.1 hn

/-- A node that is new lies below the session. -/
theorem Pass.fresh {y : Nat} {n' : Node} (hn' : d'.lookup y = some n') (hy : d.lookup y = none) :
    (outline d').Under s y := by
  by_cases hys : y = s
  · rw [hys]
    exact Outline.under_self _ _
  · have hO' := wellFormed_outline h.valid'
    have hy₁ : outline d₁ y = none := by
      rw [outline_eq_none]
      rcases h.put.others y hys with hsame | ⟨-, -, hadd⟩
      · rw [hsame, hy]
      · rw [hadd, hy]
        rfl
    have hent : outline d' y = some (outlineEntry n') := outline_of_lookup hn'
    obtain ⟨hgone, hent₂⟩ := Outline.drop_eq_some.mp (h.outline_eq ▸ hent)
    rcases h.widened.new hent₂ hy₁ with hnew | hnew
    · exact Outline.Child.under ⟨_, hent, hnew.parent⟩
    · obtain ⟨snapshot, -, -, q, hparent, hq, -⟩ := hnew.pane
      obtain ⟨e, he⟩ := hO'.parent ⟨_, hent, hparent⟩
      obtain ⟨hqgone, -⟩ := Outline.drop_eq_some.mp (h.outline_eq ▸ he)
      have hq' : (outline d').Child s q := by
        rw [h.outline_eq]
        exact Outline.child_drop.mpr ⟨hqgone, hq⟩
      exact hq'.under.child ⟨_, hent, hparent⟩

/-- A window that a snapshot names keeps its node. -/
theorem Pass.window_kept {snapshot : PaneSnapshot} (hmem : snapshot ∈ first :: rest) {w : Nat}
    (hw : (outline d₂).Child s w) (hhas : HasWindow (outline d₂) snapshot.windowId w) :
    (outline d').Child s w ∧ HasWindow (outline d') snapshot.windowId w := by
  have hO := wellFormed_outline h.served.valid
  have hstays := stays_window hO hw hhas (List.mem_map_of_mem hmem)
  rw [h.outline_eq]
  exact ⟨child_kept hstays hw, (kept_iff.mpr ⟨hstays, hhas⟩).2⟩

/-- A pane that a snapshot names keeps its node. -/
theorem Pass.pane_kept {snapshot : PaneSnapshot} (hmem : snapshot ∈ first :: rest) {w x : Nat}
    (hw : (outline d₂).Child s w) (hhas : HasWindow (outline d₂) snapshot.windowId w)
    (hx : (outline d₂).Child w x) (hp : HasPane (outline d₂) snapshot.paneId x) :
    (outline d').Child w x ∧ HasPane (outline d') snapshot.paneId x := by
  have hO := wellFormed_outline h.served.valid
  have hstays := stays_pane hO hw hhas (List.mem_map_of_mem hmem) hx hp (List.mem_map_of_mem hmem)
  rw [h.outline_eq]
  exact ⟨child_kept hstays hx, (kept_iff.mpr ⟨hstays, hp⟩).2⟩

theorem Pass.complete : Complete (outline d') s (first :: rest) := by
  intro snapshot hmem
  obtain ⟨w, x, hw, hhas, hx, hp⟩ := h.widened.served snapshot hmem
  obtain ⟨hw', hhas'⟩ := h.window_kept hmem hw hhas
  obtain ⟨hx', hp'⟩ := h.pane_kept hmem hw hhas hx hp
  exact ⟨w, x, hw', hhas', hx', hp'⟩

/-- What is there after the pass was there before the second loop. -/
theorem Pass.child_before {q x : Nat} (hx : (outline d').Child q x) : (outline d₂).Child q x := by
  rw [h.outline_eq] at hx
  exact (Outline.child_drop.mp hx).2

theorem Pass.has_before {hit : Projects → Prop} {x : Nat} (hx : (outline d').Has hit x) :
    (outline d₂).Has hit x := by
  rw [h.outline_eq] at hx
  exact (Outline.has_drop.mp hx).2

theorem Pass.single : Single (outline d') s (first :: rest) where
  window snapshot hmem _ _ hy hyh hz hzh :=
    h.served.single.window snapshot hmem _ _ (h.child_before hy) (h.has_before hyh)
      (h.child_before hz) (h.has_before hzh)
  pane snapshot hmem _ hw hhas _ _ hy hyh hz hzh :=
    h.served.single.pane snapshot hmem (h.child_before hw) (h.has_before hhas) _ _
      (h.child_before hy) (h.has_before hyh) (h.child_before hz) (h.has_before hzh)

theorem Pass.titled : Titled d' s (first :: rest) where
  window hlast hw hhas hn' := by
    obtain ⟨n, hn, heq, -⟩ := h.thinned _ _ hn'
    have htitle := h.served.titled.window hlast (h.child_before hw) (h.has_before hhas) hn
    rw [heq]
    exact htitle
  pane hlast hw hhas hx hp hn' := by
    obtain ⟨n, hn, heq, -⟩ := h.thinned _ _ hn'
    have hshown := h.served.titled.pane hlast (h.child_before hw) (h.has_before hhas)
      (h.child_before hx) (h.has_before hp) hn
    rw [heq]
    exact hshown

/-- The session has its title. -/
theorem Pass.session_title : ∃ n, d'.lookup s = some n ∧ n.title = first.sessionName := by
  obtain ⟨n₁, hn₁, hfixed⟩ := h.put.fixed
  obtain ⟨n₂, hn₂, htitle₂⟩ := h.served.session n₁ hn₁
  have hent : outline d' s = some (outlineEntry n₂) := by
    rw [h.outline_eq, kept_outside (wellFormed_outline h.served.valid) fun _ => rfl]
    exact outline_of_lookup hn₂
  obtain ⟨n', hn', -⟩ := outline_eq_some.mp hent
  obtain ⟨m, hm, heq, -⟩ := h.thinned s n' hn'
  rw [hn₂] at hm
  cases hm
  refine ⟨n', hn', ?_⟩
  have htitle₁ : n₁.title = first.sessionName := (congrArg Node.title hfixed).symm
  rw [heq, ← htitle₁, ← htitle₂]

/-- A later search finds the session. -/
theorem Pass.finds_again :
    d'.findChildByBackendId p .subdocument (sessionBackendId first) = .ok (some s) := by
  have hiff : ∀ m, isSubdocumentOf (sessionBackendId first) m = true ↔
      (projectionOf m).session = some first.sessionId := fun m =>
    isSubdocumentOf_iff.trans projectedSession_eq_some.symm
  obtain ⟨n, hn⟩ : ∃ n, d₁.lookup p = some n := by
    obtain ⟨e, he⟩ := (wellFormed_outline h.valid₁).parent h.session_there.1
    obtain ⟨n, hn, -⟩ := outline_eq_some.mp he
    exact ⟨n, hn⟩
  have hn' : d'.lookup p = some n := by
    rw [h.second_outside h.not_under, h.served.outside p h.not_under, hn]
  rw [findChildByBackendId_eq, ← h.finds, findChildByBackendId_eq]
  refine searchChildren_congr h.valid₁ h.valid' hn hn' (·.session = some first.sessionId) hiff
    fun c hc => ?_
  have hchild := (mem_children_iff h.valid₁ hn).mp hc
  have hchild₂ := h.served.grown.child hchild
  obtain ⟨m, hm, -⟩ := h.valid₁.shape.child hn hc
  rw [h.outline_eq, kept_outside (wellFormed_outline h.served.valid), outline_of_lookup hm]
  · exact h.served.grown (outline_of_lookup hm)
  · intro hunder
    by_contra hne
    exact h.not_under (Outline.Under.parent hunder hne hchild₂)

/-- A second pass over the same snapshots changes nothing. -/
theorem Pass.again (hsame : ∀ snapshot ∈ rest, snapshot.sessionId = first.sessionId) :
    reconcileSessionSnapshots p (first :: rest) d' = (.ok s, d') := by
  obtain ⟨n, hn, htitle⟩ := h.session_title
  have hsession : ensureSessionNode p first d' = (.ok s, d') := by
    have hset := updateKnownNode_of_lookup hn (·.setTitle first.sessionName)
    have hfixed : n.setTitle first.sessionName = n := by rw [← htitle]; rfl
    rw [modifyNode_self hn hfixed] at hset
    have hfind : Action.view (fun d => d.findChildByBackendId p .subdocument
        (sessionBackendPrefix ++ first.sessionId)) d' = (.ok (some s), d') :=
      congrArg (·, d') h.finds_again
    rw [ensureSessionNode, ensureSubdocument, Action.bind_apply, hfind, Action.next_ok]
    dsimp only
    rw [Action.bind_apply, hset, Action.next_ok]
    rfl
  obtain ⟨ids, hloop⟩ := ensureLoop_again h.valid' ⟨n, hn⟩ h.single h.complete h.titled
  obtain ⟨-, -, hids⟩ := ensure_loop (first :: rest) (fun _ hmem => hmem) h.valid'
    (.start (wellFormed_outline h.valid') s (first :: rest)) hloop
  have hfresh : ∀ c, ¬ Stale (outline d') s (first :: rest) c := by
    intro c
    rw [h.outline_eq]
    exact not_stale_kept
  have hprune := pruneLoop_same h.valid' hfresh (fun w => by rw [hids w]; simp) hn
  rw [reconcileSessionSnapshots_eq (not_mixed hsame), Action.bind_apply, hsession, Action.next_ok,
    Action.bind_apply, hloop, Action.next_ok, Action.bind_apply, Action.view_apply,
    nodeOr_of_lookup hn, Action.next_ok, Action.bind_apply, hprune]
  rfl

end Pass

/-- A session that was just added has no windows, and one that was found keeps its own. -/
theorem Single.session {d d₁ : Document} (hv : Valid d) {p s : Nat} {first : PaneSnapshot}
    {snapshots : List PaneSnapshot}
    (hsingle : ∀ s, d.findChildByBackendId p .subdocument (sessionBackendId first) = .ok (some s) →
      Single (outline d) s snapshots)
    (hrun : ensureSubdocument p (sessionBackendId first) first.sessionName d = (.ok s, d₁)) :
    Single (outline d₁) s snapshots := by
  obtain ⟨-, hthere⟩ := ensureSubdocument_outline hv hrun (·.session = some first.sessionId)
    fun _ => projectedSession_eq_some
  by_cases hfound : ∃ s₀, d.findChildByBackendId p .subdocument (sessionBackendId first)
      = .ok (some s₀)
  · obtain ⟨s₀, hs₀⟩ := hfound
    obtain ⟨rfl, hout⟩ := ensureSubdocument_of_found hs₀ hrun
    rw [hout]
    exact hsingle s hs₀
  · obtain ⟨hfresh, -, hlt, -⟩ :=
      ensureSubdocument_of_not_found hv (fun c hc => hfound ⟨c, hc⟩) hrun
    have hnone := not_child_added hv hthere (outline_eq_none.mp hfresh) hlt
    exact ⟨fun _ _ y _ hy => absurd hy (hnone y), fun _ _ {w} hw => absurd hw (hnone w)⟩

/-- A pass below a live node succeeds, unless the ids run out. -/
theorem reconcile_pass {d : Document} (hv : Valid d) {p : Nat} (hp : ∃ n, d.lookup p = some n)
    {first : PaneSnapshot} {rest : List PaneSnapshot}
    (hsame : ∀ snapshot ∈ rest, snapshot.sessionId = first.sessionId)
    (hsingle : ∀ s, d.findChildByBackendId p .subdocument (sessionBackendId first) = .ok (some s) →
      Single (outline d) s (first :: rest)) :
    (∃ s d₁ d₂ d', reconcileSessionSnapshots p (first :: rest) d = (.ok s, d') ∧
      Pass d p first rest s d₁ d₂ d') ∨
    Exhausted (2 * (rest.length + 1) + 1) d (reconcileSessionSnapshots p (first :: rest) d) := by
  rw [reconcileSessionSnapshots_eq (not_mixed hsame), Action.bind_apply]
  rcases ensureSubdocument_put hv hp (sessionBackendId first) first.sessionName
      (·.session = some first.sessionId)
      (fun _ => isSubdocumentOf_iff.trans projectedSession_eq_some.symm)
      with ⟨s, d₁, hrun, hput⟩ | ⟨-, hexhausted⟩
  · obtain ⟨hv₁, hthere⟩ := ensureSubdocument_outline hv hrun (·.session = some first.sessionId)
      fun _ => projectedSession_eq_some
    have hfinds := ensureSubdocument_finds hv hp (·.session = some first.sessionId)
      (fun _ => projectedSession_eq_some) hrun hput
    have hsession : ensureSessionNode p first d = (.ok s, d₁) := hrun
    rw [hsession, Action.next_ok, Action.bind_apply]
    obtain ⟨n₁, hn₁, -⟩ := hput.fixed
    rcases ensureLoop_cases ⟨n₁, hn₁⟩ (first :: rest) (fun _ hmem => hmem)
        (served_nil hv₁ (Single.session hv hsingle hrun)) [] with ⟨ids, d₂, hloop, hserved⟩ | hexhausted
    · obtain ⟨hv₂, hwide, hids⟩ := ensure_loop (first :: rest) (fun _ hmem => hmem) hv₁
        (.start (wellFormed_outline hv₁) s (first :: rest)) hloop
      obtain ⟨n₂, hn₂, -⟩ := hserved.session n₁ hn₁
      obtain ⟨d', hprune, hv', hthinned⟩ := pruneLoop_ok ids (first :: rest) hv₂ hn₂
      have hout := prune_loop (fun w => by rw [hids w]; simp) hv₂ hn₂ hprune
      refine .inl ⟨s, d₁, d₂, d', ?_, hv, hv₁, hv', hsession, hput, hthere, hfinds, hserved, hwide,
        hthinned, hout⟩
      rw [hloop, Action.next_ok, Action.bind_apply, Action.view_apply, nodeOr_of_lookup hn₂,
        Action.next_ok, Action.bind_apply, hprune]
      rfl
    · have hlater := (hexhausted.next fun ids => (do
        let sessionNode ← Action.view fun d => d.nodeOr s .unknownNode
        sessionNode.children.forM (pruneTurn ids (first :: rest))
        return s : DocM Nat)).later hput.next
      refine .inr ⟨?_, hlater.2⟩
      have hlimit := hlater.1
      rw [List.length_cons] at hlimit
      omega
  · -- The ids ran out at the session itself.
    have hsession : Exhausted 1 d (ensureSessionNode p first d) := hexhausted
    have hnext := hsession.next fun s => (do
      let ids ← (first :: rest).foldlM (ensureTurn s) []
      let sessionNode ← Action.view fun d => d.nodeOr s .unknownNode
      sessionNode.children.forM (pruneTurn ids (first :: rest))
      return s : DocM Nat)
    exact .inr ⟨hnext.1.trans (by omega), hnext.2⟩

/-- A pass below a node that is not there fails and changes no node. -/
theorem reconcile_orphan {d : Document} (hv : Valid d) {p : Nat} (hp : d.lookup p = none)
    {first : PaneSnapshot} {rest : List PaneSnapshot}
    (hsame : ∀ snapshot ∈ rest, snapshot.sessionId = first.sessionId) :
    ∃ f d', reconcileSessionSnapshots p (first :: rest) d = (.error f, d') ∧
      ∀ y, d'.lookup y = d.lookup y := by
  suffices hsession : ∃ f d', ensureSessionNode p first d = (.error f, d') ∧
      ∀ y, d'.lookup y = d.lookup y by
    obtain ⟨f, d', hrun, hlook⟩ := hsession
    refine ⟨f, d', ?_, hlook⟩
    rw [reconcileSessionSnapshots_eq (not_mixed hsame), Action.bind_apply, hrun]
    rfl
  rw [ensureSessionNode, ensureSubdocument, Action.bind_apply, Action.view_apply]
  by_cases hp0 : p = 0
  · subst hp0
    exact ⟨_, d, rfl, fun _ => rfl⟩
  · have hfind : d.findChildByBackendId p .subdocument (sessionBackendPrefix ++ first.sessionId)
        = .ok none := by
      rw [findChildByBackendId_eq, searchChildren, findNode_of_ne_zero hp0, hp]
      rfl
    rw [hfind, Action.next_ok]
    dsimp only
    rw [Action.bind_apply]
    rcases appendNode_cases hv.shape p .subdocument first.sessionName .none with
      ⟨-, ⟨m, hm⟩, -⟩ | ⟨-, -, heq⟩ | ⟨-, heq⟩
    · rw [hp] at hm
      cases hm
    · rw [heq]
      exact ⟨_, _, rfl, fun _ => rfl⟩
    · rw [heq]
      exact ⟨_, _, rfl, fun _ => rfl⟩

/-! ### No pass makes a twin -/

/-- No node has two children for one window, or for one pane. -/
structure NoTwins (O : Outline Projects) : Prop where
  window : ∀ p windowId, O.AtMostOne p (·.window = some windowId)
  pane : ∀ p paneId, O.AtMostOne p (·.pane = some paneId)

theorem NoTwins.single {O : Outline Projects} (h : NoTwins O) (s : Nat)
    (snapshots : List PaneSnapshot) : Single O s snapshots where
  window snapshot _ := h.window s snapshot.windowId
  pane snapshot _ {w} _ _ := h.pane w snapshot.paneId

theorem NoTwins.drop {O : Outline Projects} (h : NoTwins O) (S : Set Nat) : NoTwins (O.drop S) where
  window p windowId y z hy hyh hz hzh :=
    h.window p windowId y z (Outline.child_drop.mp hy).2 (Outline.has_drop.mp hyh).2
      (Outline.child_drop.mp hz).2 (Outline.has_drop.mp hzh).2
  pane p paneId y z hy hyh hz hzh :=
    h.pane p paneId y z (Outline.child_drop.mp hy).2 (Outline.has_drop.mp hyh).2
      (Outline.child_drop.mp hz).2 (Outline.has_drop.mp hzh).2

section Widened

variable {O₁ O : Outline Projects} {s : Nat} {snapshots : List PaneSnapshot}
  (hw : Widened O₁ O s snapshots snapshots)
include hw

/-- A window that the first loop added is the only one of its window. -/
theorem Widened.window_only {p y z : Nat} {windowId : Bytes} (hnew : O₁ y = none)
    (hy : O.Child p y) (hyw : HasWindow O windowId y) (hz : O.Child p z)
    (hzw : HasWindow O windowId z) : z = y := by
  obtain ⟨e, he, hparent⟩ := hy
  obtain ⟨f, hf, hwindow⟩ := hyw
  rw [he] at hf
  cases hf
  rcases hw.new he hnew with hadded | hadded
  · obtain ⟨snapshot, -, hsnapshot, honly⟩ := hadded.window
    rw [hadded.parent] at hparent
    rw [hwindow] at hsnapshot
    cases hparent
    cases hsnapshot
    exact honly z hz hzw
  · have hnone := hadded.window
    rw [hwindow] at hnone
    cases hnone

/-- A pane that the first loop added is the only one with its id below its window. -/
theorem Widened.pane_only {p y z : Nat} {paneId : Bytes} (hnew : O₁ y = none)
    (hy : O.Child p y) (hyp : HasPane O paneId y) (hz : O.Child p z)
    (hzp : HasPane O paneId z) : z = y := by
  obtain ⟨e, he, hparent⟩ := hy
  obtain ⟨f, hf, hpane⟩ := hyp
  rw [he] at hf
  cases hf
  rcases hw.new he hnew with hadded | hadded
  · have hnone := hadded.pane
    rw [hpane] at hnone
    cases hnone
  · obtain ⟨snapshot, -, hsnapshot, q, hq, -, -, honly⟩ := hadded.pane
    rw [hq] at hparent
    rw [hpane] at hsnapshot
    cases hparent
    cases hsnapshot
    exact honly z hz hzp

theorem Widened.noTwins (h : NoTwins O₁) : NoTwins O where
  window p windowId y z hy hyh hz hzh := by
    cases hyo : O₁ y with
    | none => exact (hw.window_only hyo hy hyh hz hzh).symm
    | some e =>
        cases hzo : O₁ z with
        | none => exact hw.window_only hzo hz hzh hy hyh
        | some f =>
            exact h.window p windowId y z (hw.child_old hyo hy) (hw.has_old hyo hyh)
              (hw.child_old hzo hz) (hw.has_old hzo hzh)
  pane p paneId y z hy hyh hz hzh := by
    cases hyo : O₁ y with
    | none => exact (hw.pane_only hyo hy hyh hz hzh).symm
    | some e =>
        cases hzo : O₁ z with
        | none => exact hw.pane_only hzo hz hzh hy hyh
        | some f =>
            exact h.pane p paneId y z (hw.child_old hyo hy) (hw.has_old hyo hyh)
              (hw.child_old hzo hz) (hw.has_old hzo hzh)

end Widened

/-- A pass finds before it adds, so a document without twins has none after it. -/
theorem reconcile_noTwins {d d' : Document} (hv : Valid d) {p s : Nat} {snapshots : List PaneSnapshot}
    (h : NoTwins (outline d)) (hrun : reconcileSessionSnapshots p snapshots d = (.ok s, d')) :
    NoTwins (outline d') := by
  cases snapshots with
  | nil => cases hrun
  | cons first rest =>
      obtain ⟨-, d₁, hs, -, O, hwide, hout⟩ := reconcile_loops hv hrun
      obtain ⟨-, hstep⟩ := ensureSubdocument_outline hv hs (·.session = some first.sessionId)
        fun _ => projectedSession_eq_some
      have hwindow : (subdocumentProjection (sessionBackendId first)).window = none :=
        backendSuffix_session_window first.sessionId
      have h₁ : NoTwins (outline d₁) := by
        constructor
        · intro q windowId
          refine hstep.atMostOne (h.window q windowId) fun hlabel => ?_
          have hclash := hwindow.symm.trans hlabel
          cases hclash
        · intro q paneId
          exact hstep.atMostOne (h.pane q paneId) fun hlabel => by cases hlabel
      rw [hout]
      exact (hwide.noTwins h₁).drop _

/-! ## Two passes -/

/-- What a pass leaves, and that a second one leaves it so. -/
structure Reconciled (d : Document) (p : Nat) (first : PaneSnapshot) (rest : List PaneSnapshot)
    (s : Nat) (d' : Document) : Prop where
  valid : Valid d'
  again : reconcileSessionSnapshots p (first :: rest) d' = (.ok s, d')
  session : ∀ s₀, d.findChildByBackendId p .subdocument (sessionBackendId first) = .ok (some s₀) →
    s = s₀
  window : ∀ snapshot ∈ first :: rest, ∀ w, (outline d).Child s w →
    HasWindow (outline d) snapshot.windowId w →
    (outline d').Child s w ∧ HasWindow (outline d') snapshot.windowId w
  pane : ∀ snapshot ∈ first :: rest, ∀ w x, (outline d).Child s w →
    HasWindow (outline d) snapshot.windowId w → (outline d).Child w x →
    HasPane (outline d) snapshot.paneId x →
    (outline d').Child w x ∧ HasPane (outline d') snapshot.paneId x
  outside : ∀ y n, d.lookup y = some n → y ≠ p → ¬ (outline d).Under s y → d'.lookup y = some n
  parent : ∀ n, d.lookup p = some n → (∃ m, d.lookup s = some m) ∧ d'.lookup p = some n ∨
    d.lookup s = none ∧ d'.lookup p = some (n.addChild s)
  fresh : ∀ y n, d'.lookup y = some n → d.lookup y = none → (outline d').Under s y

theorem Pass.reconciled {d d₁ d₂ d' : Document} {p s : Nat} {first : PaneSnapshot}
    {rest : List PaneSnapshot} (h : Pass d p first rest s d₁ d₂ d')
    (hsame : ∀ snapshot ∈ rest, snapshot.sessionId = first.sessionId) :
    Reconciled d p first rest s d' := by
  have hgrows : (outline d).Extends (outline d₂) := fun _ _ hy => h.served.grown (h.there.grows hy)
  refine ⟨h.valid', h.again hsame, ?_, ?_, ?_, fun _ _ => h.outside, fun _ => h.parent,
    fun _ _ => h.fresh⟩
  · intro s₀ hs₀
    exact (ensureSubdocument_of_found hs₀ h.run).1
  · intro snapshot hmem w hw hhas
    exact h.window_kept hmem (hgrows.child hw) (hgrows.has hhas)
  · intro snapshot hmem w x hw hhas hx hp
    exact h.pane_kept hmem (hgrows.child hw) (hgrows.has hhas) (hgrows.child hx) (hgrows.has hp)

/-- A pass over the snapshots of one session below a live node keeps the nodes of what stays,
changes nothing outside the session's tree, and a second pass changes nothing; below another node
both fail and change no node. -/
theorem reconcile_twice {d : Document} (hv : Valid d) (p : Nat) {first : PaneSnapshot}
    {rest : List PaneSnapshot} (hsame : ∀ snapshot ∈ rest, snapshot.sessionId = first.sessionId)
    (hsingle : ∀ s, d.findChildByBackendId p .subdocument (sessionBackendId first) = .ok (some s) →
      Single (outline d) s (first :: rest)) :
    (∃ s d', reconcileSessionSnapshots p (first :: rest) d = (.ok s, d') ∧
      Reconciled d p first rest s d') ∨
    (d.lookup p = none ∧ ∃ f d', reconcileSessionSnapshots p (first :: rest) d = (.error f, d') ∧
      (∀ y, d'.lookup y = d.lookup y) ∧
      ∀ y, (reconcileSessionSnapshots p (first :: rest) d').2.lookup y = d'.lookup y) ∨
    Exhausted (2 * (rest.length + 1) + 1) d (reconcileSessionSnapshots p (first :: rest) d) := by
  cases hp : d.lookup p with
  | none =>
      obtain ⟨f, d', hrun, hlook⟩ := reconcile_orphan hv hp hsame
      have hv' := (reconcileSessionSnapshots_settled p (first :: rest) d hv).1
      rw [hrun] at hv'
      obtain ⟨f', d'', hrun', hlook'⟩ := reconcile_orphan hv' ((hlook p).trans hp) hsame
      refine .inr (.inl ⟨rfl, f, d', hrun, hlook, fun y => ?_⟩)
      rw [hrun']
      exact hlook' y
  | some n =>
      rcases reconcile_pass hv ⟨n, hp⟩ hsame hsingle with ⟨s, d₁, d₂, d', hrun, h⟩ | hexhausted
      · exact .inl ⟨s, d', hrun, h.reconciled hsame⟩
      · exact .inr (.inr hexhausted)

/-- The second pass over the snapshots that an empty document was given. -/
theorem reconcile_twice_empty :
    reconcileSessionSnapshots 1 beforeMove projectedBefore = (.ok 2, projectedBefore) := by
  have hrun : reconcileSessionSnapshots 1 beforeMove (init 1 []) = (.ok 2, projectedBefore) :=
    run_of_ok (by decide +kernel)
  rcases @reconcile_twice (init 1 []) (valid_init 1 []) 1 (samplePane (ascii "@1") (ascii "%1"))
      beforeMove.tail (by decide) (fun s hs => by cases hs) with
    ⟨s, d', hok, h⟩ | ⟨hmissing, -⟩ | ⟨hlimit, -⟩
  · have hok' : reconcileSessionSnapshots 1 beforeMove (init 1 []) = (.ok s, d') := hok
    rw [hrun] at hok'
    cases hok'
    exact h.again
  · cases hmissing
  · exact absurd hlimit (by decide)

/-! ### A window that is there twice -/

/-- A session with the windows `@9` and `@1`. -/
def twoWindows : Document :=
  (reconcileSessionSnapshots 1 [samplePane (ascii "@9") (ascii "%9"),
    samplePane (ascii "@1") (ascii "%1")] (init 1 [])).2

/-- The same with a second node for the window `@1`. -/
def twinWindow : Document :=
  (setNodeBackendId 7 (windowBackendPrefix ++ ascii "@1")
    (Document.appendNode 2 .subdocument (ascii "twin") .none twoWindows).2).2

theorem valid_twinWindow : Valid twinWindow := by
  have htwo := (reconcileSessionSnapshots_settled 1 [samplePane (ascii "@9") (ascii "%9"),
    samplePane (ascii "@1") (ascii "%1")] _ (valid_init 1 [])).1
  have htwin := (appendNode_sound 2 .subdocument (ascii "twin") .none _ htwo).1
  exact (setNodeBackendId_settled 7 (windowBackendPrefix ++ ascii "@1") _ htwin).1

/-- The first pass removes the window `@9`, which moves the twin to the front, so the second one adds
a pane below the twin. -/
theorem second_pass_changes : ¬ ∀ (d : Document) (p : Nat) (first : PaneSnapshot)
    (rest : List PaneSnapshot), Valid d →
    (∀ snapshot ∈ rest, snapshot.sessionId = first.sessionId) → ∀ s d',
    reconcileSessionSnapshots p (first :: rest) d = (.ok s, d') →
    ∀ y, (reconcileSessionSnapshots p (first :: rest) d').2.lookup y = d'.lookup y := by
  intro h
  have hrun : reconcileSessionSnapshots 1 [samplePane (ascii "@1") (ascii "%1")] twinWindow
      = (.ok 2, (reconcileSessionSnapshots 1 [samplePane (ascii "@1") (ascii "%1")] twinWindow).2) :=
    run_of_ok (by decide +kernel)
  have hsame := h twinWindow 1 (samplePane (ascii "@1") (ascii "%1")) [] valid_twinWindow
    (fun _ hmem => by cases hmem) 2 _ hrun 8
  have hnew := congrArg Option.isSome hsame
  exact absurd hnew (by decide +kernel)

end Muxly.Daemon
