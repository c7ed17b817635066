/-
# Muxly.Core.Layers -- how the regions of a layout lie over each other

A node is drawn before the nodes below it, and siblings get rectangles with no cell in common. So
two regions of one layout have no cell in common either, or the later one lies inside the border of
the earlier one and is the region of a node below.
-/
import Muxly.Core.Placement
import Muxly.Core.Removals

namespace Muxly.Core

open Muxly.Control

/-! ## Cells -/

/-- The cell is one of the rectangle. -/
structure Rect.Contains (rect : Rect) (x y : Nat) : Prop where
  left : rect.x ≤ x
  right : x < rect.x + rect.width
  top : rect.y ≤ y
  bottom : y < rect.y + rect.height

/-- The rectangles have no cell in common. -/
def Rect.Apart (a b : Rect) : Prop := ∀ x y, a.Contains x y → ¬ b.Contains x y

/-- The rectangle lies inside the other one and touches no side of it. -/
structure Rect.InsideBorder (inner outer : Rect) : Prop where
  left : outer.x < inner.x
  right : inner.x + inner.width < outer.x + outer.width
  top : outer.y < inner.y
  bottom : inner.y + inner.height < outer.y + outer.height

/-- How many cells it has. -/
def Rect.area (rect : Rect) : Nat := rect.width * rect.height

theorem Rect.Within.refl (rect : Rect) : rect.Within rect :=
  ⟨Nat.le_refl _, Nat.le_refl _, Nat.le_refl _, Nat.le_refl _⟩

theorem Rect.Within.contains {inner outer : Rect} (h : inner.Within outer) {x y : Nat}
    (hxy : inner.Contains x y) : outer.Contains x y where
  left := h.left.trans hxy.left
  right := hxy.right.trans_le h.right
  top := h.top.trans hxy.top
  bottom := hxy.bottom.trans_le h.bottom

theorem Rect.Apart.mono {a b a' b' : Rect} (h : a.Apart b) (ha : a'.Within a) (hb : b'.Within b) :
    a'.Apart b' :=
  fun x y hxy hxy' => h x y (ha.contains hxy) (hb.contains hxy')

theorem Rect.Within.insideBorder {a b c : Rect} (hab : a.Within b) (hbc : b.InsideBorder c) :
    a.InsideBorder c where
  left := hbc.left.trans_le hab.left
  right := hab.right.trans_lt hbc.right
  top := hbc.top.trans_le hab.top
  bottom := hab.bottom.trans_lt hbc.bottom

theorem Rect.InsideBorder.area_lt {inner outer : Rect} (h : inner.InsideBorder outer) :
    inner.area < outer.area := by
  obtain ⟨hleft, hright, htop, hbottom⟩ := h
  have hwidth : inner.width < outer.width := by omega
  have hheight : inner.height < outer.height := by omega
  exact Nat.mul_lt_mul'' hwidth hheight

theorem innerExtent_ne_zero {n : Nat} (h : innerExtent n ≠ 0) :
    2 < n ∧ innerExtent n = n - 2 := by
  unfold innerExtent at h ⊢
  split at h
  · rename_i hlt
    exact ⟨hlt, if_pos hlt⟩
  · exact absurd rfl h

/-- An inset that is not empty touches no side. -/
theorem insideBorder_of_insetRect {rect inner : Rect} (h : insetRect rect = .ok inner)
    (hwidth : inner.width ≠ 0) (hheight : inner.height ≠ 0) : inner.InsideBorder rect := by
  obtain ⟨x, hx, h⟩ := bind_eq_ok.mp h
  obtain ⟨y, hy, h⟩ := bind_eq_ok.mp h
  cases h
  obtain ⟨hwide, hinner⟩ := innerExtent_ne_zero hwidth
  obtain ⟨hhigh, hinner'⟩ := innerExtent_ne_zero hheight
  have hstep : x = rect.x + 1 ∧ y = rect.y + 1 := by
    unfold addU16 at hx hy
    rw [if_pos (by omega : rect.width > 0)] at hx
    rw [if_pos (by omega : rect.height > 0)] at hy
    split at hx
    · split at hy
      · cases hx
        cases hy
        exact ⟨rfl, rfl⟩
      · cases hy
    · cases hx
  constructor <;> dsimp only <;> omega

/-- Rectangles that follow each other along an axis have no cell in common. -/
theorem apart_of_ordered {horizontal : Bool} {a b : Rect}
    (h : a.start horizontal + a.extent horizontal ≤ b.start horizontal) : a.Apart b := by
  intro x y ha hb
  unfold Rect.start Rect.extent at h
  obtain ⟨haleft, haright, hatop, habottom⟩ := ha
  obtain ⟨hbleft, hbright, hbtop, hbbottom⟩ := hb
  split at h
  · omega
  · omega

/-! ## Layers -/

namespace Document

/-- `y` lies below `x`. -/
def Below (d : Document) (x y : Nat) : Prop :=
  Relation.TransGen (fun p c => c ∈ d.childrenOf p) x y

theorem Below.lt {d : Document} (hv : d.Valid) {x y : Nat} (h : d.Below x y) : x < y := by
  have hchild : ∀ {p c : Nat}, c ∈ d.childrenOf p → p < c := by
    intro p c hc
    obtain ⟨n, hn, hc⟩ := mem_childrenOf.mp hc
    exact lt_child hv hn hc
  induction h with
  | single hc => exact hchild hc
  | tail _ hc ih => exact ih.trans (hchild hc)

end Document

/-- The second region is drawn beside the first one, or inside its border for a node below. -/
def Layered (d : Document) (r s : Region) : Prop :=
  r.rect.Apart s.rect ∨ s.rect.InsideBorder r.rect ∧ d.Below r.nodeId s.nodeId

/-- What the layout of a node in a rectangle draws. -/
structure Stacked (d : Document) (x : Nat) (rect : Rect) (regions : List Region) : Prop where
  inside : ∀ r ∈ regions, r.rect.Within rect
  descends : ∀ r ∈ regions, d.Descends x r.nodeId
  layered : regions.Pairwise (Layered d)

section Layout

variable {d : Document} {node : Node} {space : Rect}
  {project : Nat → Rect → Except Failure (List Region)}

/-- Rectangles with no cell in common are drawn beside each other. -/
theorem layered_projectEach {rects : List (Nat × Rect)}
    (heach : ∀ p ∈ rects, ∀ regions, project p.1 p.2 = .ok regions → Stacked d p.1 p.2 regions)
    (hapart : rects.Pairwise fun p q => p.2.Apart q.2) {before regions : List Region}
    (hbefore : before.Pairwise (Layered d))
    (hbeside : ∀ r ∈ before, ∀ p ∈ rects, r.rect.Apart p.2)
    (h : projectEach project before rects = .ok regions) :
    regions.Pairwise (Layered d) ∧ ∀ r ∈ regions, r ∈ before ∨
      ∃ p ∈ rects, r.rect.Within p.2 ∧ d.Descends p.1 r.nodeId := by
  induction rects generalizing before with
  | nil =>
      cases h
      exact ⟨hbefore, fun r hr => .inl hr⟩
  | cons p rest ih =>
      rw [projectEach, List.foldlM_cons] at h
      obtain ⟨after, hturn, h⟩ := bind_eq_ok.mp h
      obtain ⟨more, hmore, hturn⟩ := bind_eq_ok.mp hturn
      cases hturn
      have hstacked := heach p (List.mem_cons_self ..) more hmore
      obtain ⟨hfirst, hrest⟩ := List.pairwise_cons.mp hapart
      have hafter : (before ++ more).Pairwise (Layered d) := by
        refine List.pairwise_append.mpr ⟨hbefore, hstacked.layered, fun r hr s hs => .inl ?_⟩
        have happ := hbeside r hr p (List.mem_cons_self ..)
        exact happ.mono (.refl _) (hstacked.inside s hs)
      have hbeside' : ∀ r ∈ before ++ more, ∀ q ∈ rest, r.rect.Apart q.2 := by
        intro r hr q hq
        rcases List.mem_append.mp hr with hr | hr
        · exact hbeside r hr q (List.mem_cons_of_mem _ hq)
        · exact (hfirst q hq).mono (hstacked.inside r hr) (.refl _)
      obtain ⟨hall, hmem⟩ := ih (fun q hq => heach q (List.mem_cons_of_mem _ hq)) hrest hafter
        hbeside' h
      refine ⟨hall, fun r hr => ?_⟩
      rcases hmem r hr with hr | ⟨q, hq, hr⟩
      · rcases List.mem_append.mp hr with hr | hr
        · exact .inl hr
        · exact .inr ⟨p, List.mem_cons_self .., hstacked.inside r hr, hstacked.descends r hr⟩
      · exact .inr ⟨q, List.mem_cons_of_mem _ hq, hr⟩

theorem castU16_lt {n m : Nat} (h : castU16 n = .ok m) : n < u16Limit := by
  unfold castU16 at h
  split at h
  · assumption
  · cases h

/-- A layout that succeeds has counted the children in `u16`. -/
theorem length_lt_of_writeChildren (hlive : ∀ c ∈ node.children, ∃ n, d.lookup c = some n)
    (hb : space.Bounded) {regions : List Region}
    (h : writeChildren d project node space = .ok regions) : node.children.length < u16Limit := by
  have hcast : ∀ {f : Nat → Except Failure (List Region)},
      (castU16 node.children.length >>= f) = .ok regions → node.children.length < u16Limit := by
    intro f h
    obtain ⟨count, hcount, -⟩ := bind_eq_ok.mp h
    exact castU16_lt hcount
  by_cases hnil : node.children = []
  · rw [hnil]
    decide
  · unfold writeChildren at h
    split at h
    · rw [writeHorizontalChildren, if_neg hnil] at h
      exact hcast h
    · rw [writeVerticalChildren, if_neg hnil, measureVertical_eq space hlive, ok_bind] at h
      dsimp only at h
      by_cases hcrowded : Crowded d node space
      · have hcond := hcrowded
        unfold Crowded at hcond
        obtain ⟨-, hbottom⟩ := hb
        rw [if_pos (by omega)] at h
        exact hcast h
      · -- Every child has a row of its own, so there are fewer than rows.
        obtain ⟨hchrome, hle⟩ := chrome_le hcrowded
        have hcount : node.children.length
            = chromeCount d node.children + flexibleCount d node.children := by
          have hsplit := List.length_eq_countP_add_countP
            (fun c => (chromeSize d c).isSome) (l := node.children)
          unfold chromeCount flexibleCount
          rw [hsplit]
          refine congrArg _ (List.countP_congr fun c _ => ?_)
          cases chromeSize d c <;> simp
        unfold Crowded at hcrowded
        obtain ⟨-, hbottom⟩ := hb
        omega

/-- A layout that succeeds lays out the rectangles of the children. -/
theorem writeChildren_of_ok (hlive : ∀ c ∈ node.children, ∃ n, d.lookup c = some n)
    (hb : space.Bounded) {regions : List Region}
    (h : writeChildren d project node space = .ok regions) :
    projectEach project [] (childRects d node space) = .ok regions := by
  have hcount := length_lt_of_writeChildren hlive hb h
  rw [← h]
  unfold writeChildren childRects
  split
  · exact (writeHorizontalChildren_eq project hcount hb.1).symm
  · exact (writeVerticalChildren_eq project hlive hcount hb.2).symm

/-- The region of the node itself. -/
theorem stacked_ownRegion (localState : LocalState) {x : Nat} (hid : node.id = x) (rect : Rect) :
    Stacked d x rect (ownRegion d localState x node rect) := by
  unfold ownRegion
  split
  · refine ⟨fun r hr => ?_, fun r hr => ?_, List.pairwise_singleton _ _⟩
    · rw [List.mem_singleton.mp hr]
      exact .refl rect
    · rw [List.mem_singleton.mp hr]
      show d.Descends x node.id
      rw [hid]
      exact .refl
  · exact ⟨nofun, nofun, List.Pairwise.nil⟩

/-- A layout that succeeds draws the nodes below in layers. -/
theorem stacked_writeProjectedNode (hv : d.Valid) (localState : LocalState) (fuel : Nat) {x : Nat}
    {rect : Rect} (hb : rect.Bounded) {regions : List Region}
    (h : writeProjectedNode d localState fuel x rect = .ok regions) : Stacked d x rect regions := by
  induction fuel generalizing x rect regions with
  | zero => cases h
  | succ fuel ih =>
      obtain ⟨node, hnode⟩ : ∃ node, d.lookup x = some node := by
        rw [writeProjectedNode] at h
        obtain ⟨node, hnode, -⟩ := bind_eq_ok.mp h
        exact ⟨node, Document.nodeOr_eq_ok.mp hnode⟩
      have hown := stacked_ownRegion (d := d) localState (hv.shape.id_eq hnode) rect
      by_cases hopen : opens d x node = true
      · obtain ⟨space, hspace, hinside⟩ := childSpace_within x node hb
        rw [writeProjectedNode_open hnode hopen hspace] at h
        split at h
        · cases h
          exact hown
        · rename_i hnonempty
          push Not at hnonempty
          obtain ⟨children, hchildren, h⟩ := bind_eq_ok.mp h
          cases h
          have hlive := live_children hv hnode
          have hspaceBounded := hinside.bounded hb
          have hsplit : Split d node space (childRects d node space) :=
            split_childRects hlive (of_decide_eq_true hopen).2.2
          obtain ⟨hlayers, hmem⟩ := layered_projectEach
            (fun p hp more hmore => ih ((hsplit.inside p hp).bounded hspaceBounded) hmore)
            (hsplit.ordered.imp apart_of_ordered) List.Pairwise.nil
            (fun r hr => absurd hr List.not_mem_nil)
            (writeChildren_of_ok hlive hspaceBounded hchildren)
          -- What is drawn for a child lies in the space of the children, below the node.
          have hbelow : ∀ r ∈ children, r.rect.Within space ∧ d.Below x r.nodeId := by
            intro r hr
            rcases hmem r hr with hr | ⟨p, hp, hwithin, hdescends⟩
            · cases hr
            · have hname : p.1 ∈ node.children :=
                hsplit.children ▸ List.mem_map_of_mem (f := Prod.fst) hp
              have hstep : p.1 ∈ d.childrenOf x := Document.mem_childrenOf.mpr ⟨node, hnode, hname⟩
              exact ⟨hwithin.trans (hsplit.inside p hp), .head' hstep hdescends⟩
          refine ⟨fun r hr => ?_, fun r hr => ?_, List.pairwise_append.mpr
            ⟨hown.layered, hlayers, fun r hr s hs => .inr ?_⟩⟩
          · rcases List.mem_append.mp hr with hr | hr
            · exact hown.inside r hr
            · exact (hbelow r hr).1.trans hinside
          · rcases List.mem_append.mp hr with hr | hr
            · exact hown.descends r hr
            · exact (hbelow r hr).2.to_reflTransGen
          · -- The node is drawn, so its children have the inset of its rectangle.
            obtain ⟨hwithin, hbelow⟩ := hbelow s hs
            unfold ownRegion at hr
            split at hr
            · rename_i hemit
              rw [childSpace, if_pos hemit] at hspace
              rw [List.mem_singleton.mp hr]
              refine ⟨hwithin.insideBorder
                (insideBorder_of_insetRect hspace hnonempty.1 hnonempty.2), ?_⟩
              show d.Below node.id s.nodeId
              rw [hv.shape.id_eq hnode]
              exact hbelow
            · cases hr
      · rw [writeProjectedNode_closed hnode hopen] at h
        cases h
        exact hown

end Layout

/-- The regions of a projection lie on its canvas, one over the other or side by side. -/
theorem stacked_writeProjectionForRoot {d : Document} (hv : d.Valid) {rootOverride : Option Nat}
    {request : ProjectionRequest} (hrows : request.rows < u16Limit) (hcols : request.cols < u16Limit)
    {p : Projection} (h : writeProjectionForRoot d rootOverride request = .ok p) :
    Stacked d p.rootNodeId ⟨0, 0, p.cols, p.rows⟩ p.regions := by
  unfold writeProjectionForRoot at h
  obtain ⟨regions, hregions, h⟩ := bind_eq_ok.mp h
  cases h
  exact stacked_writeProjectedNode hv _ _ (bounded_canvas hrows hcols) hregions

end Muxly.Core
