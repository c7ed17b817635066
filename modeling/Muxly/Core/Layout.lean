/-
# Muxly.Core.Layout -- what the layout lays out

Every region is that of a live node, in a rectangle with coordinates in `u16`. The lines that it
shows are a window of the lines of its text, each clipped to the width inside the rectangle.
-/
import Mathlib.Init
import Muxly.Core.Projection
import Muxly.Core.Shape

namespace Muxly.Core

open Muxly.Control

/-! ## Rectangles -/

/-- The rectangle has coordinates in `u16`. -/
structure Rect.Fits (rect : Rect) : Prop where
  x : rect.x < u16Limit
  y : rect.y < u16Limit
  width : rect.width < u16Limit
  height : rect.height < u16Limit

theorem addU16_lt {a b n : Nat} (h : addU16 a b = .ok n) : n < u16Limit := by
  unfold addU16 at h
  split at h
  · cases h
    assumption
  · cases h

theorem innerExtent_le (n : Nat) : innerExtent n ≤ n := by
  unfold innerExtent
  split <;> omega

theorem fits_insetRect {rect inner : Rect} (hrect : rect.Fits) (h : insetRect rect = .ok inner) :
    inner.Fits := by
  obtain ⟨x, hx, h⟩ := bind_eq_ok.mp h
  obtain ⟨y, hy, h⟩ := bind_eq_ok.mp h
  cases h
  exact ⟨addU16_lt hx, addU16_lt hy, (innerExtent_le _).trans_lt hrect.width,
    (innerExtent_le _).trans_lt hrect.height⟩

theorem takeShare_lt {base remainder : Nat} {share : Nat × Nat} (hbase : base < u16Limit)
    (h : takeShare base remainder = .ok share) : share.1 < u16Limit := by
  unfold takeShare at h
  split at h
  · obtain ⟨n, hn, h⟩ := bind_eq_ok.mp h
    cases h
    exact addU16_lt hn
  · cases h
    exact hbase

/-! ## Loops -/

/-- What every turn of a loop keeps holds at its end. -/
theorem foldlM_invariant {σ α ε : Type} {f : σ → α → Except ε σ} (I : σ → Prop) {xs : List α}
    (hstep : ∀ s x s', I s → f s x = .ok s' → I s') {s s' : σ} (hs : I s)
    (h : xs.foldlM f s = .ok s') : I s' := by
  induction xs generalizing s with
  | nil =>
      cases h
      exact hs
  | cons x rest ih =>
      rw [List.foldlM_cons] at h
      obtain ⟨t, hturn, hrest⟩ := bind_eq_ok.mp h
      exact ih (hstep s x t hs hturn) hrest

section Children

variable {d : Document} {project : Nat → Rect → Except Failure (List Region)} {Good : Region → Prop}

/-- What the layout of one child gives. -/
def LaysOut (Good : Region → Prop) (project : Nat → Rect → Except Failure (List Region)) : Prop :=
  ∀ x rect regions, rect.Fits → project x rect = .ok regions → ∀ r ∈ regions, Good r

/-- Between two turns of a layout loop. -/
structure LayoutCursor.Keeps (Good : Region → Prop) (s : LayoutCursor) : Prop where
  position : s.position < u16Limit
  regions : ∀ r ∈ s.regions, Good r

theorem LayoutCursor.keeps_start {position remainder : Nat} (h : position < u16Limit) :
    LayoutCursor.Keeps Good ⟨position, remainder, []⟩ where
  position := h
  regions _ hr := by cases hr

theorem LayoutCursor.Keeps.append {s : LayoutCursor} (hs : s.Keeps Good) {regions : List Region}
    (h : ∀ r ∈ regions, Good r) {size remainder : Nat} :
    LayoutCursor.Keeps Good ⟨(s.position + size) % u16Limit, remainder, s.regions ++ regions⟩ where
  position := Nat.mod_lt _ (by decide)
  regions r hr := (List.mem_append.mp hr).elim (hs.regions r) (h r)

theorem good_horizontal (hproject : LaysOut Good project) {node : Node} {rect : Rect}
    (hrect : rect.Fits) {regions : List Region}
    (h : writeHorizontalChildren project node rect = .ok regions) : ∀ r ∈ regions, Good r := by
  unfold writeHorizontalChildren at h
  split at h
  · cases h
    nofun
  · obtain ⟨childCount, -, h⟩ := bind_eq_ok.mp h
    obtain ⟨done, hloop, h⟩ := bind_eq_ok.mp h
    cases h
    refine (foldlM_invariant (LayoutCursor.Keeps Good) ?_ (LayoutCursor.keeps_start hrect.x) hloop).regions
    intro s x s' hs hturn
    obtain ⟨⟨width, remainder⟩, hshare, hturn⟩ := bind_eq_ok.mp hturn
    obtain ⟨more, hmore, hturn⟩ := bind_eq_ok.mp hturn
    cases hturn
    have hwidth := takeShare_lt ((Nat.div_le_self _ _).trans_lt hrect.width) hshare
    have hfits : Rect.Fits ⟨s.position, rect.y, width, rect.height⟩ :=
      ⟨hs.position, hrect.y, hwidth, hrect.height⟩
    exact hs.append (hproject x _ more hfits hmore)

theorem good_even (hproject : LaysOut Good project) {node : Node} {rect : Rect}
    (hrect : rect.Fits) {regions : List Region}
    (h : writeEvenVerticalChildren project node rect = .ok regions) : ∀ r ∈ regions, Good r := by
  unfold writeEvenVerticalChildren at h
  obtain ⟨childCount, -, h⟩ := bind_eq_ok.mp h
  obtain ⟨done, hloop, h⟩ := bind_eq_ok.mp h
  cases h
  refine (foldlM_invariant (LayoutCursor.Keeps Good) ?_ (LayoutCursor.keeps_start hrect.y) hloop).regions
  intro s x s' hs hturn
  obtain ⟨⟨height, remainder⟩, hshare, hturn⟩ := bind_eq_ok.mp hturn
  obtain ⟨more, hmore, hturn⟩ := bind_eq_ok.mp hturn
  cases hturn
  have hheight := takeShare_lt ((Nat.div_le_self _ _).trans_lt hrect.height) hshare
  have hfits : Rect.Fits ⟨rect.x, s.position, rect.width, height⟩ :=
    ⟨hrect.x, hs.position, hrect.width, hheight⟩
  exact hs.append (hproject x _ more hfits hmore)

theorem good_vertical (hproject : LaysOut Good project) {node : Node} {rect : Rect}
    (hrect : rect.Fits) {regions : List Region}
    (h : writeVerticalChildren d project node rect = .ok regions) : ∀ r ∈ regions, Good r := by
  unfold writeVerticalChildren at h
  split at h
  · cases h
    nofun
  · obtain ⟨⟨fixedTotal, flexibleCount⟩, -, h⟩ := bind_eq_ok.mp h
    simp only at h
    split at h
    · exact good_even hproject hrect h
    · obtain ⟨divisor, -, h⟩ := bind_eq_ok.mp h
      obtain ⟨done, hloop, h⟩ := bind_eq_ok.mp h
      cases h
      refine (foldlM_invariant (LayoutCursor.Keeps Good) ?_ (LayoutCursor.keeps_start hrect.y) hloop).regions
      intro s x s' hs hturn
      obtain ⟨child, -, hturn⟩ := bind_eq_ok.mp hturn
      have hfits : ∀ {height : Nat}, height < u16Limit →
          Rect.Fits ⟨rect.x, s.position, rect.width, height⟩ :=
        fun h => ⟨hrect.x, hs.position, hrect.width, h⟩
      split at hturn
      · obtain ⟨_, hshare, hturn⟩ := bind_eq_ok.mp hturn
        cases hshare
        obtain ⟨more, hmore, hturn⟩ := bind_eq_ok.mp hturn
        cases hturn
        exact hs.append (hproject x _ more (hfits (show 3 < u16Limit by decide)) hmore)
      · obtain ⟨⟨height, remainder⟩, hshare, hturn⟩ := bind_eq_ok.mp hturn
        obtain ⟨more, hmore, hturn⟩ := bind_eq_ok.mp hturn
        cases hturn
        have hle : (rect.height - fixedTotal) / divisor ≤ rect.height :=
          (Nat.div_le_self _ _).trans (Nat.sub_le _ _)
        have hheight := takeShare_lt (hle.trans_lt hrect.height) hshare
        exact hs.append (hproject x _ more (hfits hheight) hmore)

end Children

/-! ## Regions -/

/-- The region of a live node in a rectangle that fits. -/
structure Region.LaidOut (d : Document) (localState : LocalState) (r : Region) : Prop where
  fits : r.rect.Fits
  node : ∃ x node, d.lookup x = some node ∧
    r = regionOf node r.rect localState (decide (x ∈ d.elidedNodeIds))

theorem laidOut_writeProjectedNode (d : Document) (localState : LocalState) (fuel : Nat) :
    LaysOut (Region.LaidOut d localState) (writeProjectedNode d localState fuel) := by
  induction fuel with
  | zero =>
      intro x rect regions hrect h
      cases h
  | succ fuel ih =>
      intro x rect regions hrect h
      unfold writeProjectedNode at h
      obtain ⟨node, hnode, h⟩ := bind_eq_ok.mp h
      have hown : ∀ r ∈ (if shouldEmitRegion node (decide (x ∈ d.elidedNodeIds)) = true then
          [regionOf node rect localState (decide (x ∈ d.elidedNodeIds))] else []),
          r.LaidOut d localState := by
        intro r hr
        split at hr
        · rw [List.mem_singleton.mp hr]
          exact ⟨hrect, x, node, Document.nodeOr_eq_ok.mp hnode, rfl⟩
        · cases hr
      simp only at h
      generalize (if shouldEmitRegion node (decide (x ∈ d.elidedNodeIds)) = true then
        [regionOf node rect localState (decide (x ∈ d.elidedNodeIds))] else []) = own at h hown
      split at h
      · cases h
        exact hown
      · -- What is left once the rectangle of the children is known.
        have hrest : ∀ {childRect : Rect}, childRect.Fits →
            (if childRect.width = 0 ∨ childRect.height = 0 then (pure own : Except Failure _)
            else if node.kind = .hContainer then do
              let children ←
                writeHorizontalChildren (writeProjectedNode d localState fuel) node childRect
              pure (own ++ children)
            else do
              let children ←
                writeVerticalChildren d (writeProjectedNode d localState fuel) node childRect
              pure (own ++ children)) = .ok regions → ∀ r ∈ regions, r.LaidOut d localState := by
          intro childRect hinner hrun r hr
          split at hrun
          · cases hrun
            exact hown r hr
          · split at hrun
            · obtain ⟨children, hchildren, hrun⟩ := bind_eq_ok.mp hrun
              cases hrun
              exact (List.mem_append.mp hr).elim (hown r) (good_horizontal ih hinner hchildren r)
            · obtain ⟨children, hchildren, hrun⟩ := bind_eq_ok.mp hrun
              cases hrun
              exact (List.mem_append.mp hr).elim (hown r) (good_vertical ih hinner hchildren r)
        split at h
        · obtain ⟨childRect, hinset, h⟩ := bind_eq_ok.mp h
          exact hrest (fits_insetRect hrect hinset) h
        · exact hrest hrect h

theorem clampDimension_lt {n least : Nat} (hn : n < u16Limit) (hleast : least < u16Limit) :
    clampDimension n least < u16Limit := by
  unfold clampDimension
  split
  · exact hleast
  · exact hn

/-- Every region of a projection is that of a live node in a rectangle that fits. -/
theorem laidOut_writeProjectionForRoot {d : Document} {rootOverride : Option Nat}
    {request : ProjectionRequest} (hrows : request.rows < u16Limit) (hcols : request.cols < u16Limit)
    {p : Projection} (h : writeProjectionForRoot d rootOverride request = .ok p) :
    p.rows < u16Limit ∧ p.cols < u16Limit ∧ p.viewRootNodeId = rootOverride.or d.viewRootNodeId ∧
      ∀ r ∈ p.regions, r.LaidOut d request.localState := by
  have hrows' : clampDimension request.rows 8 < u16Limit := clampDimension_lt hrows (by decide)
  have hcols' : clampDimension request.cols 24 < u16Limit := clampDimension_lt hcols (by decide)
  unfold writeProjectionForRoot at h
  obtain ⟨regions, hregions, h⟩ := bind_eq_ok.mp h
  cases h
  have hzero : 0 < u16Limit := by decide
  exact ⟨hrows', hcols', rfl, laidOut_writeProjectedNode d _ _ _ _ regions
    ⟨hzero, hzero, hcols', hrows'⟩ hregions⟩

/-! ## Lines -/

/-- The lines that a region shows, before they are clipped. -/
def windowLines (node : Node) (rect : Rect) (localState : LocalState) (elided : Bool) :
    List Bytes :=
  let view := buildContentView node rect localState elided
  if innerExtent rect.width = 0 ∨ innerExtent rect.height = 0 then []
  else ((renderableLines (deriveRenderableText node elided)).drop view.scrollTop).take
    (innerExtent rect.height)

/-- How far a region can be scrolled. -/
def scrollRange (node : Node) (rect : Rect) (elided : Bool) : Nat :=
  if innerExtent rect.width = 0 ∨ innerExtent rect.height = 0 then 0
  else (renderableLines (deriveRenderableText node elided)).length - innerExtent rect.height

theorem renderableLines_nil : renderableLines [] = [] := by decide

theorem buildContentView_lines (node : Node) (rect : Rect) (localState : LocalState)
    (elided : Bool) :
    (buildContentView node rect localState elided).visibleLines
      = (windowLines node rect localState elided).map (clipLine · (innerExtent rect.width)) := by
  unfold windowLines
  simp only
  by_cases hinner : innerExtent rect.width = 0 ∨ innerExtent rect.height = 0
  · rw [if_pos hinner, buildContentView, if_pos (by tauto)]
    rfl
  · rw [if_neg hinner]
    by_cases hlines : renderableLines (deriveRenderableText node elided) = []
    · rw [buildContentView, if_pos (by tauto), hlines, List.drop_nil, List.take_nil]
      rfl
    · have htext : deriveRenderableText node elided ≠ [] := by
        intro h
        rw [h, renderableLines_nil] at hlines
        exact hlines rfl
      rw [buildContentView, if_neg (by tauto)]

theorem buildContentView_scroll (node : Node) (rect : Rect) (localState : LocalState)
    (elided : Bool) :
    (buildContentView node rect localState elided).scrollMax = scrollRange node rect elided ∧
      (buildContentView node rect localState elided).scrollTop ≤ scrollRange node rect elided := by
  unfold scrollRange
  by_cases hinner : innerExtent rect.width = 0 ∨ innerExtent rect.height = 0
  · rw [if_pos hinner, buildContentView, if_pos (by tauto)]
    exact ⟨rfl, Nat.le_refl 0⟩
  · rw [if_neg hinner]
    by_cases hlines : renderableLines (deriveRenderableText node elided) = []
    · rw [buildContentView, if_pos (by tauto), hlines]
      exact ⟨(Nat.zero_sub _).symm, Nat.zero_le _⟩
    · have htext : deriveRenderableText node elided ≠ [] := by
        intro h
        rw [h, renderableLines_nil] at hlines
        exact hlines rfl
      rw [buildContentView, if_neg (by tauto)]
      exact ⟨rfl, Nat.min_le_right _ _⟩

end Muxly.Core
