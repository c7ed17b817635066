/-
# Muxly.Viewer.Selection -- the region under the mouse

The viewer keeps the regions of the last frame in a list and does not know the tree. A click selects
the region of the least area among those that contain the cell. The layout draws in layers, so
these are the regions of nodes that lie below each other, and the least one is the deepest.
-/
import Mathlib.Data.List.Induction
import Muxly.Core.Layers
import Muxly.Viewer.Acceptance

namespace Muxly.Viewer

open Muxly.Core Muxly.Daemon Muxly.Client Muxly.Data

/-! ## The session -/

/-- `RegionInfo`. -/
structure RegionInfo where
  nodeId : Nat
  kind : Bytes
  title : Bytes
  x : Nat
  y : Nat
  width : Nat
  height : Nat
  hasChildren : Bool
  isTty : Bool
  elided : Bool
  followTail : Bool
  scrollable : Bool
  scrollTop : Nat
  scrollMax : Nat
  deriving DecidableEq

/-- The fields of `ViewerSession` that a refresh and a click touch. -/
structure ViewerSession where
  regions : List RegionInfo
  selectedIndex : Nat
  sharedViewRootNodeId : Option Nat
  deriving DecidableEq

/-- The kinds for which `parseRegionInfo` sets `has_children`. -/
def branchKinds : List Bytes :=
  [ascii "document", ascii "subdocument", ascii "container", ascii "h_container",
    ascii "v_container"]

/-- `parseRegionInfo`. -/
def parseRegionInfo (region : ProjectionRegion) : RegionInfo where
  nodeId := region.nodeId
  kind := region.kind
  title := region.title
  x := region.x
  y := region.y
  width := region.width
  height := region.height
  hasChildren := decide (0 < region.kind.length) && decide (region.kind ∈ branchKinds)
  isTty := decide (region.kind = ascii "tty_leaf")
  elided := region.elided
  followTail := region.followTail
  scrollable := region.scrollable
  scrollTop := region.scrollTop
  scrollMax := region.scrollMax

/-- `refreshRegions`. -/
def ViewerSession.refreshRegions (self : ViewerSession) (frame : ProjectionFrame) : ViewerSession :=
  let regions := frame.regions.map parseRegionInfo
  { regions := regions
    selectedIndex :=
      if regions.length ≤ self.selectedIndex ∧ 0 < regions.length then regions.length - 1
      else self.selectedIndex
    sharedViewRootNodeId := frame.viewRootNodeId }

/-- `selectedRegion`. -/
def ViewerSession.selectedRegion (self : ViewerSession) : Option RegionInfo :=
  self.regions[self.selectedIndex]?

/-! ## The hit test -/

/-- `best_index` and `best_area`. -/
structure HitTest where
  bestIndex : Option Nat
  bestArea : Nat

/-- `std.math.maxInt(u32)`. -/
def maxArea : Nat := 2 ^ 32 - 1

def RegionInfo.rect (region : RegionInfo) : Rect :=
  ⟨region.x, region.y, region.width, region.height⟩

/-- One turn of the loop. All sums and products of `u16` are below `maxArea`. -/
def HitTest.turn (x y : Nat) (best : HitTest) (entry : RegionInfo × Nat) : HitTest :=
  let regionLeft := entry.1.x
  let regionTop := entry.1.y
  let regionRight := regionLeft + entry.1.width
  let regionBottom := regionTop + entry.1.height
  if (x ≥ regionLeft ∧ x < regionRight) ∧ y ≥ regionTop ∧ y < regionBottom then
    let area := entry.1.width * entry.1.height
    if area < best.bestArea then ⟨some entry.2, area⟩ else best
  else best

/-- The loop of `selectRegionByPosition`. -/
def hitTest (regions : List RegionInfo) (x y : Nat) : HitTest :=
  regions.zipIdx.foldl (HitTest.turn x y) ⟨none, maxArea⟩

/-- `selectRegionByPosition`. -/
def selectRegionByPosition (session : ViewerSession) (x y : Nat) : ViewerSession :=
  match (hitTest session.regions x y).bestIndex with
  | some index => { session with selectedIndex := index }
  | none => session

/-- No region that contains the cell is smaller than the best one so far. -/
structure HitTest.Least (x y : Nat) (regions : List RegionInfo) (best : HitTest) : Prop where
  bound : ∀ r ∈ regions, r.rect.Contains x y → best.bestArea ≤ r.rect.area
  hit : ∀ index, best.bestIndex = some index → ∃ r, regions[index]? = some r ∧
    r.rect.Contains x y ∧ r.rect.area = best.bestArea
  miss : best.bestIndex = none → best.bestArea = maxArea

theorem HitTest.Least.turn {x y : Nat} {regions : List RegionInfo} {best : HitTest}
    (h : best.Least x y regions) (region : RegionInfo) :
    (best.turn x y (region, regions.length)).Least x y (regions ++ [region]) := by
  have hold : ∀ index, best.bestIndex = some index → ∃ r, (regions ++ [region])[index]? = some r ∧
      r.rect.Contains x y ∧ r.rect.area = best.bestArea := by
    intro index hindex
    obtain ⟨r, hr, hcontains⟩ := h.hit index hindex
    have hlt := (List.getElem?_eq_some_iff.mp hr).1
    exact ⟨r, by rw [List.getElem?_append_left hlt, hr], hcontains⟩
  unfold HitTest.turn
  dsimp only
  split
  · rename_i hcell
    have hcontains : region.rect.Contains x y := ⟨hcell.1.1, hcell.1.2, hcell.2.1, hcell.2.2⟩
    split
    · -- The region is smaller than the best one: it is the best one now.
      rename_i hless
      refine ⟨fun r hr hxy => ?_, fun index hindex => ?_, nofun⟩
      · rcases List.mem_append.mp hr with hr | hr
        · exact hless.le.trans (h.bound r hr hxy)
        · rw [List.mem_singleton.mp hr]
          exact Nat.le_refl _
      · cases hindex
        exact ⟨region, List.getElem?_concat_length .., hcontains, rfl⟩
    · rename_i hnotless
      refine ⟨fun r hr hxy => ?_, hold, h.miss⟩
      rcases List.mem_append.mp hr with hr | hr
      · exact h.bound r hr hxy
      · rw [List.mem_singleton.mp hr]
        exact Nat.le_of_not_lt hnotless
  · rename_i hcell
    refine ⟨fun r hr hxy => ?_, hold, h.miss⟩
    rcases List.mem_append.mp hr with hr | hr
    · exact h.bound r hr hxy
    · rw [List.mem_singleton.mp hr] at hxy
      exact absurd ⟨⟨hxy.left, hxy.right⟩, hxy.top, hxy.bottom⟩ hcell

theorem least_hitTest (regions : List RegionInfo) (x y : Nat) :
    (hitTest regions x y).Least x y regions := by
  induction regions using List.reverseRecOn with
  | nil => exact ⟨nofun, nofun, fun _ => rfl⟩
  | append_singleton regions region ih =>
      unfold hitTest
      rw [List.zipIdx_append, List.foldl_append, List.zipIdx_singleton, Nat.zero_add]
      exact ih.turn region

/-! ## The deepest region -/

/-- The region contains the cell, and every other region that does is one of a node above. -/
structure Deepest (d : Document) (regions : List Region) (x y : Nat) (r : Region) : Prop where
  drawn : r ∈ regions
  contains : r.rect.Contains x y
  below : ∀ s ∈ regions, s.rect.Contains x y → s = r ∨ d.Below s.nodeId r.nodeId

/-- No two nodes are both the deepest. -/
theorem Deepest.unique {d : Document} (hv : d.Valid) {regions : List Region} {x y : Nat}
    {r s : Region} (hr : Deepest d regions x y r) (hs : Deepest d regions x y s) : s = r := by
  rcases hr.below s hs.drawn hs.contains with h | hsr
  · exact h
  · rcases hs.below r hr.drawn hr.contains with h | hrs
    · exact h.symm
    · exact absurd ((hsr.lt hv).trans (hrs.lt hv)) (Nat.lt_irrefl _)

/-- An area of `u16` extents is less than the one that the loop begins with. -/
theorem area_lt_maxArea {rect : Rect} (h : rect.Bounded) : rect.area < maxArea := by
  obtain ⟨hright, hbottom⟩ := h
  have hwidth : rect.width ≤ u16Limit - 1 := by omega
  have hheight : rect.height ≤ u16Limit - 1 := by omega
  have hlimit : (u16Limit - 1) * (u16Limit - 1) < maxArea := by decide
  exact (Nat.mul_le_mul hwidth hheight).trans_lt hlimit

/-- Among regions in layers, the least one that contains a cell is the deepest. -/
theorem deepest_of_least {d : Document} {regions : List Region} (hlayers : regions.Pairwise (Layered d))
    {x y index : Nat} {r : Region} (hr : regions[index]? = some r) (hcontains : r.rect.Contains x y)
    (hleast : ∀ s ∈ regions, s.rect.Contains x y → r.rect.area ≤ s.rect.area) :
    Deepest d regions x y r := by
  refine ⟨List.mem_of_getElem? hr, hcontains, fun s hs hxy => ?_⟩
  obtain ⟨i, hi, rfl⟩ := List.mem_iff_getElem.mp hs
  obtain ⟨hindex, rfl⟩ := List.getElem?_eq_some_iff.mp hr
  rcases Nat.lt_trichotomy i index with hlt | rfl | hgt
  · -- The other region is drawn first, so it is the one of a node above.
    rcases List.pairwise_iff_getElem.mp hlayers i index hi hindex hlt with hapart | ⟨-, hbelow⟩
    · exact absurd hcontains (hapart x y hxy)
    · exact .inr hbelow
  · exact .inl rfl
  · -- A region that is drawn later inside this one would be smaller.
    rcases List.pairwise_iff_getElem.mp hlayers index i hindex hi hgt with hapart | ⟨hinside, -⟩
    · exact absurd hxy (hapart x y hcontains)
    · exact absurd (hinside.area_lt) (Nat.not_lt.mpr (hleast _ hs hxy))

/-- The region that the viewer keeps of one that was laid out. -/
def shownRegion (r : Region) : RegionInfo := parseRegionInfo (.of r)

/-- For every valid document and viewport, a click on a session that shows the frame selects the one
deepest region that contains the cell. Where no region does, the session stays as it was. -/
theorem selectRegionByPosition_deepest {d : Document} (hv : d.Valid) {rootOverride : Option Nat}
    {request : ProjectionRequest} (hrows : request.rows < u16Limit) (hcols : request.cols < u16Limit)
    {p : Projection} (hwritten : writeProjectionForRoot d rootOverride request = .ok p)
    {frame : ProjectionFrame} (hread : readProjection (projectionText p) = some frame)
    {before session : ViewerSession}
    (hshown : session.regions = (before.refreshRegions frame).regions) (x y : Nat) :
    ((∃ r ∈ p.regions, r.rect.Contains x y) → ∃ r, Deepest d p.regions x y r ∧
      (∀ s, Deepest d p.regions x y s → s = r) ∧ ∃ index,
        selectRegionByPosition session x y = { session with selectedIndex := index } ∧
        (selectRegionByPosition session x y).selectedRegion = some (shownRegion r)) ∧
    ((∀ r ∈ p.regions, ¬ r.rect.Contains x y) → selectRegionByPosition session x y = session) := by
  have hframe : session.regions = p.regions.map shownRegion := by
    rw [hshown, ← (readProjection_eq_some.mp hread).2]
    exact List.map_map
  have hstacked := stacked_writeProjectionForRoot hv hrows hcols hwritten
  obtain ⟨hprows, hpcols, -, -⟩ := laidOut_writeProjectionForRoot hrows hcols hwritten
  have hbounded : ∀ r ∈ p.regions, r.rect.Bounded := fun r hr =>
    (hstacked.inside r hr).bounded ⟨by simpa using hpcols, by simpa using hprows⟩
  have hleast := least_hitTest session.regions x y
  have hbound : ∀ r ∈ p.regions, r.rect.Contains x y →
      (hitTest session.regions x y).bestArea ≤ r.rect.area := fun r hr hxy =>
    hleast.bound (shownRegion r) (hframe ▸ List.mem_map_of_mem hr) hxy
  cases hbest : (hitTest session.regions x y).bestIndex with
  | none =>
      -- Nothing is selected, so the area is the one that the loop begins with, and no region is as large.
      have hsame : selectRegionByPosition session x y = session := by
        rw [selectRegionByPosition, hbest]
      refine ⟨fun ⟨r, hr, hxy⟩ => ?_, fun _ => hsame⟩
      have harea := hbound r hr hxy
      rw [hleast.miss hbest] at harea
      exact absurd (area_lt_maxArea (hbounded r hr)) (Nat.not_lt.mpr harea)
  | some index =>
      have hselected : selectRegionByPosition session x y = { session with selectedIndex := index } := by
        rw [selectRegionByPosition, hbest]
      -- The region that is selected is a least one, and in layers a least one is the deepest.
      obtain ⟨info, hinfo, hxy, harea⟩ := hleast.hit index hbest
      rw [hframe, List.getElem?_map, Option.map_eq_some_iff] at hinfo
      obtain ⟨r, hr, rfl⟩ := hinfo
      have hdeepest : Deepest d p.regions x y r := by
        refine deepest_of_least hstacked.layered hr hxy fun s hs hsxy => ?_
        exact harea.trans_le (hbound s hs hsxy)
      refine ⟨fun _ => ⟨r, hdeepest, fun s hs => hdeepest.unique hv hs, index, hselected, ?_⟩,
        fun hnone => absurd hxy (hnone r hdeepest.drawn)⟩
      rw [hselected, ViewerSession.selectedRegion, hframe, List.getElem?_map, hr]
      rfl

/-- A click on the text of a document with one text leaf. -/
theorem selectRegionByPosition_deepest_leaf : ∃ p frame r, ∃ session : ViewerSession,
    writeProjectionForRoot (leafDocument (ascii "two")) none smallRequest = .ok p ∧
    readProjection (projectionText p) = some frame ∧ session.regions = p.regions.map shownRegion ∧
    Deepest (leafDocument (ascii "two")) p.regions 3 3 r ∧
    (selectRegionByPosition session 3 3).selectedRegion = some (shownRegion r) := by
  have hread : (((writeProjectionForRoot (leafDocument (ascii "two")) none
      smallRequest).toOption).any fun p => (readProjection (projectionText p)).isSome &&
        p.regions.any fun r => decide ((r.rect.x ≤ 3 ∧ 3 < r.rect.x + r.rect.width) ∧
          r.rect.y ≤ 3 ∧ 3 < r.rect.y + r.rect.height)) = true := by decide +kernel
  have hv := valid_leafDocument (ascii "two")
  generalize leafDocument (ascii "two") = d at *
  rcases hp : writeProjectionForRoot d none smallRequest with f | p
  · rw [hp] at hread
    cases hread
  · rw [hp] at hread
    obtain ⟨hframe, hcell⟩ := Bool.and_eq_true_iff.mp
      (show ((readProjection (projectionText p)).isSome && p.regions.any _) = true from hread)
    obtain ⟨frame, hframe⟩ := Option.isSome_iff_exists.mp hframe
    obtain ⟨r, hr, hcell⟩ := List.any_eq_true.mp hcell
    obtain ⟨⟨hleft, hright⟩, htop, hbottom⟩ := of_decide_eq_true hcell
    have hregions : (ViewerSession.refreshRegions ⟨[], 0, none⟩ frame).regions
        = p.regions.map shownRegion := by
      rw [← (readProjection_eq_some.mp hframe).2]
      exact List.map_map
    obtain ⟨hhit, -⟩ := @selectRegionByPosition_deepest d hv none smallRequest (by decide) (by decide)
      p hp frame hframe ⟨[], 0, none⟩ (ViewerSession.refreshRegions ⟨[], 0, none⟩ frame) rfl 3 3
    obtain ⟨s, hs, -, index, -, hselected⟩ := hhit ⟨r, hr, hleft, hright, htop, hbottom⟩
    exact ⟨p, frame, s, _, rfl, hframe, hregions, hs, hselected⟩

end Muxly.Viewer
