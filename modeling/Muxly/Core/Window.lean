/-
# Muxly.Core.Window -- the window that a region shows of its text

`buildContentView` splits the text of a node into lines, drops the blank lines at its end, and shows
as many of the others as fit, from the scroll offset on, each cut to the width of the region.
-/
import Muxly.Core.Layout

namespace Muxly.Core

/-! ## Lines -/

/-- `lines` are those of a text, without the blank ones at its end. -/
structure TextLines (text : Bytes) (lines : List Bytes) : Prop where
  split : ∃ blanks, (text.splitOn newline).map trimTrailingCarriageReturn = lines ++ blanks ∧
    ∀ line ∈ blanks, isBlankLine line = true
  last : ∀ line, lines.getLast? = some line → isBlankLine line = false

theorem textLines_renderableLines (text : Bytes) : TextLines text (renderableLines text) := by
  unfold renderableLines
  generalize hraw : (text.splitOn newline).map trimTrailingCarriageReturn = raw
  constructor
  · refine ⟨(raw.reverse.takeWhile isBlankLine).reverse, ?_, fun line hline => ?_⟩
    · rw [hraw, ← List.reverse_append, List.takeWhile_append_dropWhile, List.reverse_reverse]
    · exact List.all_eq_true.mp List.all_takeWhile line (List.mem_reverse.mp hline)
  · intro line hlast
    rw [List.getLast?_reverse] at hlast
    have hhead := List.head?_dropWhile_not isBlankLine raw.reverse
    rw [hlast] at hhead
    simpa using hhead

/-- `out` is what a region of that width shows of a line: all of it when it fits; otherwise its
beginning, which ends in a dollar sign when there is room for one more byte. -/
structure Clipped (width : Nat) (line out : Bytes) : Prop where
  length : out.length ≤ width
  whole : line.length ≤ width → out = line
  marked : width < line.length → 2 ≤ width → out = line.take (width - 1) ++ [36]
  cut : width < line.length → width < 2 → out = line.take width

theorem clipped_clipLine (line : Bytes) (width : Nat) : Clipped width line (clipLine line width) := by
  unfold clipLine
  by_cases hfits : line.length ≤ width
  · rw [if_pos hfits]
    exact ⟨hfits, fun _ => rfl, fun h => by omega, fun h => by omega⟩
  · rw [if_neg hfits]
    by_cases hnarrow : width ≤ 1
    · rw [if_pos hnarrow]
      refine ⟨?_, fun h => by omega, fun _ h => by omega, fun _ _ => rfl⟩
      rw [List.length_take]
      omega
    · rw [if_neg hnarrow]
      refine ⟨?_, fun h => by omega, fun _ _ => rfl, fun _ h => by omega⟩
      have hmark : (ascii "$").length = 1 := rfl
      rw [List.length_append, List.length_take, hmark]
      omega

/-! ## Windows -/

/-- The offset that a viewer asks for: its own, or the last page for a node that follows its tail. -/
def wantedOffset (node : Node) (localState : LocalState) (scrollMax : Nat) : Nat :=
  match localState.scrollTop node.id with
  | some offset => offset
  | none => if node.followTail then scrollMax else 0

/-- `view` is the window of the given height and width on `lines`. -/
structure WindowOn (node : Node) (localState : LocalState) (width height : Nat) (lines : List Bytes)
    (view : ContentView) : Prop where
  scrollMax : view.scrollMax = lines.length - height
  scrollTop : view.scrollTop
    = min (wantedOffset node localState view.scrollMax) view.scrollMax
  visible : List.Forall₂ (Clipped width)
    ((lines.take (min lines.length (view.scrollTop + height))).drop view.scrollTop) view.visibleLines

theorem wantedOffset_eq (node : Node) (localState : LocalState) (scrollMax : Nat) :
    min ((localState.scrollTop node.id).getD
      (if node.followTail && scrollMax ≠ 0 then scrollMax else 0)) scrollMax
      = min (wantedOffset node localState scrollMax) scrollMax := by
  unfold wantedOffset
  cases localState.scrollTop node.id with
  | some offset => rfl
  | none =>
      by_cases hzero : scrollMax = 0
      · rw [hzero, Nat.min_zero, Nat.min_zero]
      · simp [hzero]

/-- A region without room shows nothing. Any other shows the lines of its text from the scroll
offset on, as many as fit, each clipped to its width. -/
theorem content_window (node : Node) (rect : Rect) (localState : LocalState) (elided : Bool) :
    let view := buildContentView node rect localState elided
    let width := innerExtent rect.width
    let height := innerExtent rect.height
    (width = 0 ∨ height = 0 → view = ⟨[], 0, 0⟩) ∧
    (width ≠ 0 → height ≠ 0 → ∃ lines, TextLines (deriveRenderableText node elided) lines ∧
      WindowOn node localState width height lines view) := by
  intro view width height
  constructor
  · intro hroom
    show buildContentView node rect localState elided = _
    rw [buildContentView, if_pos (by tauto)]
  · intro hwidth hheight
    refine ⟨_, textLines_renderableLines _, ?_⟩
    by_cases hlines : renderableLines (deriveRenderableText node elided) = []
    · have hview : view = ⟨[], 0, 0⟩ := by
        show buildContentView node rect localState elided = _
        rw [buildContentView, if_pos (by tauto)]
      rw [hview, hlines]
      exact ⟨by simp, by simp, by simp⟩
    · have htext : deriveRenderableText node elided ≠ [] := by
        intro h
        rw [h, renderableLines_nil] at hlines
        exact hlines rfl
      have hview : view = buildContentView node rect localState elided := rfl
      rw [buildContentView, if_neg (by tauto)] at hview
      rw [hview]
      refine ⟨rfl, wantedOffset_eq node localState _, ?_⟩
      rw [List.forall₂_map_right_iff]
      generalize renderableLines (deriveRenderableText node elided) = lines
      -- The window of the code ends where the lines end, too.
      have hslice : ∀ top, (lines.take (min lines.length (top + height))).drop top
          = (lines.drop top).take height := by
        intro top
        rw [List.drop_take, List.take_eq_take_iff, List.length_drop]
        omega
      rw [hslice]
      exact List.forall₂_same.mpr fun line _ => clipped_clipLine line width

/-- Six lines in a region with room for two, from the third one on. -/
theorem content_window_scrolled : ∃ lines,
    TextLines (ascii "zero\none\ntwo\nthree\nfour\nfive") lines ∧
    WindowOn { Node.init 2 .textLeaf [] (some 1) .none with
        content := ascii "zero\none\ntwo\nthree\nfour\nfive" }
      ⟨none, [⟨2, 2⟩]⟩ 3 2 lines ⟨[ascii "two", ascii "th$"], 2, 4⟩ := by
  have hwindow := (content_window { Node.init 2 .textLeaf [] (some 1) .none with
    content := ascii "zero\none\ntwo\nthree\nfour\nfive" } ⟨0, 0, 5, 4⟩ ⟨none, [⟨2, 2⟩]⟩ false).2
    (by decide) (by decide)
  exact hwindow

end Muxly.Core
