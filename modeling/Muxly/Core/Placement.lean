/-
# Muxly.Core.Placement -- where the layout puts the nodes

The layout gives every node that it visits a rectangle and splits the one of a container among its
children: in equal widths, in equal heights, or in three rows for each line of chrome and equal
heights for the rest. `Slot`s are the shares of one split along its axis. `Assigned` collects the
rectangles of a whole layout. Each of them lies inside the one of its parent and hence on the canvas,
so no coordinate leaves `u16`, and the layout of a live root succeeds.
-/
import Muxly.Core.Layout
import Muxly.Core.Mutations

namespace Muxly.Core

open Muxly.Control Muxly.Tree

/-! ## Shares -/

/-- A child with its place along the axis of a split. -/
structure Slot where
  child : Nat
  position : Nat
  size : Nat

/-- The size of a child and the remainder after it: a child with a fixed size takes that, another
one `base`, and one cell more while the remainder lasts. -/
def share (fixed : Nat → Option Nat) (base remainder child : Nat) : Nat × Nat :=
  match fixed child with
  | some size => (size, remainder)
  | none => if remainder ≠ 0 then (base + 1, remainder - 1) else (base, remainder)

/-- The children one after the other. -/
def slots (fixed : Nat → Option Nat) (base : Nat) : Nat → Nat → List Nat → List Slot
  | _, _, [] => []
  | position, remainder, child :: rest =>
    ⟨child, position, (share fixed base remainder child).1⟩ ::
      slots fixed base (position + (share fixed base remainder child).1)
        (share fixed base remainder child).2 rest

/-- What all the slots take. -/
def totalSize (slots : List Slot) : Nat := (slots.map Slot.size).sum

section Slots

variable (fixed : Nat → Option Nat) (base : Nat)

theorem map_child_slots (position remainder : Nat) (children : List Nat) :
    (slots fixed base position remainder children).map Slot.child = children := by
  induction children generalizing position remainder with
  | nil => rfl
  | cons child rest ih => rw [slots, List.map_cons, ih]

/-- A slot begins where the one before it ends. -/
theorem bounds_slots (position remainder : Nat) (children : List Nat) :
    ∀ s ∈ slots fixed base position remainder children, position ≤ s.position ∧
      s.position + s.size ≤ position + totalSize (slots fixed base position remainder children) := by
  induction children generalizing position remainder with
  | nil => simp [slots]
  | cons child rest ih =>
      intro s hs
      rw [slots, totalSize, List.map_cons, List.sum_cons]
      rw [slots] at hs
      rcases List.mem_cons.mp hs with rfl | hs
      · show position ≤ position ∧ position + _ ≤ _
        omega
      · obtain ⟨hle, hend⟩ := ih _ _ s hs
        rw [totalSize] at hend
        show _ ∧ _ ≤ position + ((share fixed base remainder child).1 + _)
        omega

theorem ordered_slots (position remainder : Nat) (children : List Nat) :
    (slots fixed base position remainder children).Pairwise
      fun s t => s.position + s.size ≤ t.position := by
  induction children generalizing position remainder with
  | nil => exact List.Pairwise.nil
  | cons child rest ih =>
      rw [slots]
      refine List.Pairwise.cons (fun t ht => ?_) (ih _ _)
      exact (bounds_slots fixed base _ _ rest t ht).1

/-- The fixed sizes, the base of every other child, and the remainder as far as it is used up. -/
theorem totalSize_slots (position remainder : Nat) (children : List Nat) :
    totalSize (slots fixed base position remainder children)
      = (children.filterMap fixed).sum
        + (base * children.countP (fun c => (fixed c).isNone)
          + min remainder (children.countP fun c => (fixed c).isNone)) := by
  induction children generalizing position remainder with
  | nil => simp [slots, totalSize]
  | cons child rest ih =>
      have hrest := ih (position + (share fixed base remainder child).1)
        (share fixed base remainder child).2
      rw [slots, totalSize, List.map_cons, List.sum_cons]
      change _ + totalSize _ = _
      rw [hrest]
      cases hfixed : fixed child with
      | some size =>
          rw [List.filterMap_cons_some hfixed, List.sum_cons,
            List.countP_cons_of_neg (by simp [hfixed])]
          simp only [share, hfixed]
          omega
      | none =>
          rw [List.filterMap_cons_none hfixed, List.countP_cons_of_pos (by simp [hfixed]),
            Nat.mul_succ]
          simp only [share, hfixed]
          split
          · dsimp only
            omega
          · dsimp only
            omega

/-- Equal shares take the whole extent. -/
theorem totalSize_equal {extent position : Nat} {children : List Nat} (hne : children ≠ []) :
    totalSize (slots (fun _ => none) (extent / children.length) position
      (extent % children.length) children) = extent := by
  have hpos : 0 < children.length := List.length_pos_iff.mpr hne
  have hmod := Nat.mod_lt extent hpos
  have hdiv := Nat.div_add_mod extent children.length
  rw [totalSize_slots]
  simp only [Option.isNone_none, List.countP_true, List.filterMap_none, List.sum_nil, Nat.zero_add]
  rw [Nat.mul_comm, Nat.min_eq_left hmod.le]
  exact hdiv

end Slots

/-! ## The loops -/

section Loops

variable (project : Nat → Rect → Except Failure (List Region))

/-- Lay out one rectangle after the other. -/
def projectEach (regions : List Region) (rects : List (Nat × Rect)) : Except Failure (List Region) :=
  rects.foldlM (fun regions p => do
    let more ← project p.1 p.2
    return regions ++ more) regions

/-- `share` with the checked addition of the code. -/
def takeSlot (fixed : Nat → Option Nat) (base remainder child : Nat) : Except Failure (Nat × Nat) :=
  match fixed child with
  | some size => .ok (size, remainder)
  | none => takeShare base remainder

/-- One turn of the loops of the layout. -/
def layoutTurn (place : Nat → Nat → Rect) (fixed : Nat → Option Nat) (base : Nat) (s : LayoutCursor)
    (childId : Nat) : Except Failure LayoutCursor := do
  let (size, remainder) ← takeSlot fixed base s.remainder childId
  let regions ← project childId (place s.position size)
  return ⟨(s.position + size) % u16Limit, remainder, s.regions ++ regions⟩

/-- The rectangles of slots. -/
def placed (place : Nat → Nat → Rect) (slots : List Slot) : List (Nat × Rect) :=
  slots.map fun s => (s.child, place s.position s.size)

/-- A share that fits is taken without an overflow. -/
theorem takeSlot_eq {fixed : Nat → Option Nat} {base remainder child : Nat}
    (hfits : (share fixed base remainder child).1 < u16Limit) :
    takeSlot fixed base remainder child = .ok (share fixed base remainder child) := by
  unfold share at hfits ⊢
  unfold takeSlot
  cases hfixed : fixed child with
  | some size => rfl
  | none =>
      simp only [hfixed] at hfits ⊢
      unfold takeShare
      by_cases hrem : remainder ≠ 0
      · rw [if_pos hrem] at hfits
        rw [if_pos hrem, if_pos hrem, addU16, if_pos hfits]
        rfl
      · rw [if_neg hrem, if_neg hrem]
        rfl

/-- One turn of a loop that does not overflow. -/
theorem layoutTurn_eq (place : Nat → Nat → Rect) (fixed : Nat → Option Nat) (base : Nat)
    (s : LayoutCursor) (childId : Nat)
    (hfits : s.position + (share fixed base s.remainder childId).1 < u16Limit) :
    layoutTurn project place fixed base s childId =
      (project childId (place s.position (share fixed base s.remainder childId).1)).map fun regions =>
        ⟨s.position + (share fixed base s.remainder childId).1,
          (share fixed base s.remainder childId).2, s.regions ++ regions⟩ := by
  rw [layoutTurn, takeSlot_eq (by omega), ok_bind]
  dsimp only
  rw [Nat.mod_eq_of_lt hfits]
  cases project childId (place s.position (share fixed base s.remainder childId).1) <;> rfl

/-- A loop of the layout lays out the rectangles of its slots. -/
theorem loop_eq (place : Nat → Nat → Rect) (fixed : Nat → Option Nat) (base : Nat)
    (children : List Nat) (position remainder : Nat) (regions : List Region)
    (hfits : position + totalSize (slots fixed base position remainder children) < u16Limit) :
    (do
      let done ← children.foldlM (layoutTurn project place fixed base) ⟨position, remainder, regions⟩
      return done.regions)
      = projectEach project regions (placed place (slots fixed base position remainder children)) := by
  induction children generalizing position remainder regions with
  | nil => rfl
  | cons child rest ih =>
      rw [slots, totalSize, List.map_cons, List.sum_cons] at hfits
      change position + ((share fixed base remainder child).1 + totalSize _) < _ at hfits
      rw [List.foldlM_cons, layoutTurn_eq project place fixed base _ child (by dsimp only; omega),
        slots, placed, List.map_cons, projectEach, List.foldlM_cons]
      dsimp only
      cases hproject : project child (place position (share fixed base remainder child).1) with
      | error e => rfl
      | ok more =>
          exact ih _ _ (regions ++ more) (by omega)

variable {node : Node} {rect : Rect}

/-- Equal widths. -/
def horizontalRects (node : Node) (rect : Rect) : List (Nat × Rect) :=
  placed (fun x width => ⟨x, rect.y, width, rect.height⟩)
    (slots (fun _ => none) (rect.width / node.children.length) rect.x
      (rect.width % node.children.length) node.children)

/-- Equal heights. -/
def evenRects (node : Node) (rect : Rect) : List (Nat × Rect) :=
  placed (fun y height => ⟨rect.x, y, rect.width, height⟩)
    (slots (fun _ => none) (rect.height / node.children.length) rect.y
      (rect.height % node.children.length) node.children)

theorem writeHorizontalChildren_eq (hcount : node.children.length < u16Limit)
    (hfits : rect.x + rect.width < u16Limit) :
    writeHorizontalChildren project node rect = projectEach project [] (horizontalRects node rect) := by
  rw [writeHorizontalChildren]
  split
  · rename_i hnil
    rw [horizontalRects, hnil]
    rfl
  · rename_i hne
    rw [horizontalRects, ← loop_eq project _ _ _ _ _ _ _ (by rwa [totalSize_equal hne]), castU16,
      if_pos hcount]
    rfl

theorem writeEvenVerticalChildren_eq (hne : node.children ≠ [])
    (hcount : node.children.length < u16Limit) (hfits : rect.y + rect.height < u16Limit) :
    writeEvenVerticalChildren project node rect = projectEach project [] (evenRects node rect) := by
  rw [writeEvenVerticalChildren, evenRects,
    ← loop_eq project _ _ _ _ _ _ _ (by rwa [totalSize_equal hne]), castU16, if_pos hcount]
  rfl

variable {d : Document}

/-- A child of chrome takes three rows. -/
def chromeSize (d : Document) (childId : Nat) : Option Nat :=
  match d.lookup childId with
  | some child => if isSingleLineChrome child.kind then some 3 else none
  | none => none

/-- How many of the children are chrome. -/
def chromeCount (d : Document) (children : List Nat) : Nat :=
  children.countP fun childId => (chromeSize d childId).isSome

/-- How many are not. -/
def flexibleCount (d : Document) (children : List Nat) : Nat :=
  children.countP fun childId => (chromeSize d childId).isNone

/-- One turn of the first loop of `writeVerticalChildren`. -/
def measureTurn (d : Document) (rect : Rect) (s : Nat × Nat) (childId : Nat) :
    Except Failure (Nat × Nat) := do
  match ← d.findNode childId with
  | none => return s
  | some child =>
    if isSingleLineChrome child.kind then
      return (min (s.1 + min rect.height 3) (u16Limit - 1), s.2)
    else return (s.1, s.2 + 1)

/-- What the first loop of `writeVerticalChildren` measures. -/
theorem measureVertical_eq (rect : Rect) {children : List Nat}
    (hlive : ∀ c ∈ children, ∃ n, d.lookup c = some n) :
    measureVertical d rect children =
      .ok (min (chromeCount d children * min rect.height 3) (u16Limit - 1),
        flexibleCount d children) := by
  suffices hfold : ∀ acc flexible : Nat,
      children.foldlM (measureTurn d rect) (min acc (u16Limit - 1), flexible)
        = .ok (min (acc + chromeCount d children * min rect.height 3) (u16Limit - 1),
            flexible + flexibleCount d children) by
    have hstart := hfold 0 0
    rw [Nat.zero_add, Nat.zero_add, Nat.zero_min] at hstart
    exact hstart
  induction children with
  | nil =>
      intro acc flexible
      simp only [chromeCount, flexibleCount, List.countP_nil, Nat.zero_mul, Nat.add_zero]
      rfl
  | cons child rest ih =>
      intro acc flexible
      obtain ⟨n, hn⟩ := hlive child (List.mem_cons_self ..)
      have hrest := ih fun c hc => hlive c (List.mem_cons_of_mem _ hc)
      have hfind : d.findNode child = .ok (some n) := by
        rw [Document.findNode_of_ne_zero (Document.lookup_pos hn), hn]
      rw [List.foldlM_cons, measureTurn, hfind, ok_bind]
      dsimp only
      by_cases hchrome : isSingleLineChrome n.kind = true
      · have hsize : chromeSize d child = some 3 := by simp only [chromeSize, hn, if_pos hchrome]
        have hmin : min (min acc (u16Limit - 1) + min rect.height 3) (u16Limit - 1)
            = min (acc + min rect.height 3) (u16Limit - 1) := by omega
        have hcounts : chromeCount d (child :: rest) = chromeCount d rest + 1 ∧
            flexibleCount d (child :: rest) = flexibleCount d rest :=
          ⟨List.countP_cons_of_pos (by simp [hsize]), List.countP_cons_of_neg (by simp [hsize])⟩
        simp only [if_pos hchrome, hmin]
        rw [pure_eq_ok, ok_bind, hrest, hcounts.1, hcounts.2, Nat.add_mul, Nat.one_mul]
        congr 3
        omega
      · have hsize : chromeSize d child = none := by simp only [chromeSize, hn, if_neg hchrome]
        have hcounts : chromeCount d (child :: rest) = chromeCount d rest ∧
            flexibleCount d (child :: rest) = flexibleCount d rest + 1 :=
          ⟨List.countP_cons_of_neg (by simp [hsize]), List.countP_cons_of_pos (by simp [hsize])⟩
        simp only [if_neg hchrome]
        rw [pure_eq_ok, ok_bind, hrest, hcounts.1, hcounts.2]
        congr 2
        omega

/-- Chrome takes three rows a child. -/
theorem sum_chromeSize (children : List Nat) :
    (children.filterMap (chromeSize d)).sum = 3 * chromeCount d children := by
  induction children with
  | nil => rfl
  | cons child rest ih =>
      cases hsize : chromeSize d child with
      | some size =>
          have hthree : size = 3 := by
            unfold chromeSize at hsize
            split at hsize
            · split at hsize
              · exact (Option.some.inj hsize).symm
              · cases hsize
            · cases hsize
          have hcount : chromeCount d (child :: rest) = chromeCount d rest + 1 :=
            List.countP_cons_of_pos (by simp [hsize])
          rw [List.filterMap_cons_some hsize, List.sum_cons, ih, hcount, hthree]
          omega
      | none =>
          have hcount : chromeCount d (child :: rest) = chromeCount d rest :=
            List.countP_cons_of_neg (by simp [hsize])
          rw [List.filterMap_cons_none hsize, ih, hcount]

/-- The rows beside the chrome. -/
def flexibleHeight (d : Document) (node : Node) (rect : Rect) : Nat :=
  rect.height - 3 * chromeCount d node.children

/-- Three rows for each line of chrome, equal heights for the rest. -/
def flexibleSlots (d : Document) (node : Node) (rect : Rect) : List Slot :=
  slots (chromeSize d) (flexibleHeight d node rect / flexibleCount d node.children) rect.y
    (if flexibleCount d node.children = 0 then 0
      else flexibleHeight d node rect % flexibleCount d node.children) node.children

/-- The chrome leaves no row, or too few for the rest. -/
def Crowded (d : Document) (node : Node) (rect : Rect) : Prop :=
  rect.height ≤ chromeCount d node.children * min rect.height 3 ∨
    rect.height < chromeCount d node.children * min rect.height 3 + flexibleCount d node.children

instance (d : Document) (node : Node) (rect : Rect) : Decidable (Crowded d node rect) :=
  inferInstanceAs (Decidable (_ ∨ _))

/-- Equal heights when it is crowded. -/
def verticalRects (d : Document) (node : Node) (rect : Rect) : List (Nat × Rect) :=
  if Crowded d node rect then evenRects node rect
  else placed (fun y height => ⟨rect.x, y, rect.width, height⟩) (flexibleSlots d node rect)

/-- Chrome has its three rows when it is not crowded. -/
theorem chrome_le (h : ¬ Crowded d node rect) :
    chromeCount d node.children * min rect.height 3 = 3 * chromeCount d node.children ∧
      3 * chromeCount d node.children ≤ rect.height := by
  unfold Crowded at h
  generalize chromeCount d node.children = count at h ⊢
  rcases Nat.le_total 3 rect.height with hthree | hthree
  · rw [Nat.min_eq_right hthree] at h ⊢
    omega
  · rw [Nat.min_eq_left hthree] at h ⊢
    -- One line of chrome already takes everything.
    have hzero : count = 0 := by
      by_contra hpos
      exact h (.inl (Nat.le_mul_of_pos_left _ (Nat.pos_of_ne_zero hpos)))
    subst hzero
    omega

/-- The flexible children take all that the chrome leaves. -/
theorem totalSize_flexible (h : ¬ Crowded d node rect) :
    totalSize (flexibleSlots d node rect) ≤ rect.height ∧
      (flexibleCount d node.children ≠ 0 →
        totalSize (flexibleSlots d node rect) = rect.height) := by
  obtain ⟨-, hle⟩ := chrome_le h
  have hheight : flexibleHeight d node rect = rect.height - 3 * chromeCount d node.children := rfl
  have hsum := totalSize_slots (chromeSize d)
    (flexibleHeight d node rect / flexibleCount d node.children) rect.y
    (if flexibleCount d node.children = 0 then 0
      else flexibleHeight d node rect % flexibleCount d node.children) node.children
  rw [sum_chromeSize] at hsum
  change totalSize (flexibleSlots d node rect)
    = _ + (_ * flexibleCount d node.children + min _ (flexibleCount d node.children)) at hsum
  by_cases hzero : flexibleCount d node.children = 0
  · rw [hzero, Nat.mul_zero, if_pos rfl] at hsum
    exact ⟨by omega, fun hne => absurd hzero hne⟩
  · have hmod := Nat.mod_lt (flexibleHeight d node rect) (Nat.pos_of_ne_zero hzero)
    have hdiv := Nat.div_add_mod' (flexibleHeight d node rect) (flexibleCount d node.children)
    rw [if_neg hzero, Nat.min_eq_left hmod.le, hdiv] at hsum
    exact ⟨by omega, fun _ => by omega⟩

/-- A loop over live children. -/
theorem foldlM_congr_mem {σ α ε : Type} {f g : σ → α → Except ε σ} {xs : List α}
    (h : ∀ s, ∀ x ∈ xs, f s x = g s x) (s : σ) : xs.foldlM f s = xs.foldlM g s := by
  induction xs generalizing s with
  | nil => rfl
  | cons x rest ih =>
      rw [List.foldlM_cons, List.foldlM_cons, h s x (List.mem_cons_self ..)]
      exact bind_congr fun t => ih (fun s y hy => h s y (List.mem_cons_of_mem _ hy)) t

theorem writeVerticalChildren_eq (hlive : ∀ c ∈ node.children, ∃ n, d.lookup c = some n)
    (hcount : node.children.length < u16Limit) (hfits : rect.y + rect.height < u16Limit) :
    writeVerticalChildren d project node rect = projectEach project [] (verticalRects d node rect) := by
  rw [writeVerticalChildren]
  split
  · rename_i hnil
    rw [verticalRects, evenRects, flexibleSlots, hnil]
    split <;> rfl
  · rename_i hne
    rw [measureVertical_eq rect hlive, ok_bind]
    dsimp only
    by_cases hcrowded : Crowded d node rect
    · rw [verticalRects, if_pos hcrowded, if_pos (by unfold Crowded at hcrowded; omega)]
      exact writeEvenVerticalChildren_eq project hne hcount hfits
    · obtain ⟨hchrome, hle⟩ := chrome_le hcrowded
      have hfixed : min (chromeCount d node.children * min rect.height 3) (u16Limit - 1)
          = 3 * chromeCount d node.children := by omega
      have hflexible : flexibleCount d node.children < u16Limit :=
        (List.countP_le_length ..).trans_lt hcount
      have htotal := (totalSize_flexible hcrowded).1
      rw [verticalRects, if_neg hcrowded, hfixed, if_neg (by unfold Crowded at hcrowded; omega),
        castU16, if_pos hflexible, ok_bind]
      rw [flexibleSlots] at htotal ⊢
      rw [← loop_eq project _ _ _ _ _ _ _ (by omega)]
      refine congrArg (· >>= _) (foldlM_congr_mem (fun s x hx => ?_) _)
      obtain ⟨n, hn⟩ := hlive x hx
      rw [Document.nodeOr_of_lookup hn, ok_bind, layoutTurn, takeSlot]
      by_cases hkind : isSingleLineChrome n.kind = true
      · simp only [chromeSize, hn, if_pos hkind]
        rfl
      · simp only [chromeSize, hn, if_neg hkind]
        rfl

end Loops

/-! ## One split -/

/-- The rectangle lies inside the other one. -/
structure Rect.Within (inner outer : Rect) : Prop where
  left : outer.x ≤ inner.x
  right : inner.x + inner.width ≤ outer.x + outer.width
  top : outer.y ≤ inner.y
  bottom : inner.y + inner.height ≤ outer.y + outer.height

theorem Rect.Within.trans {a b c : Rect} (hab : a.Within b) (hbc : b.Within c) : a.Within c where
  left := hbc.left.trans hab.left
  right := hab.right.trans hbc.right
  top := hbc.top.trans hab.top
  bottom := hab.bottom.trans hbc.bottom

/-- The far edges of the rectangle are in `u16`. -/
def Rect.Bounded (rect : Rect) : Prop :=
  rect.x + rect.width < u16Limit ∧ rect.y + rect.height < u16Limit

theorem Rect.Within.bounded {inner outer : Rect} (h : inner.Within outer) (hb : outer.Bounded) :
    inner.Bounded :=
  ⟨h.right.trans_lt hb.1, h.bottom.trans_lt hb.2⟩

/-- The canvas of a request. -/
theorem bounded_canvas {request : ProjectionRequest} (hrows : request.rows < u16Limit)
    (hcols : request.cols < u16Limit) :
    Rect.Bounded ⟨0, 0, clampDimension request.cols 24, clampDimension request.rows 8⟩ := by
  have hright := clampDimension_lt hcols (show 24 < u16Limit by decide)
  have hbottom := clampDimension_lt hrows (show 8 < u16Limit by decide)
  unfold Rect.Bounded
  dsimp only
  omega

/-- The inset of a rectangle lies inside it, also when it is empty. -/
theorem insetRect_within {rect : Rect} (hb : rect.Bounded) :
    ∃ inner, insetRect rect = .ok inner ∧ inner.Within rect := by
  obtain ⟨hx, hy⟩ := hb
  have hsteps : (if rect.width > 0 then 1 else 0) ≤ rect.width ∧
      (if rect.height > 0 then 1 else 0) ≤ rect.height := by
    constructor <;> split <;> omega
  have hextents : (if rect.width > 0 then 1 else 0) + innerExtent rect.width ≤ rect.width ∧
      (if rect.height > 0 then 1 else 0) + innerExtent rect.height ≤ rect.height := by
    unfold innerExtent
    constructor <;> split <;> split <;> omega
  refine ⟨⟨rect.x + if rect.width > 0 then 1 else 0, rect.y + if rect.height > 0 then 1 else 0,
    innerExtent rect.width, innerExtent rect.height⟩, ?_, ?_⟩
  · rw [insetRect, addU16, if_pos (by omega), ok_bind, addU16, if_pos (by omega), ok_bind]
    rfl
  · constructor <;> dsimp only <;> omega

/-- Where a rectangle begins along an axis. -/
def Rect.start (horizontal : Bool) (rect : Rect) : Nat := if horizontal then rect.x else rect.y

/-- How long it is along the axis. -/
def Rect.extent (horizontal : Bool) (rect : Rect) : Nat :=
  if horizontal then rect.width else rect.height

/-- The axis of a node. -/
def isHorizontal (node : Node) : Bool := decide (node.kind = .hContainer)

/-- The rectangles of the children of a node. -/
def childRects (d : Document) (node : Node) (space : Rect) : List (Nat × Rect) :=
  if node.kind = .hContainer then horizontalRects node space else verticalRects d node space

/-- Some child takes what the others leave: the split is one into equal parts, or a child has no
fixed height. -/
def FillsSpace (d : Document) (node : Node) (space : Rect) : Prop :=
  node.kind = .hContainer ∨ ∃ fixedTotal flexibleCount,
    measureVertical d space node.children = .ok (fixedTotal, flexibleCount) ∧
      (fixedTotal ≥ space.height ∨ fixedTotal + flexibleCount > space.height ∨ flexibleCount ≠ 0)

/-- What a split does with the rectangle that it splits. -/
structure Split (d : Document) (node : Node) (space : Rect) (rects : List (Nat × Rect)) : Prop where
  children : rects.map Prod.fst = node.children
  inside : ∀ p ∈ rects, p.2.Within space
  ordered : rects.Pairwise fun p q =>
    p.2.start (isHorizontal node) + p.2.extent (isHorizontal node) ≤ q.2.start (isHorizontal node)
  fills : FillsSpace d node space →
    (rects.map fun p => p.2.extent (isHorizontal node)).sum = space.extent (isHorizontal node)

section Split

variable {d : Document} {node : Node} {space : Rect}

/-- Slots that fit into the rectangle split it. -/
theorem split_slots {place : Nat → Nat → Rect}
    (hstart : ∀ position size, (place position size).start (isHorizontal node) = position)
    (hextent : ∀ position size, (place position size).extent (isHorizontal node) = size)
    (hinside : ∀ position size, space.start (isHorizontal node) ≤ position →
      position + size ≤ space.start (isHorizontal node) + space.extent (isHorizontal node) →
      (place position size).Within space)
    {fixed : Nat → Option Nat} {base position remainder : Nat}
    (hposition : position = space.start (isHorizontal node))
    (hle : totalSize (slots fixed base position remainder node.children)
      ≤ space.extent (isHorizontal node))
    (hfills : FillsSpace d node space →
      totalSize (slots fixed base position remainder node.children)
        = space.extent (isHorizontal node)) :
    Split d node space (placed place (slots fixed base position remainder node.children)) where
  children := by
    rw [placed, List.map_map]
    exact map_child_slots fixed base position remainder node.children
  inside := by
    rintro p hp
    obtain ⟨s, hs, rfl⟩ := List.mem_map.mp hp
    obtain ⟨hbegin, hend⟩ := bounds_slots fixed base position remainder node.children s hs
    exact hinside s.position s.size (hposition ▸ hbegin) (by omega)
  ordered := by
    rw [placed, List.pairwise_map]
    refine (ordered_slots fixed base position remainder node.children).imp fun h => ?_
    rw [hstart, hextent, hstart]
    exact h
  fills hspace := by
    rw [placed, List.map_map, ← hfills hspace, totalSize]
    exact congrArg List.sum (List.map_congr_left fun s _ => hextent s.position s.size)

theorem split_childRects (hlive : ∀ c ∈ node.children, ∃ n, d.lookup c = some n)
    (hne : node.children ≠ []) : Split d node space (childRects d node space) := by
  unfold childRects
  by_cases hkind : node.kind = .hContainer
  · have haxis : isHorizontal node = true := decide_eq_true hkind
    rw [if_pos hkind]
    refine split_slots ?_ ?_ ?_ ?_ ?_ ?_ <;> rw [haxis]
    · exact fun _ _ => rfl
    · exact fun _ _ => rfl
    · exact fun position size hbegin hend => ⟨hbegin, hend, Nat.le_refl _, Nat.le_refl _⟩
    · rfl
    · exact (totalSize_equal hne).le
    · exact fun _ => totalSize_equal hne
  · have haxis : isHorizontal node = false := decide_eq_false hkind
    have hplace : ∀ position size, space.start (isHorizontal node) ≤ position →
        position + size ≤ space.start (isHorizontal node) + space.extent (isHorizontal node) →
        Rect.Within ⟨space.x, position, space.width, size⟩ space := by
      rw [haxis]
      exact fun position size hbegin hend => ⟨Nat.le_refl _, Nat.le_refl _, hbegin, hend⟩
    rw [if_neg hkind, verticalRects]
    by_cases hcrowded : Crowded d node space
    · -- No room for the chrome: equal heights, as the widths of a row.
      rw [if_pos hcrowded]
      refine split_slots ?_ ?_ hplace ?_ ?_ ?_ <;> rw [haxis]
      · exact fun _ _ => rfl
      · exact fun _ _ => rfl
      · rfl
      · exact (totalSize_equal hne).le
      · exact fun _ => totalSize_equal hne
    · rw [if_neg hcrowded]
      obtain ⟨hle, hfills⟩ := totalSize_flexible hcrowded
      refine split_slots ?_ ?_ hplace ?_ ?_ ?_ <;> rw [haxis]
      · exact fun _ _ => rfl
      · exact fun _ _ => rfl
      · rfl
      · exact hle
      · -- The space is filled when one child at least takes a share of what the chrome leaves.
        rintro (hhor | ⟨fixedTotal, flexible, hmeasure, hcase⟩)
        · exact absurd hhor hkind
        · rw [measureVertical_eq space hlive] at hmeasure
          cases hmeasure
          refine hfills ?_
          unfold Crowded at hcrowded
          omega

end Split

/-! ## The whole layout -/

/-- The layout goes on to the children of the node. -/
def opens (d : Document) (x : Nat) (node : Node) : Bool :=
  decide (x ∉ d.elidedNodeIds ∧ shouldProjectChildren node.kind = true ∧ node.children ≠ [])

/-- The rectangle for the children: the inset one when the node itself is drawn. -/
def childSpace (d : Document) (x : Nat) (node : Node) (rect : Rect) : Except Failure Rect :=
  if shouldEmitRegion node (decide (x ∈ d.elidedNodeIds)) then insetRect rect else .ok rect

/-- The children of a node in that rectangle. -/
def writeChildren (d : Document) (project : Nat → Rect → Except Failure (List Region)) (node : Node)
    (space : Rect) : Except Failure (List Region) :=
  if node.kind = .hContainer then writeHorizontalChildren project node space
  else writeVerticalChildren d project node space

/-- A node in a rectangle gives a child its rectangle. -/
inductive Gives (d : Document) : Nat × Rect → Nat × Rect → Prop where
  | child {x : Nat} {node : Node} {rect space : Rect} {p : Nat × Rect}
      (live : d.lookup x = some node) (isOpen : opens d x node = true)
      (space_eq : childSpace d x node rect = .ok space) (wide : space.width ≠ 0)
      (high : space.height ≠ 0) (mem : p ∈ childRects d node space) : Gives d (x, rect) p

/-- The layout from one node down assigns a node a rectangle. -/
def Assigned (d : Document) : Nat × Rect → Nat × Rect → Prop := Relation.ReflTransGen (Gives d)

/-- What holds of a node in the rectangle that the layout assigns it. -/
structure Placement (d : Document) (canvas : Rect) (x : Nat) (rect : Rect) : Prop where
  live : ∃ node, d.lookup x = some node
  onCanvas : rect.Within canvas
  bounded : rect.Bounded
  split : ∀ node, d.lookup x = some node → opens d x node = true →
    ∃ space, childSpace d x node rect = .ok space ∧ space.Within rect ∧
      Split d node space (childRects d node space) ∧
      ∀ project, writeChildren d project node space
        = projectEach project [] (childRects d node space)

/-- The regions that the layout from one node down draws. -/
def Draws (d : Document) (localState : LocalState) (start : Nat × Rect) (r : Region) : Prop :=
  ∃ x rect node, Assigned d start (x, rect) ∧ d.lookup x = some node ∧
    shouldEmitRegion node (decide (x ∈ d.elidedNodeIds)) = true ∧
    r = regionOf node rect localState (decide (x ∈ d.elidedNodeIds))

section Whole

variable {d : Document} (hv : d.Valid)
  (hsmall : ∀ x node, d.lookup x = some node → node.children.length < u16Limit)

theorem childSpace_within (x : Nat) (node : Node) {rect : Rect} (hb : rect.Bounded) :
    ∃ space, childSpace d x node rect = .ok space ∧ space.Within rect := by
  unfold childSpace
  split
  · exact insetRect_within hb
  · exact ⟨rect, rfl, Nat.le_refl _, Nat.le_refl _, Nat.le_refl _, Nat.le_refl _⟩

include hv in
theorem live_children {x : Nat} {node : Node} (hx : d.lookup x = some node) :
    ∀ c ∈ node.children, ∃ m, d.lookup c = some m := fun _ hc =>
  let ⟨m, hm, _⟩ := hv.shape.child hx hc
  ⟨m, hm⟩

include hv in
/-- A child has a greater id than its parent. -/
theorem lt_child {x c : Nat} {node : Node} (hx : d.lookup x = some node) (hc : c ∈ node.children) :
    x < c := by
  obtain ⟨m, hm, hparent⟩ := hv.shape.child hx hc
  have hne : c ≠ 1 := by
    rintro rfl
    obtain ⟨r, hr, hnone, -⟩ := hv.shape.root
    rw [hm] at hr
    cases hr
    rw [hnone] at hparent
    cases hparent
  obtain ⟨p, hp, -, hlt⟩ := hv.shape.parent hm hne
  rw [hparent] at hp
  cases hp
  exact hlt

include hv hsmall in
/-- The loops at a live node lay out the rectangles of its children. -/
theorem writeChildren_eq {x : Nat} {node : Node} (hx : d.lookup x = some node) {space : Rect}
    (hb : space.Bounded) (project : Nat → Rect → Except Failure (List Region)) :
    writeChildren d project node space = projectEach project [] (childRects d node space) := by
  unfold writeChildren childRects
  split
  · exact writeHorizontalChildren_eq project (hsmall x node hx) hb.1
  · exact writeVerticalChildren_eq project (live_children hv hx) (hsmall x node hx) hb.2

include hv hsmall in
theorem placement_of_within {x : Nat} {node : Node} {rect canvas : Rect}
    (hx : d.lookup x = some node) (hwithin : rect.Within canvas) (hcanvas : canvas.Bounded) :
    Placement d canvas x rect where
  live := ⟨node, hx⟩
  onCanvas := hwithin
  bounded := hwithin.bounded hcanvas
  split node' hx' hopen := by
    have hb := hwithin.bounded hcanvas
    obtain ⟨space, hspace, hinside⟩ := childSpace_within x node' hb
    exact ⟨space, hspace, hinside,
      split_childRects (live_children hv hx') (of_decide_eq_true hopen).2.2,
      writeChildren_eq hv hsmall hx' (hinside.bounded hb)⟩

include hv hsmall in
/-- The rectangles stay on the canvas all the way down. -/
theorem placement_of_assigned {start p : Nat × Rect} {canvas : Rect} (hcanvas : canvas.Bounded)
    (hstart : Placement d canvas start.1 start.2) (h : Assigned d start p) :
    Placement d canvas p.1 p.2 := by
  induction h with
  | refl => exact hstart
  | tail _ hgives ih =>
      cases hgives with
      | child hlive hopen hspace _ _ hmem =>
          obtain ⟨space, hspace', hinside, hsplit, -⟩ := ih.split _ hlive hopen
          rw [hspace] at hspace'
          cases hspace'
          have hname := hsplit.children ▸ List.mem_map_of_mem (f := Prod.fst) hmem
          obtain ⟨m, hm⟩ := live_children hv hlive _ hname
          exact placement_of_within hv hsmall hm
            ((hsplit.inside _ hmem).trans (hinside.trans ih.onCanvas)) hcanvas

omit hv hsmall in
/-- A list of rectangles is laid out when each of them is. -/
theorem projectEach_ok {project : Nat → Rect → Except Failure (List Region)}
    {Good : Nat × Rect → Region → Prop} {rects : List (Nat × Rect)}
    (h : ∀ p ∈ rects, ∃ more, project p.1 p.2 = .ok more ∧ ∀ r, r ∈ more ↔ Good p r)
    (regions : List Region) :
    ∃ all, projectEach project regions rects = .ok all ∧
      ∀ r, r ∈ all ↔ r ∈ regions ∨ ∃ p ∈ rects, Good p r := by
  induction rects generalizing regions with
  | nil => exact ⟨regions, rfl, fun r => by simp⟩
  | cons p rest ih =>
      obtain ⟨more, hmore, hgood⟩ := h p (List.mem_cons_self ..)
      obtain ⟨all, hall, hmem⟩ := ih (fun q hq => h q (List.mem_cons_of_mem _ hq)) (regions ++ more)
      refine ⟨all, ?_, fun r => ?_⟩
      · rw [projectEach, List.foldlM_cons, hmore]
        exact hall
      · rw [hmem, List.mem_append, hgood, or_assoc, List.exists_mem_cons_iff]

omit hv hsmall in
/-- The region of the node itself. -/
def ownRegion (d : Document) (localState : LocalState) (x : Nat) (node : Node) (rect : Rect) :
    List Region :=
  if shouldEmitRegion node (decide (x ∈ d.elidedNodeIds)) then
    [regionOf node rect localState (decide (x ∈ d.elidedNodeIds))]
  else []

omit hv hsmall in
/-- What a layout draws is its own region and what it draws in the rectangles that it gives. -/
theorem draws_iff {localState : LocalState} {x : Nat} {rect : Rect} {node : Node} {r : Region}
    (hx : d.lookup x = some node) :
    Draws d localState (x, rect) r ↔ r ∈ ownRegion d localState x node rect ∨
      ∃ p, Gives d (x, rect) p ∧ Draws d localState p r := by
  unfold ownRegion
  constructor
  · rintro ⟨y, rect', node', hassigned, hy, hemit, rfl⟩
    rcases Relation.ReflTransGen.cases_head hassigned with heq | ⟨p, hgives, hrest⟩
    · cases heq
      rw [hx] at hy
      cases hy
      rw [if_pos hemit]
      exact .inl (List.mem_singleton.mpr rfl)
    · exact .inr ⟨p, hgives, y, rect', node', hrest, hy, hemit, rfl⟩
  · rintro (hown | ⟨p, hgives, y, rect', node', hassigned, hy, hemit, rfl⟩)
    · split at hown
      · rename_i hemit
        exact ⟨x, rect, node, .refl, hx, hemit, List.mem_singleton.mp hown⟩
      · cases hown
    · exact ⟨y, rect', node', hassigned.head hgives, hy, hemit, rfl⟩

omit hv hsmall in
theorem writeProjectedNode_closed {localState : LocalState} {fuel x : Nat} {rect : Rect} {node : Node}
    (hx : d.lookup x = some node) (hclosed : ¬ opens d x node = true) :
    writeProjectedNode d localState (fuel + 1) x rect = .ok (ownRegion d localState x node rect) := by
  have hcond : x ∈ d.elidedNodeIds ∨ shouldProjectChildren node.kind = false ∨
      node.children = [] := by
    by_contra hnot
    push Not at hnot
    exact hclosed (decide_eq_true ⟨hnot.1, Bool.ne_false_iff.mp hnot.2.1, hnot.2.2⟩)
  rw [writeProjectedNode, Document.nodeOr_of_lookup hx, ok_bind]
  dsimp only
  rw [if_pos hcond]
  rfl

omit hv hsmall in
theorem writeProjectedNode_open {localState : LocalState} {fuel x : Nat} {rect space : Rect}
    {node : Node} (hx : d.lookup x = some node) (hopen : opens d x node = true)
    (hspace : childSpace d x node rect = .ok space) :
    writeProjectedNode d localState (fuel + 1) x rect =
      if space.width = 0 ∨ space.height = 0 then .ok (ownRegion d localState x node rect)
      else do
        let children ← writeChildren d (writeProjectedNode d localState fuel) node space
        return ownRegion d localState x node rect ++ children := by
  obtain ⟨hlive, hkind, hne⟩ := of_decide_eq_true hopen
  have hcond : ¬ (x ∈ d.elidedNodeIds ∨ shouldProjectChildren node.kind = false ∨
      node.children = []) := by
    rintro (h | h | h)
    · exact hlive h
    · rw [hkind] at h
      cases h
    · exact hne h
  rw [writeProjectedNode, Document.nodeOr_of_lookup hx, ok_bind]
  dsimp only
  rw [if_neg hcond]
  unfold writeChildren
  unfold childSpace at hspace
  split at hspace
  · -- The node is drawn itself, so its children get the inset rectangle.
    rename_i hemit
    rw [if_pos hemit, hspace, ok_bind, ownRegion, if_pos hemit]
    split
    · rfl
    · split <;> rfl
  · rename_i hemit
    cases hspace
    rw [if_neg hemit, pure_eq_ok, ok_bind, ownRegion, if_neg hemit]
    split
    · rfl
    · split <;> rfl

include hv hsmall in
/-- The layout of a live node succeeds, and draws what it assigns. -/
theorem writeProjectedNode_draws (localState : LocalState) (fuel : Nat) {x : Nat} {rect : Rect}
    {node : Node} (hx : d.lookup x = some node) (hfuel : d.nodeSlots.length < x + fuel)
    (hb : rect.Bounded) :
    ∃ regions, writeProjectedNode d localState fuel x rect = .ok regions ∧
      ∀ r, r ∈ regions ↔ Draws d localState (x, rect) r := by
  induction fuel generalizing x rect node with
  | zero =>
      have hlive := Document.lookup_le hx
      omega
  | succ fuel ih =>
      -- A node whose layout goes no further draws itself and nothing else.
      have hleaf : (∀ p, ¬ Gives d (x, rect) p) →
          ∀ r, r ∈ ownRegion d localState x node rect ↔ Draws d localState (x, rect) r := by
        intro hnone r
        rw [draws_iff hx]
        exact ⟨.inl, fun h => h.elim id fun ⟨p, hgives, _⟩ => absurd hgives (hnone p)⟩
      by_cases hopen : opens d x node = true
      · obtain ⟨space, hspace, hinside⟩ := childSpace_within x node hb
        rw [writeProjectedNode_open hx hopen hspace]
        by_cases hempty : space.width = 0 ∨ space.height = 0
        · rw [if_pos hempty]
          refine ⟨_, rfl, hleaf fun p hgives => ?_⟩
          cases hgives with
          | child hlive _ hspace' hwide hhigh _ =>
              rw [hx] at hlive
              cases hlive
              rw [hspace] at hspace'
              cases hspace'
              exact hempty.elim hwide hhigh
        · rw [if_neg hempty, writeChildren_eq hv hsmall hx (hinside.bounded hb)]
          have hsplit : Split d node space (childRects d node space) :=
            split_childRects (live_children hv hx) (of_decide_eq_true hopen).2.2
          -- Every child is live and has a greater id, so the rest of the fuel is enough for it.
          have heach : ∀ p ∈ childRects d node space, ∃ more,
              writeProjectedNode d localState fuel p.1 p.2 = .ok more ∧
                ∀ r, r ∈ more ↔ Draws d localState p r := by
            intro p hp
            have hchild : p.1 ∈ node.children := hsplit.children ▸ List.mem_map_of_mem hp
            obtain ⟨m, hm⟩ := live_children hv hx _ hchild
            have hlt := lt_child hv hx hchild
            exact ih hm (by omega) ((hsplit.inside p hp).bounded (hinside.bounded hb))
          obtain ⟨all, hall, hmem⟩ := projectEach_ok heach []
          refine ⟨_, by rw [hall]; rfl, fun r => ?_⟩
          rw [List.mem_append, hmem, draws_iff hx]
          refine or_congr_right ⟨?_, ?_⟩
          · rintro (hnil | ⟨p, hp, hdraws⟩)
            · cases hnil
            · exact ⟨p, .child hx hopen hspace (fun h => hempty (.inl h))
                (fun h => hempty (.inr h)) hp, hdraws⟩
          · rintro ⟨p, hgives, hdraws⟩
            cases hgives with
            | child hlive _ hspace' _ _ hp =>
                rw [hx] at hlive
                cases hlive
                rw [hspace] at hspace'
                cases hspace'
                exact .inr ⟨p, hp, hdraws⟩
      · rw [writeProjectedNode_closed hx hopen]
        refine ⟨_, rfl, hleaf fun p hgives => ?_⟩
        cases hgives with
        | child hlive hopen' _ _ _ _ =>
            rw [hx] at hlive
            cases hlive
            exact hopen hopen'

end Whole

/-- The layout of a valid document from any live node succeeds on every viewport; its regions are
those of the drawn nodes in their rectangles, and each rectangle has its place. -/
theorem writeProjectionForRoot_places {d : Document} (hv : d.Valid)
    (hsmall : ∀ x node, d.lookup x = some node → node.children.length < u16Limit)
    {rootOverride : Option Nat}
    (hroot : ∀ x, rootOverride = some x → ∃ node, d.lookup x = some node)
    {request : ProjectionRequest} (hrows : request.rows < u16Limit) (hcols : request.cols < u16Limit) :
    ∃ p, writeProjectionForRoot d rootOverride request = .ok p ∧
      p.rows = clampDimension request.rows 8 ∧ p.cols = clampDimension request.cols 24 ∧
      p.rootNodeId = (rootOverride.or d.viewRootNodeId).getD d.rootNodeId ∧
      (∀ r, r ∈ p.regions ↔
        Draws d request.localState (p.rootNodeId, ⟨0, 0, p.cols, p.rows⟩) r) ∧
      ∀ x rect, Assigned d (p.rootNodeId, ⟨0, 0, p.cols, p.rows⟩) (x, rect) →
        Placement d ⟨0, 0, p.cols, p.rows⟩ x rect := by
  -- The root that is laid out: the one asked for, else the view root, else that of the document.
  have hlive : ∃ node, d.lookup ((rootOverride.or d.viewRootNodeId).getD d.rootNodeId) = some node := by
    cases hover : rootOverride with
    | some x => exact hroot x hover
    | none =>
        cases hview : d.viewRootNodeId with
        | some x => exact hv.viewRoot x hview
        | none =>
            obtain ⟨r, hr, -⟩ := hv.shape.root
            rw [hv.shape.rootNodeId]
            exact ⟨r, hr⟩
  obtain ⟨node, hnode⟩ := hlive
  have hpos := Document.lookup_pos hnode
  have hcanvas := bounded_canvas hrows hcols
  obtain ⟨regions, hregions, hdraws⟩ := writeProjectedNode_draws hv hsmall request.localState
    (d.nodeSlots.length + 1) hnode (by omega) hcanvas
  refine ⟨_, by rw [writeProjectionForRoot, hregions]; rfl, rfl, rfl, rfl, hdraws,
    fun x rect h => ?_⟩
  exact placement_of_assigned hv hsmall hcanvas (placement_of_within hv hsmall hnode
    ⟨Nat.le_refl _, Nat.le_refl _, Nat.le_refl _, Nat.le_refl _⟩ hcanvas) h

/-- A document with a text over a modeline. -/
def overModeline : Document :=
  let text := (Document.appendNode 1 .textLeaf [97] .none (Document.init 1 [100])).2
  (Document.appendNode 1 .modelineRegion [98] .none text).2

theorem valid_overModeline : overModeline.Valid :=
  (Document.appendNode_sound 1 .modelineRegion [98] .none _
    (Document.appendNode_sound 1 .textLeaf [97] .none _ (Document.valid_init 1 [100])).1).1

/-- On a viewport that is too small the modeline has the last three rows inside the frame. -/
theorem writeProjectionForRoot_places_modeline :
    Placement overModeline ⟨0, 0, 24, 8⟩ 3 ⟨1, 4, 22, 3⟩ := by
  have hsmall : ∀ x node, overModeline.lookup x = some node → node.children.length < u16Limit := by
    intro x node hx
    have hslots : ∀ slot ∈ overModeline.nodeSlots, ∀ n ∈ slot, n.children.length < u16Limit := by
      decide +kernel
    cases x with
    | zero => exact absurd (Document.lookup_pos hx) (by decide)
    | succ i =>
        rw [Document.lookup_succ] at hx
        have hslot := Option.join_eq_some_iff.mp hx
        exact hslots (some node) (List.mem_of_getElem? hslot) node rfl
  obtain ⟨p, -, hrows, hcols, hroot, -, hplace⟩ := @writeProjectionForRoot_places overModeline
    valid_overModeline hsmall none (fun x hx => by cases hx) ⟨5, 5, ⟨none, []⟩⟩ (by decide) (by decide)
  rw [hrows, hcols, hroot] at hplace
  exact hplace 3 _ (Relation.ReflTransGen.single
    (.child rfl rfl rfl (by decide) (by decide) (by decide +kernel)))

end Muxly.Core
