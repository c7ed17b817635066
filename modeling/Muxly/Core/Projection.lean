/-
# Muxly.Core.Projection -- the boxed layout of a document

The regions that `projection.get` reports: every node below the projection root gets a rectangle,
containers split theirs among their children, and text is windowed and clipped to its rectangle.
Coordinates are `u16`: an overflow of a checked operation and a child count outside `u16` are
panics, and the wrapping and saturating operations are written out.
-/
import Muxly.Core.Document

namespace Muxly.Core

/-! ## Requests and regions -/

/-- The first number outside `u16`. -/
def u16Limit : Nat := 2 ^ 16

/-- `ScrollOffset`. -/
structure ScrollOffset where
  nodeId : Nat
  topLine : Nat
  deriving DecidableEq

/-- `LocalState`. -/
structure LocalState where
  focusedNodeId : Option Nat
  scrollOffsets : List ScrollOffset
  deriving DecidableEq

/-- `projection.Request`. -/
structure ProjectionRequest where
  rows : Nat
  cols : Nat
  localState : LocalState
  deriving DecidableEq

/-- `Rect`. -/
structure Rect where
  x : Nat
  y : Nat
  width : Nat
  height : Nat
  deriving DecidableEq

/-- One entry of `regions`. -/
structure Region where
  nodeId : Nat
  kind : NodeKind
  title : Bytes
  rect : Rect
  focused : Bool
  followTail : Bool
  scrollable : Bool
  scrollTop : Nat
  scrollMax : Nat
  elided : Bool
  lines : List Bytes
  deriving DecidableEq

/-- The object that `writeProjectionJsonForRoot` writes. -/
structure Projection where
  title : Bytes
  rows : Nat
  cols : Nat
  rootNodeId : Nat
  viewRootNodeId : Option Nat
  focusedNodeId : Option Nat
  regions : List Region
  deriving DecidableEq

/-- `scrollTop`. -/
def LocalState.scrollTop (s : LocalState) (nodeId : Nat) : Option Nat :=
  (s.scrollOffsets.find? fun offset => offset.nodeId = nodeId).map (·.topLine)

/-! ## Text -/

/-- `'\n'`. -/
def newline : UInt8 := 10

/-- `std.ascii.isWhitespace`. -/
def isWhitespace (c : UInt8) : Bool :=
  c = 32 || c = 9 || c = 10 || c = 13 || c = 11 || c = 12

/-- `isBlankLine`. -/
def isBlankLine (line : Bytes) : Bool := line.all isWhitespace

/-- `trimTrailingCarriageReturn`. -/
def trimTrailingCarriageReturn (line : Bytes) : Bytes :=
  if line.getLast? = some 13 then line.dropLast else line

/-- `clipLine`. -/
def clipLine (line : Bytes) (width : Nat) : Bytes :=
  if line.length ≤ width then line
  else if width ≤ 1 then line.take width
  else line.take (width - 1) ++ ascii "$"

/-- `formatArtifactSections`. -/
def formatArtifactSections (sections : TerminalArtifactSections) : Bytes :=
  if sections.surface && sections.alternate then ascii "surface,alternate"
  else if sections.surface then ascii "surface"
  else if sections.alternate then ascii "alternate"
  else ascii "none"

/-- `@tagName` of a content format. -/
def TerminalArtifactContentFormat.tagName : TerminalArtifactContentFormat → Bytes
  | .plainText => ascii "plain_text"
  | .sectionedText => ascii "sectioned_text"

/-- A header line, followed by the content of the node if it has one. -/
def headed (header content : Bytes) : Bytes :=
  if content = [] then header else header ++ [newline] ++ content

/-- The part of `deriveRenderableText` that reads the source. -/
def sourceText (node : Node) : Bytes :=
  match node.source with
  | .tty tty =>
    let label := tty.paneId.getD tty.sessionName
    if node.lifecycle = .detached then
      headed (ascii "state :: detached tty source (" ++ label ++ ascii ")") node.content
    else if node.content ≠ [] then node.content
    else ascii "tty source " ++ label
  | .file file => if node.content ≠ [] then node.content else ascii "file source " ++ file.path
  | .terminalArtifact artifact =>
    headed (ascii "artifact :: origin=tty, session=" ++ artifact.sessionName.getD (ascii "-") ++
      ascii ", window=" ++ artifact.windowId.getD (ascii "-") ++
      ascii ", pane=" ++ artifact.paneId.getD (ascii "-") ++
      ascii ", format=" ++ artifact.contentFormat.tagName ++
      ascii ", sections=" ++ formatArtifactSections artifact.sections) node.content
  | .none => node.content

/-- `deriveRenderableText`. -/
def deriveRenderableText (node : Node) (elided : Bool) : Bytes :=
  if elided then ascii "... elided by shared view state ..."
  else
    match node.kind with
    | .document | .subdocument | .container | .hContainer | .vContainer => []
    | .scrollRegion => if node.children ≠ [] then [] else node.content
    | _ => sourceText node

/-- `innerExtent`. -/
def innerExtent (value : Nat) : Nat := if value > 2 then value - 2 else 0

/-- `ContentView`. -/
structure ContentView where
  visibleLines : List Bytes
  scrollTop : Nat
  scrollMax : Nat

/-- The lines of a text, without the blank lines at its end. -/
def renderableLines (text : Bytes) : List Bytes :=
  (((text.splitOn newline).map trimTrailingCarriageReturn).reverse.dropWhile isBlankLine).reverse

/-- `buildContentView`. -/
def buildContentView (node : Node) (rect : Rect) (localState : LocalState) (elided : Bool) :
    ContentView :=
  let innerWidth := innerExtent rect.width
  let innerHeight := innerExtent rect.height
  let text := deriveRenderableText node elided
  let lines := renderableLines text
  if innerWidth = 0 ∨ innerHeight = 0 ∨ text = [] ∨ lines = [] then ⟨[], 0, 0⟩
  else
    let scrollMax := lines.length - innerHeight
    let wanted := (localState.scrollTop node.id).getD
      (if node.followTail && scrollMax ≠ 0 then scrollMax else 0)
    let scrollTop := min wanted scrollMax
    ⟨((lines.drop scrollTop).take innerHeight).map (clipLine · innerWidth), scrollTop, scrollMax⟩

/-! ## Layout -/

/-- `shouldProjectChildren`. -/
def shouldProjectChildren : NodeKind → Bool
  | .document | .subdocument | .container | .hContainer | .vContainer | .scrollRegion => true
  | _ => false

/-- `shouldEmitRegion`. -/
def shouldEmitRegion (node : Node) (elided : Bool) : Bool :=
  if elided then true
  else
    match node.kind with
    | .container | .hContainer | .vContainer => false
    | .subdocument | .scrollRegion => !(node.children.length = 1 && node.content = [])
    | _ => true

/-- `isSingleLineChrome`. -/
def isSingleLineChrome : NodeKind → Bool
  | .modelineRegion | .menuRegion => true
  | _ => false

/-- `clampDimension`. -/
def clampDimension (value minimum : Nat) : Nat := if value < minimum then minimum else value

/-- A checked `u16` addition. -/
def addU16 (a b : Nat) : Except Failure Nat :=
  if a + b < u16Limit then .ok (a + b) else .error (.panic .integerOverflow)

/-- `@intCast` to `u16`. -/
def castU16 (n : Nat) : Except Failure Nat :=
  if n < u16Limit then .ok n else .error (.panic .integerCast)

/-- `insetRect`. -/
def insetRect (rect : Rect) : Except Failure Rect := do
  let x ← addU16 rect.x (if rect.width > 0 then 1 else 0)
  let y ← addU16 rect.y (if rect.height > 0 then 1 else 0)
  return ⟨x, y, innerExtent rect.width, innerExtent rect.height⟩

/-- The share of one child: one cell more while the remainder lasts. -/
def takeShare (base remainder : Nat) : Except Failure (Nat × Nat) := do
  if remainder ≠ 0 then return (← addU16 base 1, remainder - 1) else return (base, remainder)

/-- The running state of a layout loop. -/
structure LayoutCursor where
  position : Nat
  remainder : Nat
  regions : List Region

section Children

variable (d : Document) (project : Nat → Rect → Except Failure (List Region))

/-- `writeHorizontalChildren`. -/
def writeHorizontalChildren (node : Node) (rect : Rect) : Except Failure (List Region) := do
  if node.children = [] then return []
  let childCount ← castU16 node.children.length
  let done ← node.children.foldlM (fun (s : LayoutCursor) childId => do
    let (width, remainder) ← takeShare (rect.width / childCount) s.remainder
    let regions ← project childId ⟨s.position, rect.y, width, rect.height⟩
    return ⟨(s.position + width) % u16Limit, remainder, s.regions ++ regions⟩)
    ⟨rect.x, rect.width % childCount, []⟩
  return done.regions

/-- `writeEvenVerticalChildren`. -/
def writeEvenVerticalChildren (node : Node) (rect : Rect) : Except Failure (List Region) := do
  let childCount ← castU16 node.children.length
  let done ← node.children.foldlM (fun (s : LayoutCursor) childId => do
    let (height, remainder) ← takeShare (rect.height / childCount) s.remainder
    let regions ← project childId ⟨rect.x, s.position, rect.width, height⟩
    return ⟨(s.position + height) % u16Limit, remainder, s.regions ++ regions⟩)
    ⟨rect.y, rect.height % childCount, []⟩
  return done.regions

/-- The first loop of `writeVerticalChildren`: the height that chrome takes, with a saturating
sum, and the number of the other children. -/
def measureVertical (rect : Rect) (children : List Nat) : Except Failure (Nat × Nat) :=
  children.foldlM (fun (fixedTotal, flexibleCount) childId => do
    match ← d.findNode childId with
    | none => return (fixedTotal, flexibleCount)
    | some child =>
      if isSingleLineChrome child.kind then
        return (min (fixedTotal + min rect.height 3) (u16Limit - 1), flexibleCount)
      else return (fixedTotal, flexibleCount + 1)) (0, 0)

/-- `writeVerticalChildren`. -/
def writeVerticalChildren (node : Node) (rect : Rect) : Except Failure (List Region) := do
  if node.children = [] then return []
  let (fixedTotal, flexibleCount) ← measureVertical d rect node.children
  if fixedTotal ≥ rect.height ∨ fixedTotal + flexibleCount > rect.height then
    writeEvenVerticalChildren project node rect
  else
    let flexibleDivisor ← castU16 flexibleCount
    let remainingHeight := rect.height - fixedTotal
    let done ← node.children.foldlM (fun (s : LayoutCursor) childId => do
      let child ← d.nodeOr childId .unknownNode
      let (height, remainder) ←
        if isSingleLineChrome child.kind then pure (3, s.remainder)
        else takeShare (remainingHeight / flexibleDivisor) s.remainder
      let regions ← project childId ⟨rect.x, s.position, rect.width, height⟩
      return ⟨(s.position + height) % u16Limit, remainder, s.regions ++ regions⟩)
      ⟨rect.y, if flexibleCount = 0 then 0 else remainingHeight % flexibleDivisor, []⟩
    return done.regions

end Children

/-- The region of a node. -/
def regionOf (node : Node) (rect : Rect) (localState : LocalState) (elided : Bool) : Region :=
  let view := buildContentView node rect localState elided
  { nodeId := node.id
    kind := node.kind
    title := node.title
    rect := rect
    focused := localState.focusedNodeId = some node.id
    followTail := node.followTail
    scrollable := view.scrollMax ≠ 0
    scrollTop := view.scrollTop
    scrollMax := view.scrollMax
    elided := elided
    lines := view.visibleLines }

/-- `writeProjectedNode`. -/
def writeProjectedNode (d : Document) (localState : LocalState) :
    Nat → Nat → Rect → Except Failure (List Region)
  | 0, _, _ => .error .outOfFuel
  | fuel + 1, nodeId, rect => do
    let node ← d.nodeOr nodeId .unknownNode
    let elided := nodeId ∈ d.elidedNodeIds
    let emitRegion := shouldEmitRegion node elided
    let regions := if emitRegion then [regionOf node rect localState elided] else []
    if elided ∨ shouldProjectChildren node.kind = false ∨ node.children = [] then return regions
    let childRect ← if emitRegion then insetRect rect else pure rect
    if childRect.width = 0 ∨ childRect.height = 0 then return regions
    let project := writeProjectedNode d localState fuel
    let children ←
      if node.kind = .hContainer then writeHorizontalChildren project node childRect
      else writeVerticalChildren d project node childRect
    return regions ++ children

/-- `writeProjectionJsonForRoot`. -/
def writeProjectionForRoot (d : Document) (rootOverride : Option Nat)
    (request : ProjectionRequest) : Except Failure Projection := do
  let rows := clampDimension request.rows 8
  let cols := clampDimension request.cols 24
  let rootNodeId := (rootOverride.or d.viewRootNodeId).getD d.rootNodeId
  let regions ← writeProjectedNode d request.localState (d.nodeSlots.length + 1) rootNodeId
    ⟨0, 0, cols, rows⟩
  return {
    title := d.title
    rows := rows
    cols := cols
    rootNodeId := rootNodeId
    viewRootNodeId := rootOverride.or d.viewRootNodeId
    focusedNodeId := request.localState.focusedNodeId
    regions := regions }

end Muxly.Core
