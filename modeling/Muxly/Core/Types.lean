/-
# Muxly.Core.Types -- the vocabulary of the live TOM

Node kinds, lifecycle, source metadata and the errors of the daemon. Node and document ids are
plain numbers; 0 is not the id of any node. A panic (a failed assertion or
a checked arithmetic fault) is kept apart from an error: an error becomes a response, a panic ends
the process.
-/
import Mathlib.Algebra.Group.Nat.Defs

namespace Muxly.Core

/-- Text as the daemon sees it: any bytes. -/
abbrev Bytes := List UInt8

instance : LawfulBEq Bytes := inferInstance

/-- The bytes of an ASCII text. -/
def ascii (s : String) : Bytes := s.toList.map fun c => UInt8.ofNat c.toNat

/-- The first number outside `u64` and `usize`. -/
def u64Limit : Nat := 2 ^ 64

/-! ## Nodes -/

/-- Lifecycle state for documents and nodes. -/
inductive LifecycleState where
  | live
  | readOnly
  | frozen
  | detached
  deriving DecidableEq, Repr

/-- Structural node kinds in the TOM. -/
inductive NodeKind where
  | document
  | subdocument
  | container
  | hContainer
  | vContainer
  | scrollRegion
  | textLeaf
  | ttyLeaf
  | monitoredFileLeaf
  | staticFileLeaf
  | monitorLeaf
  | modelineRegion
  | menuRegion
  deriving DecidableEq, Repr

/-- `@tagName` of a node kind. -/
def NodeKind.tagName : NodeKind → Bytes
  | .document => ascii "document"
  | .subdocument => ascii "subdocument"
  | .container => ascii "container"
  | .hContainer => ascii "h_container"
  | .vContainer => ascii "v_container"
  | .scrollRegion => ascii "scroll_region"
  | .textLeaf => ascii "text_leaf"
  | .ttyLeaf => ascii "tty_leaf"
  | .monitoredFileLeaf => ascii "monitored_file_leaf"
  | .staticFileLeaf => ascii "static_file_leaf"
  | .monitorLeaf => ascii "monitor_leaf"
  | .modelineRegion => ascii "modeline_region"
  | .menuRegion => ascii "menu_region"

/-- The fields of `NodeKind`, in order. -/
def NodeKind.fields : List NodeKind :=
  [.document, .subdocument, .container, .hContainer, .vContainer, .scrollRegion, .textLeaf,
    .ttyLeaf, .monitoredFileLeaf, .staticFileLeaf, .monitorLeaf, .modelineRegion, .menuRegion]

/-! ## Sources -/

/-- File-backed leaf behaviour. -/
inductive FileMode where
  | monitored
  | static
  deriving DecidableEq, Repr

/-- Provenance of a live tty-backed leaf. -/
structure TtySource where
  sessionName : Bytes
  windowId : Option Bytes
  paneId : Option Bytes
  deriving DecidableEq, Repr

/-- Durable terminal artifact family. -/
inductive TerminalArtifactKind where
  | text
  | surface
  deriving DecidableEq, Repr

/-- Payload shape of a terminal artifact. -/
inductive TerminalArtifactContentFormat where
  | plainText
  | sectionedText
  deriving DecidableEq, Repr

/-- Section flags of a sectioned artifact payload. -/
structure TerminalArtifactSections where
  surface : Bool
  alternate : Bool
  deriving DecidableEq, Repr

/-- Durable metadata of a frozen terminal artifact; its origin is always a tty. -/
structure TerminalArtifactSource where
  artifactKind : TerminalArtifactKind
  contentFormat : TerminalArtifactContentFormat
  sections : TerminalArtifactSections
  sessionName : Option Bytes
  windowId : Option Bytes
  paneId : Option Bytes
  deriving DecidableEq, Repr

/-- `TerminalArtifactSource.fromTty`. -/
def TerminalArtifactSource.fromTty (tty : TtySource) (artifactKind : TerminalArtifactKind)
    (sections : TerminalArtifactSections) : TerminalArtifactSource where
  artifactKind := artifactKind
  contentFormat :=
    match artifactKind with
    | .text => .plainText
    | .surface => .sectionedText
  sections := sections
  sessionName := some tty.sessionName
  windowId := tty.windowId
  paneId := tty.paneId

/-- File provenance of a file-backed leaf. -/
structure FileSource where
  path : Bytes
  mode : FileMode
  deriving DecidableEq, Repr

/-- Leaf source metadata attached to nodes. -/
inductive Source where
  | none
  | tty (tty : TtySource)
  | terminalArtifact (artifact : TerminalArtifactSource)
  | file (file : FileSource)
  deriving DecidableEq, Repr

/-! ## Failures -/

/-- The errors that the code returns, under the names of the source. -/
inductive Err where
  | unknownNode
  | unknownParent
  | unknownChild
  | nodeHasChildren
  | documentTooLarge
  | contentAccountingDrift
  | duplicateNodeName
  | invalidNodeName
  | invalidSourceKind
  | missingPaneId
  | invalidResourceSelector
  | unknownResourceSelectorSegment
  | ambiguousResourceSelector
  | resourceSelectorEscapesRoot
  | missingRootNode
  | duplicateNodeId
  | rootNodeHasParent
  | rootNodeKindMismatch
  | nonRootNodeMissingParent
  | parentMissingChildLink
  | duplicateChildLink
  | childParentMismatch
  | unreachableNode
  | unknownViewRootNode
  | unknownElidedNode
  | missingNodeTarget
  | invalidNodeTarget
  | unsupportedDocumentPath
  | invalidDocumentPath
  | documentAlreadyExists
  | rootDocumentOnlyTarget
  | missingRows
  | missingCols
  | invalidViewport
  | invalidFocusedNode
  | invalidParamsShape
  | invalidScrollOffsets
  | invalidScrollOffset
  | unknownPane
  | emptySnapshot
  | mixedSessionSnapshot
  /-- An error of a backend outside the store: tmux, the file system, a closed stream. -/
  | backend (name : Bytes)
  deriving DecidableEq, Repr

/-- `@errorName`. -/
def Err.name : Err → Bytes
  | .unknownNode => ascii "UnknownNode"
  | .unknownParent => ascii "UnknownParent"
  | .unknownChild => ascii "UnknownChild"
  | .nodeHasChildren => ascii "NodeHasChildren"
  | .documentTooLarge => ascii "DocumentTooLarge"
  | .contentAccountingDrift => ascii "ContentAccountingDrift"
  | .duplicateNodeName => ascii "DuplicateNodeName"
  | .invalidNodeName => ascii "InvalidNodeName"
  | .invalidSourceKind => ascii "InvalidSourceKind"
  | .missingPaneId => ascii "MissingPaneId"
  | .invalidResourceSelector => ascii "InvalidResourceSelector"
  | .unknownResourceSelectorSegment => ascii "UnknownResourceSelectorSegment"
  | .ambiguousResourceSelector => ascii "AmbiguousResourceSelector"
  | .resourceSelectorEscapesRoot => ascii "ResourceSelectorEscapesRoot"
  | .missingRootNode => ascii "MissingRootNode"
  | .duplicateNodeId => ascii "DuplicateNodeId"
  | .rootNodeHasParent => ascii "RootNodeHasParent"
  | .rootNodeKindMismatch => ascii "RootNodeKindMismatch"
  | .nonRootNodeMissingParent => ascii "NonRootNodeMissingParent"
  | .parentMissingChildLink => ascii "ParentMissingChildLink"
  | .duplicateChildLink => ascii "DuplicateChildLink"
  | .childParentMismatch => ascii "ChildParentMismatch"
  | .unreachableNode => ascii "UnreachableNode"
  | .unknownViewRootNode => ascii "UnknownViewRootNode"
  | .unknownElidedNode => ascii "UnknownElidedNode"
  | .missingNodeTarget => ascii "MissingNodeTarget"
  | .invalidNodeTarget => ascii "InvalidNodeTarget"
  | .unsupportedDocumentPath => ascii "UnsupportedDocumentPath"
  | .invalidDocumentPath => ascii "InvalidDocumentPath"
  | .documentAlreadyExists => ascii "DocumentAlreadyExists"
  | .rootDocumentOnlyTarget => ascii "RootDocumentOnlyTarget"
  | .missingRows => ascii "MissingRows"
  | .missingCols => ascii "MissingCols"
  | .invalidViewport => ascii "InvalidViewport"
  | .invalidFocusedNode => ascii "InvalidFocusedNode"
  | .invalidParamsShape => ascii "InvalidParamsShape"
  | .invalidScrollOffsets => ascii "InvalidScrollOffsets"
  | .invalidScrollOffset => ascii "InvalidScrollOffset"
  | .unknownPane => ascii "UnknownPane"
  | .emptySnapshot => ascii "EmptySnapshot"
  | .mixedSessionSnapshot => ascii "MixedSessionSnapshot"
  | .backend name => name

/-- The ways in which checked code aborts the process. -/
inductive Panic where
  /-- `slotIndexForNodeId` asserts that the id is not 0. -/
  | zeroNodeId
  /-- `@intCast` of a number outside the target type. -/
  | integerCast
  /-- An addition, subtraction or multiplication outside the type. -/
  | integerOverflow
  /-- `unreachable`. -/
  | reachedUnreachable
  /-- A pointer to a node that was freed. -/
  | danglingNode
  deriving DecidableEq, Repr

/-- How code stops without a value. `outOfFuel` marks a loop that the model cut off. -/
inductive Failure where
  | error (e : Err)
  | panic (p : Panic)
  | outOfFuel
  deriving DecidableEq, Repr

end Muxly.Core
