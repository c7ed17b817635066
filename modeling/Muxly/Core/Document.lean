/-
# Muxly.Core.Document -- the live TOM document and its mutations

One definition for each function of `document.zig`, under its name. A document keeps its nodes in
slots: the node with id `n` sits in slot `n - 1`, and a removed node leaves its slot empty. A
mutation is an `Action`: what it has changed before it fails stays changed.

Pointers to nodes are ids here. A pointer that the source keeps across a lock operation is read
back with `deref`, which panics when the node is gone; loops run on fuel, and the facts about valid
documents show that neither is ever noticed.
-/
import Muxly.Control.Action
import Muxly.Core.Text
import Muxly.Data.SwapRemove
import Muxly.Tree.Forest

namespace Muxly.Core

open Muxly.Control Muxly.Data Muxly.Tree

/-- `muxml.Node`. -/
structure Node where
  id : Nat
  kind : NodeKind
  title : Bytes
  name : Option Bytes
  content : Bytes
  parentId : Option Nat
  children : List Nat
  source : Source
  lifecycle : LifecycleState
  followTail : Bool
  backendId : Option Bytes
  deriving DecidableEq, Repr

/-- `Node.init`. -/
def Node.init (id : Nat) (kind : NodeKind) (title : Bytes) (parentId : Option Nat)
    (source : Source) : Node where
  id := id
  kind := kind
  title := title
  name := none
  content := []
  parentId := parentId
  children := []
  source := source
  lifecycle := .live
  followTail := true
  backendId := none

/-- `Node.setContent`. -/
def Node.setContent (n : Node) (content : Bytes) : Node := { n with content := content }

/-- `Node.appendContent`. -/
def Node.appendContent (n : Node) (chunk : Bytes) : Node := { n with content := n.content ++ chunk }

/-- `Node.setTitle`. -/
def Node.setTitle (n : Node) (title : Bytes) : Node := { n with title := title }

/-- `Node.setName`. -/
def Node.setName (n : Node) (value : Option Bytes) : Except Failure Node :=
  match value with
  | some name =>
    if isValidNodeName name then .ok { n with name := some name }
    else .error (.error .invalidNodeName)
  | none => .ok { n with name := none }

/-- An assignment to `node.source`. -/
def Node.setSource (n : Node) (source : Source) : Node := { n with source := source }

/-- `Node.setBackendId`. -/
def Node.setBackendId (n : Node) (value : Bytes) : Node := { n with backendId := some value }

/-- `children.append`. -/
def Node.addChild (n : Node) (childId : Nat) : Node := { n with children := n.children ++ [childId] }

/-- The search and `children.swapRemove` of `detachChildFromParent`. -/
def Node.dropChild (n : Node) (childId : Nat) : Node :=
  { n with children := swapRemoveFirst childId n.children }

/-- `limits.default_max_document_content_bytes`. -/
def defaultMaxDocumentContentBytes : Nat := 1024 * 1024 * 1024

/-- Daemon-owned live TOM document. -/
structure Document where
  id : Nat
  title : Bytes
  lifecycle : LifecycleState
  rootNodeId : Nat
  viewRootNodeId : Option Nat
  nodeSlots : List (Option Node)
  liveNodeCount : Nat
  elidedNodeIds : List Nat
  contentBytes : Nat
  maxContentBytes : Nat
  nextNodeId : Nat
  deriving DecidableEq, Repr

/-- Code on one document. -/
abbrev DocM (α : Type) : Type := Action Document Failure α

namespace Document

/-- `Document.init`: a live document with a root node. -/
def init (id : Nat) (title : Bytes) : Document where
  id := id
  title := title
  lifecycle := .live
  rootNodeId := 1
  viewRootNodeId := none
  nodeSlots := [some { Node.init 1 .document title none .none with
    name := defaultNodeName title
    followTail := false }]
  liveNodeCount := 1
  elidedNodeIds := []
  contentBytes := 0
  maxContentBytes := defaultMaxDocumentContentBytes
  nextNodeId := 2

/-! ## Slots -/

/-- The node with an id, if it is live. -/
def lookup (d : Document) (nodeId : Nat) : Option Node :=
  match nodeId with
  | 0 => none
  | i + 1 => d.nodeSlots[i]?.join

/-- `findNode` and `findNodeConst`: `slotIndexForNodeId` asserts that the id is not 0. -/
def findNode (d : Document) (nodeId : Nat) : Except Failure (Option Node) :=
  if nodeId = 0 then .error (.panic .zeroNodeId) else .ok (d.lookup nodeId)

/-- `findNode(nodeId) orelse return e`. -/
def nodeOr (d : Document) (nodeId : Nat) (e : Err) : Except Failure Node := do
  match ← d.findNode nodeId with
  | some node => pure node
  | none => throw (.error e)

/-- Read through a node pointer that was resolved earlier. -/
def deref (d : Document) (nodeId : Nat) : Except Failure Node :=
  match d.lookup nodeId with
  | some node => .ok node
  | none => .error (.panic .danglingNode)

/-- Write through a node pointer. -/
def modifyNode (d : Document) (nodeId : Nat) (f : Node → Node) : Document :=
  { d with
    nodeSlots :=
      match nodeId with
      | 0 => d.nodeSlots
      | i + 1 => d.nodeSlots.modify i (Option.map f) }

/-- `setNodeSlot` after `ensureNodeSlotForId`: missing slots are filled with null. -/
def withSlot (d : Document) (nodeId : Nat) (slot : Option Node) : Document :=
  { d with
    nodeSlots :=
      match nodeId with
      | 0 => d.nodeSlots
      | i + 1 => (d.nodeSlots ++ List.replicate (i + 1 - d.nodeSlots.length) none).set i slot }

/-- `setNodeSlot`. -/
def setNodeSlot (nodeId : Nat) (slot : Option Node) : DocM Unit := do
  if nodeId = 0 then throw (.panic .zeroNodeId)
  modify (·.withSlot nodeId slot)

/-! ## Names among siblings -/

/-- `siblingNameInUse`. -/
def siblingNameInUse (d : Document) (parentId : Option Nat) (exemptNodeId : Option Nat)
    (name : Bytes) : Except Failure Bool := do
  let some resolvedParentId := parentId | return false
  let some parent ← d.findNode resolvedParentId | return false
  parent.children.anyM fun childId => do
    if exemptNodeId = some childId then return false
    let some child ← d.findNode childId | return false
    return child.name == some name

/-- The loop of `defaultChildName`: the first numbered name that no sibling uses. -/
def freeChildName (d : Document) (parentId : Nat) (baseName : Bytes) :
    Nat → Nat → Except Failure Bytes
  | 0, _ => .error .outOfFuel
  | fuel + 1, suffix => do
    let candidate := baseName ++ [dash] ++ decimal suffix
    if ← d.siblingNameInUse (some parentId) none candidate then
      d.freeChildName parentId baseName fuel (suffix + 1)
    else return candidate

/-- `defaultChildName`. -/
def defaultChildName (d : Document) (parentId : Nat) (title : Bytes) :
    Except Failure (Option Bytes) := do
  let some baseName := defaultNodeName title | return none
  if ← d.siblingNameInUse (some parentId) none baseName then
    let name ← d.freeChildName parentId baseName (d.nodeSlots.length + 1) 2
    return some name
  else return some baseName

/-! ## Adding a node -/

/-- `reserveNodeId`: the next stable node id. -/
def reserveNodeId : DocM Nat := fun d =>
  if d.nextNodeId + 1 < u64Limit then
    (.ok d.nextNodeId, { d with nextNodeId := d.nextNodeId + 1 })
  else (.error (.panic .integerOverflow), d)

/-- `prepareNodeWithId`: the payload of a node, with the document unchanged. -/
def prepareNodeWithId (d : Document) (nodeId parentId : Nat) (kind : NodeKind) (title : Bytes)
    (source : Source) : Except Failure Node := do
  let _ ← d.nodeOr parentId .unknownParent
  let name ← d.defaultChildName parentId title
  return { Node.init nodeId kind title (some parentId) source with
    name := name
    followTail := kind ≠ .staticFileLeaf }

/-- `commitPreparedNode`: link the node from its parent and put it into its slot. -/
def commitPreparedNode (parentId : Nat) (node : Node) : DocM Unit := do
  let _ ← Action.view fun d => d.nodeOr parentId .unknownParent
  modify (·.modifyNode parentId (·.addChild node.id))
  setNodeSlot node.id (some node)
  modify fun d => { d with liveNodeCount := d.liveNodeCount + 1 }

/-- `appendNode`. -/
def appendNode (parentId : Nat) (kind : NodeKind) (title : Bytes) (source : Source) :
    DocM Nat := do
  let nodeId ← reserveNodeId
  let node ← Action.view fun d => d.prepareNodeWithId nodeId parentId kind title source
  commitPreparedNode parentId node
  return nodeId

/-! ## Content and metadata -/

/-- `reserveAdditionalContentBytes`. -/
def reserveAdditionalContentBytes (d : Document) (additionalBytes : Nat) : Except Failure Unit :=
  if d.contentBytes > d.maxContentBytes then .error (.error .documentTooLarge)
  else if additionalBytes > d.maxContentBytes - d.contentBytes then
    .error (.error .documentTooLarge)
  else .ok ()

/-- `reserveReplacementContentBytes`. -/
def reserveReplacementContentBytes (d : Document) (existingBytes replacementBytes : Nat) :
    Except Failure Unit :=
  if existingBytes > d.contentBytes then .error (.error .documentTooLarge)
  else if d.contentBytes - existingBytes > d.maxContentBytes then
    .error (.error .documentTooLarge)
  else if replacementBytes > d.maxContentBytes - (d.contentBytes - existingBytes) then
    .error (.error .documentTooLarge)
  else .ok ()

/-- `appendTextToStableNode`. -/
def appendTextToStableNode (nodeId : Nat) (chunk : Bytes) : DocM Unit := do
  Action.view fun d => d.reserveAdditionalContentBytes chunk.length
  let _ ← Action.view fun d => d.deref nodeId
  modify fun d =>
    { d.modifyNode nodeId (·.appendContent chunk) with
      contentBytes := d.contentBytes + chunk.length }

/-- `setStableNodeContent`. -/
def setStableNodeContent (nodeId : Nat) (content : Bytes) : DocM Unit := do
  let node ← Action.view fun d => d.deref nodeId
  Action.view fun d => d.reserveReplacementContentBytes node.content.length content.length
  modify fun d =>
    { d.modifyNode nodeId (·.setContent content) with
      contentBytes := d.contentBytes - node.content.length + content.length }

/-- `appendTextToNode`. -/
def appendTextToNode (nodeId : Nat) (chunk : Bytes) : DocM Unit := do
  let _ ← Action.view fun d => d.nodeOr nodeId .unknownNode
  appendTextToStableNode nodeId chunk

/-- `setNodeContent`. -/
def setNodeContent (nodeId : Nat) (content : Bytes) : DocM Unit := do
  let _ ← Action.view fun d => d.nodeOr nodeId .unknownNode
  setStableNodeContent nodeId content

/-- `findNode(nodeId) orelse return error.UnknownNode`, then a write to the node. -/
def updateKnownNode (nodeId : Nat) (f : Node → Node) : DocM Unit := do
  let _ ← Action.view fun d => d.nodeOr nodeId .unknownNode
  modify (·.modifyNode nodeId f)

/-- `setNodeTitle`. -/
def setNodeTitle (nodeId : Nat) (title : Bytes) : DocM Unit :=
  updateKnownNode nodeId (·.setTitle title)

/-- `setNodeName`. -/
def setNodeName (nodeId : Nat) (name : Option Bytes) : DocM Unit := do
  let node ← Action.view fun d => d.nodeOr nodeId .unknownNode
  if let some value := name then
    if ← Action.view fun d => d.siblingNameInUse node.parentId (some nodeId) value then
      throw (.error .duplicateNodeName)
  let renamed ← Action.lift (node.setName name)
  modify (·.modifyNode nodeId fun _ => renamed)

/-- `setFollowTail`. -/
def setFollowTail (nodeId : Nat) (enabled : Bool) : DocM Unit :=
  updateKnownNode nodeId fun node => { node with followTail := enabled }

/-- `setNodeBackendId`. -/
def setNodeBackendId (nodeId : Nat) (backendId : Bytes) : DocM Unit :=
  updateKnownNode nodeId (·.setBackendId backendId)

/-- `freezeTtyNodeAsArtifact`. -/
def freezeTtyNodeAsArtifact (nodeId : Nat) (artifactKind : TerminalArtifactKind)
    (sections : TerminalArtifactSections) : DocM Unit := do
  let node ← Action.view fun d => d.nodeOr nodeId .unknownNode
  match node.source with
  | .tty tty =>
    let artifact := TerminalArtifactSource.fromTty tty artifactKind sections
    modify (·.modifyNode nodeId fun node =>
      { node with source := .terminalArtifact artifact, lifecycle := .frozen })
  | _ => throw (.error .invalidSourceKind)

/-! ## Traversals -/

/-- `walkPreorder`, with the state of the visitor and the errors that the visitor may raise. -/
def walkPreorderWith {ε σ : Type} (fail : Failure → ε) (d : Document)
    (visit : σ → Node → Except ε σ) (s : σ) : Except ε σ := do
  let _ ← (d.nodeOr d.rootNodeId .missingRootNode).mapError fail
  stackLoop (fun nodeId s => do
    let node ← (d.nodeOr nodeId .unknownNode).mapError fail
    let s ← visit s node
    return (node.children, s)) (fail .outOfFuel) (d.nodeSlots.length + 1) [d.rootNodeId] s

/-- `walkPreorder` with a visitor that raises no errors of its own. -/
def walkPreorder {σ : Type} (d : Document) (visit : σ → Node → Except Failure σ) (s : σ) :
    Except Failure σ :=
  d.walkPreorderWith (fun failure => failure) visit s

/-- `collectPreorderNodeIdsAlloc`. -/
def collectPreorderNodeIds (d : Document) : Except Failure (List Nat) :=
  d.walkPreorder (fun nodeIds node => .ok (nodeIds ++ [node.id])) []

/-- The container kinds whose children are domains of their own. -/
structure ConcurrentContainerKinds where
  horizontal : Bool
  vertical : Bool

/-- `containerChildDomainsEnabled`. -/
def containerChildDomainsEnabled (kind : NodeKind) (enabled : ConcurrentContainerKinds) : Bool :=
  match kind with
  | .hContainer => enabled.horizontal
  | .vContainer => enabled.vertical
  | _ => false

/-- The loop of `concurrentContainerDomainRoot`. -/
def domainRootLoop (d : Document) (enabled : ConcurrentContainerKinds) :
    Nat → Nat → Except Failure (Option Nat)
  | 0, _ => .error .outOfFuel
  | fuel + 1, currentId => do
    let node ← d.nodeOr currentId .unknownNode
    let some parentId := node.parentId | throw (.error .unknownParent)
    if parentId = d.rootNodeId then return some currentId
    let parent ← d.nodeOr parentId .unknownParent
    if containerChildDomainsEnabled parent.kind enabled then return some currentId
    d.domainRootLoop enabled fuel parentId

/-- `concurrentContainerDomainRoot`: the nearest enabled concurrent domain root of a node. -/
def concurrentContainerDomainRoot (d : Document) (nodeId : Nat)
    (enabled : ConcurrentContainerKinds) : Except Failure (Option Nat) :=
  if nodeId = d.rootNodeId then .ok none
  else d.domainRootLoop enabled (d.nodeSlots.length + 1) nodeId

/-- The ways in which a search loop stops early: with its answer, or with a failure. -/
inductive Early (α : Type) where
  | found (answer : α)
  | failed (failure : Failure)

/-- The answer of a search loop; one that runs to its end has found nothing. -/
def Early.conclude {σ α : Type} (nothing : α) : Except (Early α) σ → Except Failure α
  | .ok _ => .ok nothing
  | .error (.found answer) => .ok answer
  | .error (.failed failure) => .error failure

/-- A failure inside a search loop. -/
def Early.guard {α β : Type} : Except Failure β → Except (Early α) β
  | .ok b => .ok b
  | .error failure => .error (.failed failure)

/-- The inner loop of `subtreeContainsEnabledContainerKinds`: every child is checked before it is
pushed, so the last child ends up on top of the stack. -/
def scanChildren (d : Document) (enabled : ConcurrentContainerKinds) :
    List Nat → List Nat → Except (Early Bool) (List Nat)
  | [], pushed => .ok pushed
  | childId :: rest, pushed => do
    let child ← Early.guard (d.nodeOr childId .unknownChild)
    if containerChildDomainsEnabled child.kind enabled then throw (.found true)
    d.scanChildren enabled rest (childId :: pushed)

/-- `subtreeContainsEnabledContainerKinds`. -/
def subtreeContainsEnabledContainerKinds (d : Document) (nodeId : Nat)
    (enabled : ConcurrentContainerKinds) : Except Failure Bool := do
  let node ← d.nodeOr nodeId .unknownNode
  if containerChildDomainsEnabled node.kind enabled then return true
  Early.conclude false (stackLoop (fun currentId (_ : Unit) => do
    let current ← Early.guard (d.nodeOr currentId .unknownNode)
    let pushed ← d.scanChildren enabled current.children []
    return (pushed, ())) (.failed .outOfFuel) (d.nodeSlots.length + 1) [nodeId] ())

/-- `collectSubtreePostorderAlloc`: a frame is a node and whether it was expanded. -/
def collectSubtreePostorder (d : Document) (nodeId : Nat) : Except Failure (List Nat) := do
  let _ ← d.nodeOr nodeId .unknownNode
  stackLoop (fun (frame : Nat × Bool) postorder => do
    let current ← d.nodeOr frame.1 .unknownNode
    if frame.2 then return ([], postorder ++ [frame.1])
    else return ((current.children.map fun childId => (childId, false)) ++ [(frame.1, true)],
      postorder)) .outOfFuel (2 * d.nodeSlots.length + 1) [(nodeId, false)] []

/-- `totalContentBytesForNodes`. -/
def totalContentBytesForNodes (d : Document) (nodeIds : List Nat) : Except Failure Nat :=
  nodeIds.foldlM (fun total nodeId => do
    let node ← d.nodeOr nodeId .unknownNode
    if total + node.content.length < u64Limit then return total + node.content.length
    else throw (.error .contentAccountingDrift)) 0

/-! ## Removing nodes -/

/-- `detachChildFromParent`. -/
def detachChildFromParent (parentId childId : Nat) : DocM Unit := do
  let _ ← Action.view fun d => d.nodeOr parentId .unknownParent
  modify (·.modifyNode parentId (·.dropChild childId))

/-- `removeNodeRegistryOnly`. -/
def removeNodeRegistryOnly (nodeId : Nat) : DocM Unit := do
  let _ ← Action.view fun d => d.nodeOr nodeId .unknownNode
  modify (·.withSlot nodeId none)
  if (← get).liveNodeCount = 0 then throw (.panic .integerOverflow)
  modify fun d => { d with
    liveNodeCount := d.liveNodeCount - 1
    viewRootNodeId := if d.viewRootNodeId = some nodeId then none else d.viewRootNodeId
    elidedNodeIds := swapRemoveFirst nodeId d.elidedNodeIds }

/-- `removeDetachedPostorder`. -/
def removeDetachedPostorder (postorder : List Nat) (totalContentBytes : Nat) : DocM Unit := do
  if totalContentBytes > (← get).contentBytes then throw (.error .contentAccountingDrift)
  postorder.forM removeNodeRegistryOnly
  modify fun d => { d with contentBytes := d.contentBytes - totalContentBytes }

/-- `removeNode`: remove a leaf. -/
def removeNode (nodeId : Nat) : DocM Unit := do
  let node ← Action.view fun d => d.nodeOr nodeId .unknownNode
  if node.children ≠ [] then throw (.error .nodeHasChildren)
  let totalContentBytes ← Action.view fun d => d.totalContentBytesForNodes [nodeId]
  if let some parentId := node.parentId then detachChildFromParent parentId nodeId
  removeDetachedPostorder [nodeId] totalContentBytes

/-- `removeSubtree`. -/
def removeSubtree (nodeId : Nat) : DocM Unit := do
  if nodeId = (← get).rootNodeId then throw (.error .nodeHasChildren)
  let target ← Action.view fun d => d.nodeOr nodeId .unknownNode
  let postorder ← Action.view fun d => d.collectSubtreePostorder nodeId
  let totalContentBytes ← Action.view fun d => d.totalContentBytesForNodes postorder
  let some parentId := target.parentId | throw (.error .unknownParent)
  detachChildFromParent parentId nodeId
  removeDetachedPostorder postorder totalContentBytes

/-! ## View state -/

/-- `setViewRoot`. -/
def setViewRoot (nodeId : Nat) : DocM Unit := do
  let _ ← Action.view fun d => d.nodeOr nodeId .unknownNode
  modify fun d => { d with viewRootNodeId := some nodeId }

/-- `clearViewRoot`. -/
def clearViewRoot : DocM Unit := modify fun d => { d with viewRootNodeId := none }

/-- `resetView`. -/
def resetView : DocM Unit := modify fun d => { d with viewRootNodeId := none, elidedNodeIds := [] }

/-- `toggleElided`. -/
def toggleElided (nodeId : Nat) : DocM Unit := do
  let _ ← Action.view fun d => d.nodeOr nodeId .unknownNode
  modify fun d => { d with
    elidedNodeIds :=
      if nodeId ∈ d.elidedNodeIds then swapRemoveFirst nodeId d.elidedNodeIds
      else d.elidedNodeIds ++ [nodeId] }

/-- `setElided`. -/
def setElided (nodeId : Nat) (enabled : Bool) : DocM Unit := do
  let _ ← Action.view fun d => d.nodeOr nodeId .unknownNode
  modify fun d => { d with
    elidedNodeIds :=
      if nodeId ∈ d.elidedNodeIds then
        if enabled then d.elidedNodeIds else swapRemoveFirst nodeId d.elidedNodeIds
      else if enabled then d.elidedNodeIds ++ [nodeId] else d.elidedNodeIds }

/-- `setMaxContentBytes`. -/
def setMaxContentBytes (d : Document) (maxContentBytes : Nat) : Document :=
  { d with maxContentBytes := maxContentBytes }

/-- `freeze`: mark the entire document as frozen. -/
def freeze : DocM Unit := modify fun d => { d with lifecycle := .frozen }

/-! ## Lookup by backend id -/

/-- `findNodeByBackendId`. -/
def findNodeByBackendId (d : Document) (backendId : Bytes) : Except Failure (Option Node) :=
  Early.conclude none (stackLoop (fun nodeId (_ : Unit) => do
    match ← Early.guard (d.findNode nodeId) with
    | none => return ([], ())
    | some node =>
      if node.backendId = some backendId then throw (.found (some node))
      return (node.children, ())) (.failed .outOfFuel) (d.nodeSlots.length + 1) [d.rootNodeId] ())

/-- `findChildByBackendId`. -/
def findChildByBackendId (d : Document) (parentId : Nat) (kind : NodeKind) (backendId : Bytes) :
    Except Failure (Option Nat) := do
  let some parent ← d.findNode parentId | return none
  parent.children.findM? fun childId => do
    let some child ← d.findNode childId | return false
    return child.kind = kind && child.backendId == some backendId

/-! ## Selectors -/

/-- `parseDirectNodeReference`. -/
def parseDirectNodeReference (segment : Bytes) : Option Nat :=
  match segment with
  | [] => none
  | c :: rest =>
    if c = atSign then parseUnsigned rest
    else
      match afterPrefix nodePrefix segment with
      | some number => parseUnsigned number
      | none => parseUnsigned segment

/-- `nodeMatchesSegment`. -/
def nodeMatchesSegment (node : Node) (segment : Bytes) : Bool :=
  node.name == some segment || decimal node.id == segment ||
    nodePrefix ++ decimal node.id == segment

/-- `resolveChildBySegment`. -/
def resolveChildBySegment (d : Document) (parentId : Nat) (segment : Bytes) :
    Except Failure Nat := do
  let parent ← d.nodeOr parentId .invalidResourceSelector
  let matched ← parent.children.filterM fun childId => do
    let some child ← d.findNode childId | return false
    return nodeMatchesSegment child segment
  match matched with
  | [] => throw (.error .unknownResourceSelectorSegment)
  | [matchedId] => return matchedId
  | _ => throw (.error .ambiguousResourceSelector)

/-- One segment of `resolveSelector`. -/
def resolveSegment (d : Document) (currentId : Nat) (segment : Bytes) :
    Except Failure Nat := do
  if segment = [] ∨ segment = ascii "." then return currentId
  if segment = ascii ".." then
    let currentNode ← d.nodeOr currentId .invalidResourceSelector
    let some parentId := currentNode.parentId | throw (.error .resourceSelectorEscapesRoot)
    return parentId
  match parseDirectNodeReference segment with
  | some directId =>
    let _ ← d.nodeOr directId .unknownResourceSelectorSegment
    return directId
  | none => d.resolveChildBySegment currentId segment

/-- `resolveSelector`. -/
def resolveSelector (d : Document) (selector : Option Bytes) : Except Failure Nat :=
  match selector with
  | none => .ok d.rootNodeId
  | some text =>
    if text = [] ∨ text = [slash] then .ok d.rootNodeId
    else (text.splitOn slash).foldlM d.resolveSegment d.rootNodeId

/-! ## Validation -/

/-- What the visitor of `validate` accumulates: the ids seen, in order, and their content bytes. -/
structure ValidateState where
  seen : List Nat
  contentBytes : Nat

/-- The check of the child links of one node in `validate`. -/
def validateChildren (d : Document) (node : Node) : List Nat → List Nat → Except Failure Unit
  | _, [] => .ok ()
  | childSeen, childId :: rest => do
    if childId ∈ childSeen then throw (.error .duplicateChildLink)
    let child ← d.nodeOr childId .unknownChild
    if child.parentId ≠ some node.id then throw (.error .childParentMismatch)
    d.validateChildren node (childId :: childSeen) rest

/-- The visitor of `validate`. -/
def validateNode (d : Document) (s : ValidateState) (node : Node) :
    Except Failure ValidateState := do
  if node.id ∈ s.seen then throw (.error .duplicateNodeId)
  if u64Limit ≤ s.contentBytes + node.content.length then throw (.error .contentAccountingDrift)
  if node.id = d.rootNodeId then
    if node.parentId.isSome then throw (.error .rootNodeHasParent)
    if node.kind ≠ .document then throw (.error .rootNodeKindMismatch)
  else
    let some parentId := node.parentId | throw (.error .nonRootNodeMissingParent)
    let parent ← d.nodeOr parentId .unknownParent
    if node.id ∉ parent.children then throw (.error .parentMissingChildLink)
  d.validateChildren node [] node.children
  return { seen := s.seen ++ [node.id], contentBytes := s.contentBytes + node.content.length }

/-- What `validate` reports. -/
structure ValidationSummary where
  nodeCount : Nat
  contentBytes : Nat

/-- `validate`. -/
def validate (d : Document) : Except Failure ValidationSummary := do
  let _ ← d.nodeOr d.rootNodeId .missingRootNode
  let visited ← d.walkPreorder d.validateNode ⟨[], 0⟩
  if visited.seen.length ≠ d.liveNodeCount then throw (.error .unreachableNode)
  if d.nodeSlots.any fun slot => slot.any fun node => node.id ∉ visited.seen then
    throw (.error .unreachableNode)
  if visited.contentBytes ≠ d.contentBytes then throw (.error .contentAccountingDrift)
  if let some viewRootNodeId := d.viewRootNodeId then
    let _ ← d.nodeOr viewRootNodeId .unknownViewRootNode
  d.elidedNodeIds.forM fun nodeId => do
    let _ ← d.nodeOr nodeId .unknownElidedNode
  return { nodeCount := d.liveNodeCount, contentBytes := visited.contentBytes }

end Document

end Muxly.Core
