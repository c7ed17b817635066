/-
# Muxly.Daemon.Runtime -- the locks of one document and the request guards built from them

`DocumentRuntime` with its planner: which domain locks a request needs, how they are taken, checked
against the topology revision, retried and given back. The short critical sections of the two lock
maps are single steps. Lock maps only ever grow, so a map is the list of its keys; the parent lock
map is left out, since no code reads whether one of its keys is present.

The phase of a thread (`GuardPhase`) is the auxiliary tag of its program: it records when a plan is
published, when a guard is held, and which node the handler resolved.
-/
import Mathlib.Data.List.Sort
import Muxly.Daemon.Protocol
import Muxly.Sync.Program

namespace Muxly.Daemon

open Muxly.Control Muxly.Core Muxly.Sync Muxly.Tree

/-! ## State -/

/-- The mutexes of one document. -/
inductive Mutex where
  | coordinator
  | domain (domainId : Nat)
  | parent (parentId : Nat)
  | globalStructureFallback
  | nodeRegistry
  | contentBytes
  deriving DecidableEq

/-- `DocumentRuntime`: the topology revision and the keys of `domain_locks`. -/
structure DocumentRuntime where
  topologyRevision : Nat
  domainIds : List Nat
  nodup : domainIds.Nodup
  deriving DecidableEq

/-- `DocumentEntry`. -/
structure DocumentEntry where
  path : Bytes
  document : Document
  runtime : DocumentRuntime
  deriving DecidableEq

/-- `DocumentRuntime.init`. -/
def DocumentRuntime.init : DocumentRuntime where
  topologyRevision := 0
  domainIds := []
  nodup := List.nodup_nil

namespace DocumentEntry

/-- `markTopologyChanged`. -/
def markTopologyChanged (e : DocumentEntry) : DocumentEntry :=
  { e with runtime := { e.runtime with topologyRevision := e.runtime.topologyRevision + 1 } }

/-- `ensureDomainLock`. -/
def ensureDomainLock (e : DocumentEntry) (domainId : Nat) : DocumentEntry :=
  if h : domainId ∈ e.runtime.domainIds then e
  else { e with
    runtime := { e.runtime with
      domainIds := e.runtime.domainIds ++ [domainId]
      nodup := List.nodup_append_comm.mp (e.runtime.nodup.cons h) } }

/-- `snapshotDomainIds`: the keys in ascending order. -/
def snapshotDomainIds (e : DocumentEntry) : List Nat := e.runtime.domainIds.insertionSort (· ≤ ·)

/-- Code on the document of an entry, inside one data step. -/
def onDocument {α : Type} (m : DocM α) : Action DocumentEntry Failure α := fun e =>
  ((m e.document).1, { e with document := (m e.document).2 })

end DocumentEntry

/-! ## Plans and guards -/

/-- `DomainWritePlan`. -/
inductive DomainWritePlan where
  | content (domainId : Nat)
  | structural (domainId parentId : Nat)
  deriving DecidableEq

/-- `RemoveExecutionMode`. -/
inductive RemoveExecutionMode where
  | rootPolicyReject
  | leafDomainSafe
  | leafCoordinator
  | recursiveDomainSafe
  | recursiveCoordinatorSafe
  | unsupported
  deriving DecidableEq

/-- `DynamicGuardPlan`. -/
inductive DynamicGuardPlan where
  | none
  | domainWrite (revision domainId : Nat)
  | structuralWrite (revision domainId parentId : Nat)
  | participatingDomainWrite (revision : Nat) (domainIds : List Nat)
  deriving DecidableEq

/-- `RequestGuard`. -/
inductive RequestGuard where
  | none
  | coordinatorExclusive (domainIds : List Nat)
  | quiescentRead (domainIds : List Nat)
  | participatingDomainWrite (domainIds : List Nat)
  | domainWrite (domainId : Nat)
  | structuralWrite (domainId parentId : Nat)
  deriving DecidableEq

/-- `intoRequestGuard`. -/
def DynamicGuardPlan.intoRequestGuard : DynamicGuardPlan → RequestGuard
  | .none => .none
  | .domainWrite _ domainId => .domainWrite domainId
  | .structuralWrite _ domainId parentId => .structuralWrite domainId parentId
  | .participatingDomainWrite _ domainIds => .participatingDomainWrite domainIds

/-- `revisionMatches`. -/
def DynamicGuardPlan.revisionMatches (e : DocumentEntry) : DynamicGuardPlan → Bool
  | .none => true
  | .domainWrite revision _ => e.runtime.topologyRevision = revision
  | .structuralWrite revision _ _ => e.runtime.topologyRevision = revision
  | .participatingDomainWrite revision _ => e.runtime.topologyRevision = revision

/-- What the handler of a request writes: the content of a node, the links of a node that gets a
child, or the subtree of a node. -/
inductive WriteTarget where
  | content (nodeId : Nat)
  | append (parentId : Nat)
  | remove (nodeId : Nat)
  deriving DecidableEq

/-- The node of a target. -/
def WriteTarget.nodeId : WriteTarget → Nat
  | .content nodeId => nodeId
  | .append parentId => parentId
  | .remove nodeId => nodeId

/-- A guard that is held: the document that the planner saw, what it resolved there, the node that
the handler resolved, and the content bytes that a removal has measured and not yet subtracted. -/
structure Grant where
  guard : RequestGuard
  topology : Document
  target : Option WriteTarget
  resolved : Option Nat
  measured : Option Nat
  deriving DecidableEq

/-- The phase of a thread. -/
inductive GuardPhase where
  | idle
  /-- The domain locks of `guard` were listed and are being taken. -/
  | claiming (guard : RequestGuard)
  | planned (plan : DynamicGuardPlan) (topology : Document) (target : Option WriteTarget)
  | held (grant : Grant)
  deriving DecidableEq

/-- The phase of a guard that was just granted. -/
def GuardPhase.granted (guard : RequestGuard) (topology : Document)
    (target : Option WriteTarget) : GuardPhase :=
  .held { guard := guard, topology := topology, target := target, resolved := none, measured := none }

/-- Record something about the guard that is held. -/
def GuardPhase.record (f : Grant → Grant) : GuardPhase → GuardPhase
  | .held grant => .held (f grant)
  | phase => phase

/-- Code of one thread on one document. -/
abbrev EntryM (α : Type) : Type := Program Mutex DocumentEntry GuardPhase Failure α

/-! ## Planning -/

/-- `catch |err| switch (err)`: the listed errors become null. -/
def catchNull {α : Type} (listed : Err → Bool) : Except Failure α → Except Failure (Option α)
  | .ok a => .ok (some a)
  | .error (.error e) => if listed e then .ok none else .error (.error e)
  | .error failure => .error failure

/-- The errors of a node target that the planner turns into no plan. -/
def isTargetError : Err → Bool
  | .missingNodeTarget | .invalidNodeTarget | .unknownResourceSelectorSegment
  | .ambiguousResourceSelector | .invalidResourceSelector | .resourceSelectorEscapesRoot => true
  | _ => false

/-- The errors of a climb that the planner turns into no plan. -/
def isTopologyError : Err → Bool
  | .unknownNode | .unknownParent => true
  | _ => false

/-- `enabledConcurrentContainerKinds`. -/
def enabledConcurrentContainerKinds : Document.ConcurrentContainerKinds where
  horizontal := true
  vertical := true

/-- A node of this kind gives every child a domain of its own. -/
def isConcurrentContainer (kind : NodeKind) : Bool := kind = .hContainer || kind = .vContainer

/-- `resolveRequestNodeIdWithStableTopology`. -/
def resolveRequestNodeId (d : Document) (request : RequestEnvelope) : Except Failure Nat :=
  match request.target.bind (·.nodeId) with
  | some nodeId => .ok nodeId.toNat
  | none =>
    match request.target.bind (·.selector) with
    | some selector => d.resolveSelector (some selector)
    | none =>
      match getInteger request.params (ascii "nodeId") with
      | none => .error (.error .missingNodeTarget)
      | some nodeId =>
        if nodeId < 0 then .error (.error .invalidNodeTarget) else intCast u64Limit nodeId

/-- `classifyRemoveExecutionMode`. -/
def classifyRemoveExecutionMode (d : Document) (nodeId : Nat) :
    Except Failure RemoveExecutionMode := do
  if nodeId = d.rootNodeId then return .rootPolicyReject
  let node ← d.nodeOr nodeId .unknownNode
  let some parentId := node.parentId | throw (.error .unknownParent)
  let parent ← d.nodeOr parentId .unknownParent
  if node.children = [] then
    if parentId = d.rootNodeId then return .leafCoordinator
    if isConcurrentContainer parent.kind then return .leafCoordinator
    return .leafDomainSafe
  if parentId = d.rootNodeId then return .recursiveCoordinatorSafe
  if isConcurrentContainer parent.kind then return .recursiveCoordinatorSafe
  let some domainId ← d.concurrentContainerDomainRoot nodeId enabledConcurrentContainerKinds
    | return .unsupported
  if domainId = nodeId then return .unsupported
  if ← d.subtreeContainsEnabledContainerKinds nodeId enabledConcurrentContainerKinds then
    return .recursiveCoordinatorSafe
  return .recursiveDomainSafe

/-- The domain of one node, noted once, in `collectParticipatingDeleteDomainIds`. -/
def noteDomain (d : Document) (domainIds : List Nat) (currentId : Nat) :
    Except Failure (List Nat) := do
  match ← d.concurrentContainerDomainRoot currentId enabledConcurrentContainerKinds with
  | some domainId => return if domainId ∈ domainIds then domainIds else domainIds ++ [domainId]
  | none => return domainIds

/-- `collectParticipatingDeleteDomainIds`. -/
def collectParticipatingDeleteDomainIds (d : Document) (nodeId : Nat) :
    Except Failure (List Nat) := do
  let domainIds ← stackLoop (fun currentId domainIds => do
    let current ← d.nodeOr currentId .unknownNode
    let domainIds ← noteDomain d domainIds currentId
    return (current.children.reverse, domainIds)) .outOfFuel (d.nodeSlots.length + 1) [nodeId] []
  return domainIds.insertionSort (· ≤ ·)

/-- The append branch of `resolveStructuralDomainWritePlanWithStableTopology`. -/
def resolveAppendPlan (d : Document) (request : RequestEnvelope) :
    Except Failure (Option DomainWritePlan) := do
  let some parentValue := getInteger request.params (ascii "parentId") | return none
  if parentValue < 0 then return none
  let parentId ← intCast u64Limit parentValue
  if parentId = d.rootNodeId then return none
  let some parent ← d.findNode parentId | return none
  if isConcurrentContainer parent.kind then return none
  let some (some domainId) ← catchNull isTopologyError
    (d.concurrentContainerDomainRoot parentId enabledConcurrentContainerKinds) | return none
  return some (.structural domainId parentId)

/-- The remove branch of `resolveStructuralDomainWritePlanWithStableTopology`. -/
def resolveRemovePlan (d : Document) (request : RequestEnvelope) :
    Except Failure (Option DomainWritePlan) := do
  let some nodeId ← catchNull isTargetError (resolveRequestNodeId d request) | return none
  if nodeId = d.rootNodeId then return none
  let some node ← d.findNode nodeId | return none
  let some mode ← catchNull isTopologyError (classifyRemoveExecutionMode d nodeId) | return none
  if mode ≠ .leafDomainSafe ∧ mode ≠ .recursiveDomainSafe then return none
  let some parentId := node.parentId | return none
  let some (some domainId) ← catchNull isTopologyError
    (d.concurrentContainerDomainRoot nodeId enabledConcurrentContainerKinds) | return none
  return some (.structural domainId parentId)

/-- `resolveDomainWritePlanWithStableTopology`. -/
def resolveDomainWritePlan (d : Document) (request : RequestEnvelope) :
    Except Failure (Option DomainWritePlan) :=
  if requestIsAppendLike request.method then resolveAppendPlan d request
  else if requestIsRemoveLike request.method then resolveRemovePlan d request
  else do
    let some nodeId ← catchNull isTargetError (resolveRequestNodeId d request) | return none
    let some node ← d.findNode nodeId | return none
    if isConcurrentContainer node.kind then return none
    let some (some domainId) ← catchNull isTopologyError
      (d.concurrentContainerDomainRoot nodeId enabledConcurrentContainerKinds) | return none
    return some (.content domainId)

/-- `resolveParticipatingDeleteDomainIdsWithStableTopology`. -/
def resolveParticipatingDeleteDomainIds (d : Document) (request : RequestEnvelope) :
    Except Failure (Option (List Nat)) := do
  if !requestIsRemoveLike request.method then return none
  let some nodeId ← catchNull isTargetError (resolveRequestNodeId d request) | return none
  let some mode ← catchNull isTopologyError (classifyRemoveExecutionMode d nodeId) | return none
  if mode ≠ .recursiveCoordinatorSafe then return none
  let domainIds ← collectParticipatingDeleteDomainIds d nodeId
  if domainIds.length < 2 then return none
  return some domainIds

/-- What the planner takes a request to write. -/
def plannedTarget (d : Document) (request : RequestEnvelope) : Option WriteTarget :=
  if requestIsAppendLike request.method then
    (getInteger request.params (ascii "parentId")).map fun parentId => .append parentId.toNat
  else
    match resolveRequestNodeId d request with
    | .ok nodeId =>
      if requestIsRemoveLike request.method then some (.remove nodeId) else some (.content nodeId)
    | .error _ => none

/-- What `planDynamicGuardAcquisition` does while it holds the coordinator and the registry. -/
def planGuard (request : RequestEnvelope) : Action DocumentEntry Failure DynamicGuardPlan := do
  match ← Action.view fun e => resolveDomainWritePlan e.document request with
  | some plan =>
    let revision := (← get).runtime.topologyRevision
    match plan with
    | .content domainId =>
      modify (·.ensureDomainLock domainId)
      return .domainWrite revision domainId
    | .structural domainId parentId =>
      modify (·.ensureDomainLock domainId)
      return .structuralWrite revision domainId parentId
  | none =>
    match ← Action.view fun e => resolveParticipatingDeleteDomainIds e.document request with
    | some domainIds =>
      domainIds.forM fun domainId => modify (·.ensureDomainLock domainId)
      return .participatingDomainWrite (← get).runtime.topologyRevision domainIds
    | none => return .none

/-- The phase after planning. -/
def planPhase (request : RequestEnvelope) (e : DocumentEntry) : GuardPhase :=
  match (planGuard request e).1 with
  | .ok .none => .idle
  | .ok plan => .planned plan e.document (plannedTarget e.document request)
  | .error _ => .idle

/-! ## Domain locks -/

open Program

/-- `lockExistingDomainIds`. -/
def lockExistingDomainIds (domainIds : List Nat) : EntryM Unit :=
  forEach domainIds fun domainId => do
    let present ← read fun e => .ok (decide (domainId ∈ e.runtime.domainIds))
    if present then acquire (.domain domainId)

/-- `ensureAndLockDomainIds`. -/
def ensureAndLockDomainIds (domainIds : List Nat) : EntryM Unit :=
  forEach domainIds fun domainId => do
    act fun e => (.ok (), e.ensureDomainLock domainId)
    acquire (.domain domainId)

/-- `unlockExistingDomainIds`: from the last to the first. -/
def unlockExistingDomainIds (domainIds : List Nat) : EntryM Unit :=
  forEach domainIds.reverse fun domainId => do
    let present ← read fun e => .ok (decide (domainId ∈ e.runtime.domainIds))
    if present then release (.domain domainId)

/-! ## Guards -/

/-- `acquireCoordinatorExclusive`. -/
def acquireCoordinatorExclusive : EntryM RequestGuard := do
  acquire .coordinator
  let domainIds ← actTag (fun e => (.ok e.snapshotDomainIds, e))
    fun e _ => .claiming (.coordinatorExclusive e.snapshotDomainIds)
  lockExistingDomainIds domainIds
  mark fun e _ => .granted (.coordinatorExclusive domainIds) e.document none
  return .coordinatorExclusive domainIds

/-- `acquireQuiescentRead`. -/
def acquireQuiescentRead : EntryM RequestGuard := do
  acquire .coordinator
  let domainIds ← actTag (fun e => (.ok e.snapshotDomainIds, e))
    fun e _ => .claiming (.quiescentRead e.snapshotDomainIds)
  lockExistingDomainIds domainIds
  mark fun e _ => .granted (.quiescentRead domainIds) e.document none
  release .coordinator
  return .quiescentRead domainIds

/-- `planDynamicGuardAcquisition`. -/
def planDynamicGuardAcquisition (request : RequestEnvelope) : EntryM DynamicGuardPlan := do
  acquire .coordinator
  onError (do
    acquire .nodeRegistry
    ensure (do
      let plan ← actTag (planGuard request) fun e _ => planPhase request e
      release .coordinator
      return plan) (release .nodeRegistry)) (release .coordinator)

/-- `DynamicGuardPlan.lockRuntime`. -/
def DynamicGuardPlan.lockRuntime : DynamicGuardPlan → EntryM Unit
  | .none => pure ()
  | .domainWrite _ domainId => acquire (.domain domainId)
  | .structuralWrite _ domainId parentId => do
    acquire (.domain domainId)
    acquire (.parent parentId)
  | .participatingDomainWrite _ domainIds => ensureAndLockDomainIds domainIds

/-- `DynamicGuardPlan.unlockRuntime`. -/
def DynamicGuardPlan.unlockRuntime : DynamicGuardPlan → EntryM Unit
  | .none => pure ()
  | .domainWrite _ domainId => release (.domain domainId)
  | .structuralWrite _ domainId parentId => do
    release (.parent parentId)
    release (.domain domainId)
  | .participatingDomainWrite _ domainIds => unlockExistingDomainIds domainIds

/-- The phase after the revision check of a locked plan. -/
def checkedPhase (plan : DynamicGuardPlan) (e : DocumentEntry) : GuardPhase → GuardPhase
  | .planned _ topology target =>
    if plan.revisionMatches e then .granted plan.intoRequestGuard topology target else .idle
  | phase => phase

/-- The retry loop of `acquireRequestGuard` with the attempts that are left. -/
def acquireDynamicGuard (request : RequestEnvelope) : Nat → EntryM RequestGuard
  | 0 => acquireCoordinatorExclusive
  | attempts + 1 => do
    let plan ← planDynamicGuardAcquisition request
    if plan = .none then acquireCoordinatorExclusive
    else do
      plan.lockRuntime
      let matched ← actTag (fun e => (.ok (plan.revisionMatches e), e)) (checkedPhase plan)
      if matched then return plan.intoRequestGuard
      else do
        plan.unlockRuntime
        acquireDynamicGuard request attempts

/-- `dynamic_guard_retry_limit`. -/
def dynamicGuardRetryLimit : Nat := 3

/-- `acquireRequestGuard` from the point where the request has named an existing document other
than the root document. -/
def acquireRequestGuardForEntry (request : RequestEnvelope) : EntryM RequestGuard :=
  if requestSupportsDynamicDomainLane request then
    acquireDynamicGuard request dynamicGuardRetryLimit
  else if requestUsesQuiescentReadGuard request.method then acquireQuiescentRead
  else acquireCoordinatorExclusive

/-- `RequestGuard.release`: from here on the guard is no longer held. -/
def RequestGuard.release (guard : RequestGuard) : EntryM Unit := do
  mark fun _ _ => .idle
  match guard with
  | .none => pure ()
  | .coordinatorExclusive domainIds => do
    unlockExistingDomainIds domainIds
    Program.release .coordinator
  | .quiescentRead domainIds => unlockExistingDomainIds domainIds
  | .participatingDomainWrite domainIds => unlockExistingDomainIds domainIds
  | .domainWrite domainId => Program.release (.domain domainId)
  | .structuralWrite domainId parentId => do
    Program.release (.parent parentId)
    Program.release (.domain domainId)

/-- `resolveExecutionDomainRootForRequest`: the lane of a request. -/
def resolveExecutionDomainRoot (request : RequestEnvelope) : EntryM (Option Nat) :=
  withMutex .coordinator <| withMutex .nodeRegistry <| do
    let plan ← read fun e => resolveDomainWritePlan e.document request
    return plan.map fun
      | .content domainId => domainId
      | .structural domainId _ => domainId

end Muxly.Daemon
