/-
# Muxly.Daemon.Handler -- the request methods that act on one document

The branches of `handleRequest` that read or change the document that a request names, under the
guard that the request holds. A program of this module returns the body of the response: a result,
or an error with its code and message. An error that `handleRequest` itself returns, and a panic,
are failures of the program. What a result is rendered from is kept as data; its JSON and XML text
is not modelled.
-/
import Muxly.Core.Projection
import Muxly.Daemon.Operations

namespace Muxly.Daemon

open Muxly.Control Muxly.Core Muxly.Sync Program

/-! ## Responses -/

/-- `RpcErrorCode`, for the codes that the dispatcher uses. -/
inductive RpcErrorCode where
  | parseError
  | invalidRequest
  | methodNotFound
  | invalidParams
  | internalError
  | unsupported
  | backendUnavailable
  | sourceError
  deriving DecidableEq

/-- The error object of a response. -/
structure RpcError where
  code : RpcErrorCode
  message : Bytes
  deriving DecidableEq

/-- `writeDocumentSummary`; `writeDocumentStatus` adds the view state. -/
structure DocumentSummary where
  path : Bytes
  id : Nat
  title : Bytes
  lifecycle : LifecycleState
  rootNodeId : Nat
  nodeCount : Nat
  deriving DecidableEq

/-- What the result of a response is rendered from. -/
inductive Payload where
  | pong
  | capabilities
  | ok
  | documentList (summaries : List DocumentSummary)
  | documentSummary (summary : DocumentSummary)
  | documentStatus (summary : DocumentSummary) (viewRootNodeId : Option Nat) (elidedCount : Nat)
  | slept (ms : Nat)
  | validated (nodeCount contentBytes : Nat)
  | nodeAttached (nodeId : Nat) (kind : Bytes)
  | document (d : Document)
  | xml (d : Document)
  | projection (projection : Projection)
  | node (node : Node)
  | frozen
  | artifact (nodeId : Nat) (artifactKind : TerminalArtifactKind) (source : TerminalArtifactSource)
  | source (nodeId : Nat) (source : Source)
  | fileCapture (nodeId : Nat) (content : Bytes)
  | paneCapture (paneId content : Bytes)
  | sessions (snapshots : List PaneSnapshot)
  | windows (snapshots : List PaneSnapshot)
  | panes (snapshots : List (PaneSnapshot × Option Nat))
  | mousePolicy
  deriving DecidableEq

/-- The body of a response. -/
abbrev Body : Type := Except RpcError Payload

/-- `buildError`. -/
def rpcError (code : RpcErrorCode) (message : String) : Body := .error ⟨code, ascii message⟩

/-- `return try buildError(...)`. -/
def replyError {σ μ ℓ : Type} (code : RpcErrorCode) (message : String) :
    Program μ σ ℓ Failure Body := .ret (.ok (rpcError code message))

/-- `return try buildResult(...)`. -/
def reply {σ μ ℓ : Type} (payload : Payload) : Program μ σ ℓ Failure Body :=
  .ret (.ok (.ok payload))

/-- `op catch |err| return buildError(code, text ++ @errorName(err))`, then the result. -/
def orError {σ μ ℓ α : Type} (code : RpcErrorCode) (text : String)
    (op : Program μ σ ℓ Failure α) (result : α → Payload) : Program μ σ ℓ Failure Body :=
  bindResult op fun
    | .ok a => reply (result a)
    | .error (.error e) => .ret (.ok (.error ⟨code, ascii text ++ e.name⟩))
    | .error failure => .ret (.error failure)

/-- `op catch return buildError(code, text)`, then the result. -/
def orFixedError {σ μ ℓ α : Type} (code : RpcErrorCode) (text : String)
    (op : Program μ σ ℓ Failure α) (result : α → Payload) : Program μ σ ℓ Failure Body :=
  bindResult op fun
    | .ok a => reply (result a)
    | .error (.error _) => replyError code text
    | .error failure => .ret (.error failure)

/-- A required parameter. -/
def required {σ μ ℓ α : Type} (value : Option α) (message : String)
    (k : α → Program μ σ ℓ Failure Body) : Program μ σ ℓ Failure Body :=
  match value with
  | some a => k a
  | none => replyError .invalidParams message

/-! ## Node targets -/

/-- `requestNodeIdOrError`. -/
def requestNodeIdOrError (d : Document) (request : RequestEnvelope) : Except Failure Int :=
  match request.target.bind (·.nodeId) with
  | some value =>
    if value.toNat ≥ i64Limit then .error (.error .invalidNodeTarget) else .ok value.toNat
  | none =>
    match request.target.bind (·.selector) with
    | some selector => do
      let resolved ← d.resolveSelector (some selector)
      if resolved ≥ i64Limit then throw (.error .invalidNodeTarget)
      return resolved
    | none =>
      match getInteger request.params (ascii "nodeId") with
      | some nodeId => .ok nodeId
      | none => .error (.error .missingNodeTarget)

/-- `buildNodeTargetError`: the message of a target error; any other error is returned. -/
def nodeTargetMessage : Err → Option String
  | .missingNodeTarget => some "nodeId is required"
  | .invalidNodeTarget => some "node target is invalid"
  | .invalidResourceSelector => some "target.selector is invalid"
  | .unknownResourceSelectorSegment => some "target.selector does not match any node"
  | .ambiguousResourceSelector => some "target.selector is ambiguous"
  | .resourceSelectorEscapesRoot => some "target.selector escapes document root"
  | _ => none

/-- The phase after the handler has looked up its node. -/
def resolvedPhase (request : RequestEnvelope) (e : DocumentEntry) : GuardPhase → GuardPhase :=
  GuardPhase.record fun grant =>
    match requestNodeIdOrError e.document request with
    | .ok nodeId => { grant with resolved := some nodeId.toNat }
    | .error _ => grant

/-- `requestNodeIdOrError(document, request) catch |err| return buildNodeTargetError(err)`. -/
def withNodeTarget (request : RequestEnvelope) (k : Int → EntryM Body) : EntryM Body :=
  bindResult (actTag (fun e => (requestNodeIdOrError e.document request, e)) (resolvedPhase request))
    fun
    | .ok nodeId => k nodeId
    | .error (.error e) =>
      match nodeTargetMessage e with
      | some message => replyError .invalidParams message
      | none => .ret (.error (.error e))
    | .error failure => .ret (.error failure)

/-- `@intCast(node_id)` of a resolved node id. -/
def withNodeId (request : RequestEnvelope) (k : Nat → EntryM Body) : EntryM Body :=
  withNodeTarget request fun nodeId =>
    match intCast u64Limit nodeId with
    | .ok nodeId => k nodeId
    | .error failure => .ret (.error failure)

/-- `getString`, `getInteger` and `getBool` on the parameters of a request. -/
def RequestEnvelope.string (request : RequestEnvelope) (fieldName : String) : Option Bytes :=
  getString request.params (ascii fieldName)

def RequestEnvelope.integer (request : RequestEnvelope) (fieldName : String) : Option Int :=
  getInteger request.params (ascii fieldName)

def RequestEnvelope.bool (request : RequestEnvelope) (fieldName : String) : Option Bool :=
  getBool request.params (ascii fieldName)

/-! ## Debug methods -/

/-- `@as(u64, @intCast(ms)) * std.time.ns_per_ms`: the nanoseconds of a sleep. -/
def sleepNanoseconds (ms : Int) : Except Failure Nat := do
  let ms ← intCast u64Limit ms
  if ms * 1000000 < u64Limit then return ms * 1000000 else throw (.panic .integerOverflow)

/-- A sleep; the field must not be negative. -/
def sleepFor (ms : Int) (message : String) (k : EntryM Body) : EntryM Body :=
  if ms < 0 then replyError .invalidParams message
  else
    match sleepNanoseconds ms with
    | .ok _ => k
    | .error failure => .ret (.error failure)

/-- The optional `pauseMs` of the debug methods. -/
def pauseThen (request : RequestEnvelope) (k : EntryM Body) : EntryM Body :=
  match request.integer "pauseMs" with
  | some pauseMs => sleepFor pauseMs "pauseMs must be non-negative" k
  | none => k

/-- `parseNodeKind`. -/
def parseNodeKind (name : Bytes) : Option NodeKind :=
  NodeKind.fields.find? fun kind => kind.tagName = name

section Methods

variable (env : Env) (documentPath : Bytes) (request : RequestEnvelope)

/-- `debug.sleep`. -/
def handleDebugSleep : EntryM Body :=
  required (request.integer "ms") "ms is required" fun ms =>
    sleepFor ms "ms must be non-negative" (reply (.slept ms.toNat))

/-- `debug.document.validate`. -/
def handleDebugValidate : EntryM Body :=
  orError .invalidRequest "document validation failed: " (read fun e => e.document.validate)
    fun summary => .validated summary.nodeCount summary.contentBytes

/-- `debug.text.append`. -/
def handleDebugTextAppend : EntryM Body :=
  withNodeTarget request fun nodeId =>
    required (request.string "chunk") "chunk is required" fun chunk =>
      pauseThen request <|
        match intCast u64Limit nodeId with
        | .ok nodeId =>
          orError .invalidParams "unable to append text: " (appendTextChunk env nodeId chunk)
            fun _ => .ok
        | .error failure => .ret (.error failure)

/-- `debug.tty.attach`. -/
def handleDebugTtyAttach : EntryM Body :=
  required (request.integer "parentId") "parentId is required" fun parentId =>
    if parentId < 0 then replyError .invalidParams "parentId must be non-negative"
    else
      let title := (request.string "title").getD (ascii "synthetic-tty")
      let sessionName := (request.string "sessionName").getD (ascii "synthetic-tty")
      match intCast u64Limit parentId with
      | .ok parentId =>
        orError .invalidParams "unable to attach synthetic tty: "
          (attachSyntheticTty env documentPath parentId title sessionName)
          fun nodeId => .nodeAttached nodeId (ascii "tty")
      | .error failure => .ret (.error failure)

/-- `debug.tty.push`. -/
def handleDebugTtyPush : EntryM Body :=
  withNodeTarget request fun nodeId =>
    required (request.string "chunk") "chunk is required" fun chunk =>
      pauseThen request <|
        match intCast u64Limit nodeId with
        | .ok nodeId =>
          orError .invalidParams "unable to push synthetic tty chunk: "
            (pushSyntheticTtyChunk env nodeId chunk) fun _ => .ok
        | .error failure => .ret (.error failure)

/-- The parameters of `node.append` and `debug.node.append`, with what comes between their checks
and the append. -/
def handleAppend (pause : EntryM Body → EntryM Body) : EntryM Body :=
  required (request.integer "parentId") "parentId is required" fun parentId =>
    required (request.string "kind") "kind is required" fun kindName =>
      required (request.string "title") "title is required" fun title =>
        required (parseNodeKind kindName) "unsupported node kind" fun kind =>
          pause <|
            match intCast u64Limit parentId with
            | .ok parentId =>
              orError .invalidParams "unable to append node: "
                (appendNode env documentPath parentId kind title)
                fun nodeId => .nodeAttached nodeId kind.tagName
            | .error failure => .ret (.error failure)

/-- `debug.node.append`. -/
def handleDebugNodeAppend : EntryM Body := handleAppend env documentPath request (pauseThen request)

/-- `debug.node.remove`. -/
def handleDebugNodeRemove : EntryM Body :=
  withNodeTarget request fun nodeId =>
    pauseThen request <|
      match intCast u64Limit nodeId with
      | .ok nodeId =>
        orError .invalidParams "unable to remove node: " (removeNode env documentPath nodeId)
          fun _ => .ok
      | .error failure => .ret (.error failure)

/-! ## Document methods -/

/-- `document.get`, `graph.get` and `view.get`. -/
def handleDocumentGet (visit : Nat) : EntryM Body := do
  refreshSourcesForDocument env visit
  let document ← read fun e => .ok e.document
  reply (.document document)

/-- One entry of `scrollOffsets`. -/
def parseScrollOffset (item : JsonValue) : Except Failure ScrollOffset :=
  match item.get (ascii "nodeId"), item.get (ascii "topLine") with
  | some (.integer nodeId), some (.integer topLine) =>
    if nodeId.toInt < 0 ∨ topLine.toInt < 0 then .error (.error .invalidScrollOffset)
    else do
      let nodeId ← intCast u64Limit nodeId.toInt
      let topLine ← intCast u64Limit topLine.toInt
      return { nodeId := nodeId, topLine := topLine }
  | _, _ => .error (.error .invalidScrollOffset)

/-- `parseProjectionRequest`. -/
def parseProjectionRequest (params : Option JsonValue) : Except Failure ProjectionRequest := do
  let some rowsValue := getInteger params (ascii "rows") | throw (.error .missingRows)
  let some colsValue := getInteger params (ascii "cols") | throw (.error .missingCols)
  if rowsValue ≤ 0 ∨ colsValue ≤ 0 then throw (.error .invalidViewport)
  let rows ← intCast u16Limit rowsValue
  let cols ← intCast u16Limit colsValue
  let focusedNodeId ←
    match getInteger params (ascii "focusedNodeId") with
    | some focusedNodeId =>
      if focusedNodeId < 0 then throw (.error .invalidFocusedNode)
      pure (some (← intCast u64Limit focusedNodeId))
    | none => pure none
  let scrollOffsets ←
    match params with
    | none => pure []
    | some value =>
      match value with
      | .object fields =>
        match fields.lookup (ascii "scrollOffsets") with
        | none => pure []
        | some (.array items) => items.mapM parseScrollOffset
        | some _ => throw (.error .invalidScrollOffsets)
      | _ => throw (.error .invalidParamsShape)
  return {
    rows := rows
    cols := cols
    localState := { focusedNodeId := focusedNodeId, scrollOffsets := scrollOffsets } }

/-- `resolveProjectionRootNodeId`. -/
def resolveProjectionRootNodeId (d : Document) : Except Failure (Option Nat) :=
  match request.target with
  | some target =>
    if target.nodeId.isSome ∨ target.selector.isSome then do
      let resolved ← requestNodeIdOrError d request
      if resolved < 0 then throw (.error .invalidNodeTarget)
      return some (← intCast u64Limit resolved)
    else .ok none
  | none => .ok none

/-- `projection.get`. -/
def handleProjectionGet (visit : Nat) : EntryM Body := do
  refreshSourcesForDocument env visit
  match parseProjectionRequest request.params with
  | .error (.error e) => .ret (.ok (.error ⟨.invalidParams, ascii "invalid projection params: " ++ e.name⟩))
  | .error failure => .ret (.error failure)
  | .ok projectionRequest =>
    bindResult (read fun e => resolveProjectionRootNodeId request e.document) fun
    | .error (.error e) =>
      match nodeTargetMessage e with
      | some message => replyError .invalidParams message
      | none => .ret (.error (.error e))
    | .error failure => .ret (.error failure)
    | .ok rootOverride => do
      let projection ← read fun e => writeProjectionForRoot e.document rootOverride projectionRequest
      reply (.projection projection)

/-- `writeDocumentSummary`. -/
def documentSummary (documentPath : Bytes) (d : Document) : DocumentSummary where
  path := documentPath
  id := d.id
  title := d.title
  lifecycle := d.lifecycle
  rootNodeId := d.rootNodeId
  nodeCount := d.liveNodeCount

/-- `document.status`. -/
def handleDocumentStatus : EntryM Body := do
  let document ← read fun e => .ok e.document
  reply (.documentStatus (documentSummary documentPath document) document.viewRootNodeId
    document.elidedNodeIds.length)

/-- A node that a handler reads under the message `unknown nodeId`. -/
def withKnownNode (k : Node → Payload) : EntryM Body :=
  withNodeId request fun nodeId => do
    match ← read fun e => e.document.findNode nodeId with
    | some node => reply (k node)
    | none => replyError .invalidParams "unknown nodeId"

/-- `document.serialize`. -/
def handleDocumentSerialize (visit : Nat) : EntryM Body := do
  refreshSourcesForDocument env visit
  let document ← read fun e => .ok e.document
  reply (.xml document)

/-- `document.freeze`. -/
def handleDocumentFreeze : EntryM Body := do
  onDocument Document.freeze
  reply .frozen

/-- `node.update`. -/
def handleNodeUpdate : EntryM Body :=
  withNodeId request fun nodeId =>
    orError .invalidParams "unable to update node: "
      (updateNode env nodeId (request.string "title") (request.string "content")) fun _ => .ok

/-- `parseTerminalArtifactKind`. -/
def parseTerminalArtifactKind (name : Bytes) : Option TerminalArtifactKind :=
  if name = ascii "text" then some .text
  else if name = ascii "surface" then some .surface
  else none

/-- The answer of `node.freeze` after the node was frozen. -/
def frozenReply (nodeId : Nat) (artifactKind : TerminalArtifactKind) (node : Option Node) : Body :=
  match node with
  | none => rpcError .internalError "frozen node missing from document"
  | some node =>
    match node.source with
    | .terminalArtifact artifact => .ok (.artifact nodeId artifactKind artifact)
    | _ => rpcError .internalError "frozen node did not transition source"

/-- `node.freeze`. -/
def handleNodeFreeze : EntryM Body :=
  withNodeTarget request fun nodeId =>
    required (request.string "artifactKind") "artifactKind is required" fun artifactKindName =>
      required (parseTerminalArtifactKind artifactKindName) "unsupported artifactKind"
        fun artifactKind =>
          match intCast u64Limit nodeId with
          | .error failure => .ret (.error failure)
          | .ok nodeId =>
            bindResult (freezeTerminalNode env nodeId artifactKind) fun
            | .error (.error e) =>
              .ret (.ok (.error ⟨.invalidParams, ascii "unable to freeze node: " ++ e.name⟩))
            | .error failure => .ret (.error failure)
            | .ok _ => do
              let node ← read fun e => e.document.findNode nodeId
              return frozenReply nodeId artifactKind node

/-- `node.remove`. -/
def handleNodeRemove : EntryM Body :=
  withNodeId request fun nodeId =>
    orError .invalidParams "unable to remove node: " (removeNode env documentPath nodeId)
      fun _ => .ok

/-- `view.setRoot`, `view.elide` and `view.expand`. -/
def handleViewNode (op : Nat → DocM Unit) : EntryM Body :=
  withNodeId request fun nodeId =>
    orFixedError .invalidParams "unknown nodeId" (onDocument (op nodeId)) fun _ => .ok

/-- `view.clearRoot` and `view.reset`. -/
def handleView (op : DocM Unit) : EntryM Body := do
  onDocument op
  reply .ok

/-- `leaf.source.attach`. -/
def handleLeafSourceAttach : EntryM Body :=
  required (request.string "kind") "kind is required" fun kind =>
    if kind = ascii "static-file" ∨ kind = ascii "monitored-file" then
      required (request.string "path") "path is required" fun path =>
        orError .sourceError "unable to attach file source: "
          (attachFile env documentPath path (if kind = ascii "static-file" then .static else .monitored))
          fun nodeId => .nodeAttached nodeId kind
    else if kind = ascii "tty" then
      required (request.string "sessionName") "sessionName is required" fun sessionName =>
        orError .sourceError "unable to attach tty source: " (attachTty env documentPath sessionName)
          fun nodeId => .nodeAttached nodeId kind
    else replyError .invalidParams "unsupported leaf source kind"

/-- `file.capture`. -/
def handleFileCapture : EntryM Body :=
  withNodeId request fun nodeId =>
    orError .sourceError "unable to capture file node: " (captureFileNode env nodeId)
      fun content => .fileCapture nodeId content

/-- `file.followTail`. -/
def handleFileFollowTail : EntryM Body :=
  withNodeTarget request fun nodeId =>
    required (request.bool "enabled") "enabled is required" fun enabled =>
      match intCast u64Limit nodeId with
      | .ok nodeId =>
        orError .sourceError "unable to set file follow tail: "
          (setFileFollowTail env nodeId enabled) fun _ => .ok
      | .error failure => .ret (.error failure)

/-! ## Dispatch -/

/-- The debug methods, which are only known when they are enabled. -/
def handleDebugRequest : Option (EntryM Body) :=
  if !env.debugRpcEnabled then none
  else
    match request.method with
    | .debugSleep => some (handleDebugSleep request)
    | .debugDocumentValidate => some handleDebugValidate
    | .debugTextAppend => some (handleDebugTextAppend env request)
    | .debugTtyAttach => some (handleDebugTtyAttach env documentPath request)
    | .debugTtyPush => some (handleDebugTtyPush env request)
    | .debugNodeAppend => some (handleDebugNodeAppend env documentPath request)
    | .debugNodeRemove => some (handleDebugNodeRemove env documentPath request)
    | _ => none

/-- The other methods that act on the document of the request. -/
def handleDocumentRequest : Option (EntryM Body) :=
  match request.method with
  | .documentGet | .graphGet | .viewGet => some (handleDocumentGet env 0)
  | .projectionGet => some (handleProjectionGet env request 0)
  | .documentStatus => some (handleDocumentStatus documentPath)
  | .nodeGet => some (withKnownNode request fun node => .node node)
  | .documentSerialize => some (handleDocumentSerialize env 0)
  | .documentFreeze => some handleDocumentFreeze
  | .nodeAppend => some (handleAppend env documentPath request fun k => k)
  | .nodeUpdate => some (handleNodeUpdate env request)
  | .nodeFreeze => some (handleNodeFreeze env request)
  | .nodeRemove => some (handleNodeRemove env documentPath request)
  | .viewSetRoot => some (handleViewNode request Document.setViewRoot)
  | .viewClearRoot => some (handleView Document.clearViewRoot)
  | .viewElide => some (handleViewNode request Document.toggleElided)
  | .viewExpand => some (handleViewNode request fun nodeId => Document.setElided nodeId false)
  | .leafSourceAttach => some (handleLeafSourceAttach env documentPath request)
  | .leafSourceGet => some (withKnownNode request fun node => .source node.id node.source)
  | .fileCapture => some (handleFileCapture env request)
  | .fileFollowTail => some (handleFileFollowTail env request)
  | .viewReset => some (handleView Document.resetView)
  | _ => none

end Methods

end Muxly.Daemon
