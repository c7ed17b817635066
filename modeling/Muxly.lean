import Muxly.Core.Document
import Muxly.Sync.LockOrder
import Muxly.Core.Shape
import Muxly.Core.Edits
import Muxly.Core.Valid
import Muxly.Core.Mutations
import Muxly.Daemon.Reconcile
import Muxly.Daemon.Protocol
import Muxly.Daemon.Runtime
import Muxly.Daemon.Operations
import Muxly.Core.Projection
import Muxly.Daemon.Handler
import Muxly.Core.Topology
import Muxly.Daemon.Planning
import Muxly.Daemon.Execution
import Muxly.Daemon.Guards
import Muxly.Daemon.Steps
import Muxly.Daemon.Acquisition
import Muxly.Daemon.Grants
import Muxly.Daemon.Coverage
import Muxly.Daemon.Conduct
import Muxly.Daemon.Commits
import Muxly.Daemon.Sequential
import Muxly.Daemon.Removal
import Muxly.Daemon.ContentCap
import Muxly.Core.Names
import Muxly.Core.Resolution
import Muxly.Tree.Outline
import Muxly.Daemon.Outline
import Muxly.Daemon.Rebuild
import Muxly.Daemon.TmuxStore
import Muxly.Daemon.StoreRuns
import Muxly.Client.Selector
import Muxly.Client.Agreement
import Muxly.Server.Frames
import Muxly.Server.State
import Muxly.Sync.Script
import Muxly.Server.Handlers
import Muxly.Server.Conduct
import Muxly.Server.Registry
import Muxly.Server.References
import Muxly.Server.Lifetime
import Muxly.Server.Identity
import Muxly.Client.Streams
import Muxly.Client.Router
import Muxly.Client.Delivery
import Muxly.Client.MessageReader
import Muxly.Client.Pairing
import Muxly.Data.JsonText
import Muxly.Client.Framing
import Muxly.Client.Completion
import Muxly.Core.Accepted
import Muxly.Daemon.DocumentXml
import Muxly.Daemon.Artifacts
import Muxly.Control.Triple
import Muxly.Daemon.TmuxPump
import Muxly.Daemon.Invalidation
import Muxly.Viewer.Acceptance
import Muxly.Core.Exact
import Muxly.Bridge.Streams
import Muxly.Bridge.Gate
import Muxly.Bridge.Lanes
import Muxly.Client.Pool
import Muxly.Client.PendingRequest
import Muxly.Conversation.Broker
import Muxly.Conversation.Classify
import Muxly.Bridge.LaneKey
import Muxly.Data.Cut
import Muxly.Resource.Descriptor
import Muxly.Resource.RoundTrip
import Muxly.Resource.Secure
import Muxly.Resource.Sharing
import Muxly.Resource.Components
import Muxly.Daemon.TtyQueue
import Muxly.Daemon.TtyGaps
import Muxly.Core.Removals
import Muxly.Daemon.TmuxOutput
import Muxly.Daemon.CommandBlock
import Muxly.Core.Window
import Muxly.Core.Placement
import Muxly.Daemon.Placing
import Muxly.Daemon.Repeat
import Muxly.Viewer.TtyLines
import Muxly.Data.ShellWords
import Muxly.Resource.Relay
import Muxly.Resource.Overrides
import Muxly.Client.Fragments
import Muxly.Bridge.Lines
import Muxly.Data.Utf8
import Muxly.Bridge.Http
import Muxly.Viewer.Selection
import Muxly.Viewer.Canvas
import Muxly.Viewer.Frame
import Muxly.Client.StreamHandles
import Muxly.Client.Polling
import Muxly.Client.Release
import Muxly.Core.Traversals
import Muxly.Resource.DocumentPaths
import Muxly.Sync.WorkQueue
import Muxly.Server.Lanes
import Muxly.Server.LaneRuns
import Muxly.Server.Admission
import Muxly.Daemon.Covering
import Muxly.Server.Waiting
import Muxly.Daemon.Upkeep
import Muxly.Documents.Isolation
import Muxly.Daemon.HalfDone
import Muxly.Documents.Survival
