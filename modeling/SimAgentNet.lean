import SimAgentNet.Data.SortedMap
import SimAgentNet.Data.Run
import SimAgentNet.Data.Effect
import SimAgentNet.Data.Wire
import SimAgentNet.Data.Path
import SimAgentNet.Kernel.Datum
import SimAgentNet.RoadmapCore.Id
import SimAgentNet.RoadmapExecCore.Model
import SimAgentNet.RoadmapExecCore.Reduce
import SimAgentNet.RoadmapExecCore.History
import SimAgentNet.RoadmapRunner.Model
import SimAgentNet.RoadmapRunner.Codec
import SimAgentNet.RoadmapRunner.RecordLaw
import SimAgentNet.RoadmapRunner.Causal
import SimAgentNet.RoadmapRunner.Journal
import SimAgentNet.RoadmapRunner.Memory
import SimAgentNet.RoadmapRunner.Rebuild
import SimAgentNet.RoadmapRunner.Ledger
import SimAgentNet.RoadmapRunner.Service
import SimAgentNet.RoadmapRunner.Mutation
import SimAgentNet.RoadmapRunner.MutationSafety
import SimAgentNet.RoadmapRunner.MutationRun
import SimAgentNet.AgentConductCore.Canonical
import SimAgentNet.AgentConductCore.Durable
import SimAgentNet.AgentConductCore.Commit
import SimAgentNet.AgentConductCore.Store
import SimAgentNet.AgentConductCore.Usage
import SimAgentNet.AgentConductCore.Budget
import SimAgentNet.AgentConductCore.FieldCodecs
import SimAgentNet.RoadmapRunner.Accept
import SimAgentNet.RoadmapRunner.Reopen
import SimAgentNet.RoadmapRunner.JournaledProof
import SimAgentNet.RoadmapRunner.ProofLaunch
import SimAgentNet.Data.Rooted
import SimAgentNet.RoadmapCore.Types
import SimAgentNet.RoadmapCore.Tree
import SimAgentNet.RoadmapCore.Admit
import SimAgentNet.RoadmapRunner.WellFormed
import SimAgentNet.Continuity.Model
import SimAgentNet.Continuity.Session
import SimAgentNet.Data.Walk
import SimAgentNet.CapabilityPacks.Resolve
import SimAgentNet.Data.Stream
import SimAgentNet.Server.Frame
import SimAgentNet.Server.Framing
import SimAgentNet.Server.RawHttp
import SimAgentNet.Data.Keyed
import SimAgentNet.OpenaiServer.Objects
import SimAgentNet.OpenaiServer.Storage
import SimAgentNet.OpenaiServer.Http
import SimAgentNet.OpenaiServer.Record
import SimAgentNet.OpenaiServer.Responses
import SimAgentNet.OpenaiServer.RouteSteps
import SimAgentNet.OpenaiServer.Ledger
import SimAgentNet.OpenaiServer.Keys
import SimAgentNet.OpenaiServer.Routes
import SimAgentNet.OpenaiServer.Replay
import SimAgentNet.OpenaiServer.Writes
import SimAgentNet.OpenaiServer.FreshIds
import SimAgentNet.OpenaiServer.Ownership
import SimAgentNet.StreamFabric.Cassette
import SimAgentNet.StreamFabric.ContentKey
import SimAgentNet.StreamFabric.Store
import SimAgentNet.StreamFabric.Control
import SimAgentNet.StreamFabric.Placement
import SimAgentNet.Data.Brackets
import SimAgentNet.OpenaiServer.Tools
import SimAgentNet.OpenaiServer.Plan
import SimAgentNet.OpenaiServer.PlanEval
import SimAgentNet.OpenaiServer.PlanSteps
import SimAgentNet.OpenaiServer.PlanDepth
import SimAgentNet.OpenaiServer.PlanScope
import SimAgentNet.OpenaiServer.PlanTrace
import SimAgentNet.OpenaiServer.PlanPolicy
import SimAgentNet.OpenaiServer.JsonText
import SimAgentNet.OpenaiServer.ToolLoop
import SimAgentNet.OpenaiServer.ToolTargets
import SimAgentNet.Data.Lines
import SimAgentNet.AgentRunnerHttp.Stream
import SimAgentNet.McpClient.Cache
import SimAgentNet.Data.Recency
import SimAgentNet.McpClient.Lru
import SimAgentNet.McpClient.Session
import SimAgentNet.Data.Columns
import SimAgentNet.McpClient.Stable
import SimAgentNet.McpClient.Belongs
import SimAgentNet.Data.StableSort
import SimAgentNet.RoadmapExecCore.Observed
import SimAgentNet.RoadmapExecCore.Commute
import SimAgentNet.RoadmapCore.Exact
import SimAgentNet.Data.Refusal
import SimAgentNet.RoadmapCore.Validation
import SimAgentNet.RoadmapCore.Panics
import SimAgentNet.Data.Words
import SimAgentNet.OpenaiServer.Chunks
import SimAgentNet.OpenaiServer.Grants
import SimAgentNet.OpenaiServer.Federation
import SimAgentNet.Data.Cursor
import SimAgentNet.OpenaiServer.PlanParse
import SimAgentNet.OpenaiServer.PlanText
import SimAgentNet.OpenaiServer.Batches
import SimAgentNet.OpenaiServer.BatchFailures
import SimAgentNet.Mcp.Cassette
import SimAgentNet.Mcp.Redaction
import SimAgentNet.Mcp.Router
import SimAgentNet.Mcp.Exchange
import SimAgentNet.Mcp.Replay
import SimAgentNet.Mcp.Dispatch
import SimAgentNet.Mcp.Replies
import SimAgentNet.Mcp.Accounting
import SimAgentNet.Kernel.Same
import SimAgentNet.RoadmapCore.Datum
import SimAgentNet.RoadmapCore.Identity
import SimAgentNet.RoadmapCore.Coverage
import SimAgentNet.RoadmapRefine.Model
import SimAgentNet.RoadmapRefine.Apply
import SimAgentNet.RoadmapRefine.Ceilings
import SimAgentNet.RoadmapRefine.Successor
import SimAgentNet.RoadmapRefine.Framed
import SimAgentNet.RoadmapRefine.Contributions
import SimAgentNet.RoadmapRefine.Descent
import SimAgentNet.RoadmapRefine.Diff
import SimAgentNet.RoadmapPlan.Model
import SimAgentNet.RoadmapPlan.Compile
import SimAgentNet.RoadmapPlan.Schedule
import SimAgentNet.RoadmapPlan.Owners
import SimAgentNet.RoadmapPlan.Ready
import SimAgentNet.RoadmapRunner.Sealing
import SimAgentNet.RoadmapRunner.Inverse
import SimAgentNet.RoadmapRunner.Attribution
import SimAgentNet.RoadmapRunner.Status
import SimAgentNet.RoadmapRunner.Ceiling
import SimAgentNet.Data.PostOrder
import SimAgentNet.CapabilityPacks.Closure
import SimAgentNet.ModelTest.Protocol
import SimAgentNet.ModelTest.Economics
import SimAgentNet.Data.Reading
import SimAgentNet.Server.WebSocket
import SimAgentNet.Data.Calendar
import SimAgentNet.Server.Cron
import SimAgentNet.Data.Index
import SimAgentNet.Data.Merge
import SimAgentNet.Data.Number
import SimAgentNet.SourceDeck.Model
import SimAgentNet.SourceDeck.Build
import SimAgentNet.SourceDeck.Sound
import SimAgentNet.SourceDeck.DebugText
import SimAgentNet.SourceDeck.Identity
import SimAgentNet.Data.Replace
import SimAgentNet.AgentRunnerCore.Fence
import SimAgentNet.Agent.Privacy
import SimAgentNet.Agent.RawRefs
import SimAgentNet.Agent.Trace
import SimAgentNet.Agent.Leases
import SimAgentNet.Provider.Fanout
import SimAgentNet.OauthCore.Challenge
import SimAgentNet.OauthJose.Verifier
import SimAgentNet.McpClient.Subscription
import SimAgentNet.McpClient.Cards
import SimAgentNet.McpClient.Trace
import SimAgentNet.McpClient.Forgotten
import SimAgentNet.McpClient.Rounds
import SimAgentNet.Agent.MissionPolicy
import SimAgentNet.Data.Location
import SimAgentNet.Agent.Guard
import SimAgentNet.Server.FileTail
import SimAgentNet.Data.Records
import SimAgentNet.Agent.MemoryLog
import SimAgentNet.Agent.Memory
import SimAgentNet.TableRemote.Site
import SimAgentNet.Data.Rounds
import SimAgentNet.Bridge.Packet
import SimAgentNet.Bridge.Collab
import SimAgentNet.Bridge.Loom
import SimAgentNet.Bridge.Receive
import SimAgentNet.Bridge.Ask
import SimAgentNet.Agent.Market
import SimAgentNet.Agent.MarketExecution
import SimAgentNet.Forge.Ceiling
import SimAgentNet.Forge.AuthorLoop
import SimAgentNet.Forge.AuthorRun
