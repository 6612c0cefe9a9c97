import A2a.Machine
import A2a.Fairness
import A2a.Program
import A2a.TaskStore
import A2a.TaskStore.Finality
import A2a.TaskStore.Retention
import A2a.Events
import A2a.Events.Artifacts
import A2a.Handler
import A2a.Paging
import A2a.Listing
import A2a.StartExecution
import A2a.Execution
import A2a.Dotenv
import A2a.Dotenv.Precedence
import A2a.Dotenv.Trust
import A2a.DriveExecution
import A2a.DriveExecution.Agreement
import A2a.DriveExecution.Response
import A2a.Conversation
import A2a.Server
import A2a.Server.Steps
import A2a.Waiting
import A2a.Server.Winners
import A2a.Server.Waiting
import A2a.Server.CancelRace
import A2a.Server.LiveTask
import A2a.Server.Timestamps
import A2a.Server.Isolation
import A2a.Feed
import A2a.Skim
import A2a.Server.Links
import A2a.Server.Owners
import A2a.Server.Publication
import A2a.Server.Streams
import A2a.Server.Channel
import A2a.Server.Turns
import A2a.Server.Resubscription
import A2a.Server.BlockingSend
import A2a.Server.Progress
import A2a.Server.Registrations
import A2a.Server.Answers
import A2a.Server.Closing
import A2a.Server.Returns
import A2a.Server.Wakeups
import A2a.Server.Delivery
import A2a.Server.Observers
import A2a.Server.Retention
import A2a.PushStore
import A2a.PushStore.History
import A2a.Registry
import A2a.Registry.Invariant
import A2a.Format
import A2a.F64
import A2a.FileParts
import A2a.FileParts.Names
import A2a.FileParts.Owners
import A2a.FileParts.Snapshot
import A2a.FileParts.Safety
import A2a.AgentCard
import A2a.Json
import A2a.AgentCard.Json
import A2a.Types.Json
import A2a.Proto
import A2a.Pbconv
import A2a.Pbconv.AgentCard
import A2a.Pbconv.RoundTrip
import A2a.Pbconv.CardRoundTrip
import A2a.Pbconv.Listing
import A2a.ErrorDetails
import A2a.Errors
import A2a.Errors.RoundTrip
import A2a.Errors.Transported
import A2a.Framing
import A2a.Utf8
import A2a.Sse
import A2a.Sse.Chunks
import A2a.Sse.LineEndings
import A2a.Sse.Unreadable
import A2a.Sse.Wire
import A2a.Resumption
import A2a.Resumption.Loop
import A2a.PercentEncoding
import A2a.Routing
import A2a.Rest
import A2a.Rest.Dispatch
import A2a.Rest.Routable
import A2a.Middleware
import A2a.Bindings
import A2a.Bindings.Version
import A2a.Bindings.Params
import A2a.Bindings.Portable
import A2a.Bindings.Identity
import A2a.ClientFactory
import A2a.ServiceName
import A2a.MessageParts
import A2a.SignaledVersion
import A2a.Client
import A2a.WireLog
import A2a.JsonRpc
import A2a.JsonRpc.Envelope
import A2a.IpAddr
import A2a.IpAddr.Spelling
import A2a.PushSender
import A2a.PushSender.Guard
import A2a.Server.Webhooks
import A2a.Server.Webhooks.Replay
import A2a.Server.Webhooks.Apart
import A2a.Server.Webhooks.Reports
import A2a.Whatwg
import A2a.CardReference
import A2a.CardReference.Scheme
import A2a.CardReference.Path
import A2a.CardSchema
import A2a.TextOutput
import A2a.JsonText
import A2a.TextRender
import A2a.Commands
import A2a.Commands.Kinds
import A2a.Commands.Release
import A2a.Commands.Settling
import A2a.Commands.Requests
