import OcppServer.Lib.Dict
import OcppServer.Lib.Runs
import OcppServer.Lib.Outbox
import OcppServer.Lib.Replica
import OcppServer.Text
import OcppServer.Json
import OcppServer.WebServer
import OcppServer.Handlers
import OcppServer.Callbacks
import OcppServer.Spec
import OcppServer.Protocol
import OcppServer.Proofs.Delivery
import OcppServer.Proofs.Steps
import OcppServer.Proofs.Traffic
import OcppServer.Proofs.Framing
import OcppServer.Proofs.Sessions
import OcppServer.Proofs.Replies
import OcppServer.Proofs.Follow
import OcppServer.Proofs.Chunks
import OcppServer.Proofs.Routing
import OcppServer.JsValue
import OcppServer.RpcClient
import OcppServer.Proofs.Client
import OcppServer.Proofs.Connected
import OcppServer.Proofs.Calls
import OcppServer.Proofs.Reconnect
import OcppServer.Proofs.Settled
import OcppServer.Proofs.Correlation
import OcppServer.Proofs.Changes
import OcppServer.Proofs.Refusals
import OcppServer.Proofs.Settings
import OcppServer.Proofs.Power
import OcppServer.Proofs.Reset
import OcppServer.EventsHandler
import OcppServer.OcppManager
import OcppServer.Proofs.Registry
import OcppServer.Proofs.Stations
import OcppServer.CentralSystem
import OcppServer.Proofs.OnScreen
import OcppServer.JsonParse
import OcppServer.Proofs.Lifecycle
import OcppServer.Monitoring
import OcppServer.Proofs.Decoding
import OcppServer.Proofs.UrlDecode
import OcppServer.Http
import OcppServer.Lib.Paths
import OcppServer.Proofs.Http
import OcppServer.Commands
import OcppServer.Proofs.Commands
import OcppServer.Proofs.StationNames
import OcppServer.Proofs.Store
import OcppServer.Proofs.Values
import OcppServer.EventHandlers
import OcppServer.Proofs.EventHandlers
import OcppServer.Polling
import OcppServer.Proofs.OneSocket
import OcppServer.Proofs.Polling
import OcppServer.Proofs.Intervals
import OcppServer.Headers
import OcppServer.Proofs.Headers
import OcppServer.AdminPanel
import OcppServer.Proofs.Connectors
import OcppServer.Proofs.AdminPanel
import OcppServer.Lib.Caller
import OcppServer.RapidJson
import OcppServer.JsonGrammar
import OcppServer.Proofs.RapidJson
import OcppServer.Proofs.RapidJsonTexts
import OcppServer.RpcBase
import OcppServer.RpcServer
import OcppServer.Proofs.RpcLinks
import OcppServer.Proofs.RpcCalls
import OcppServer.Proofs.RpcRequests
import OcppServer.Proofs.RpcTexts
import OcppServer.WebApp
import OcppServer.Proofs.WebLinks
import OcppServer.Proofs.WebCalls
import OcppServer.Proofs.WebTexts
import OcppServer.Proofs.WebSettled
