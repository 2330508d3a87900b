import Vrata.Lib.Effect
import Vrata.Lib.Table
import Vrata.Lib.Text
import Vrata.Lib.Distinct
import Vrata.Lib.Duration
import Vrata.Lib.Thresholds
import Vrata.Lib.Multimap
import Vrata.Lib.Runs
import Vrata.Lib.Census
import Vrata.Lib.FirstMatch
import Vrata.Lib.HashRing
import Vrata.Lib.Turns
import Vrata.Lib.Overwrite
import Vrata.Lib.Program
import Vrata.Lib.Net
import Vrata.Lib.Authority
import Vrata.Lib.Mux
import Vrata.Lib.Lines
import Vrata.Lib.Json
import Vrata.Lib.Json.Quote
import Vrata.Lib.Json.Object
import Vrata.Lib.Json.Map
import Vrata.Lib.Expiring
import Vrata.Lib.Tagged
import Vrata.Lib.Der
import Vrata.Controller.Entities
import Vrata.Controller.Mapper
import Vrata.Controller.Mapper.Names
import Vrata.Controller.Client
import Vrata.Controller.Reconciler
import Vrata.Controller.Reconciler.Steps
import Vrata.Controller.Reconciler.Trails
import Vrata.Controller.Reconciler.Written
import Vrata.Controller.Reconciler.References
import Vrata.Controller.Reconciler.Invariants
import Vrata.Controller.Reconciler.Convergence
import Vrata.Controller.Dedup
import Vrata.Controller.Workqueue
import Vrata.Controller.Workqueue.LevelTriggered
import Vrata.Controller.Workqueue.Representation
import Vrata.Controller.Input
import Vrata.Controller.Cluster
import Vrata.Controller.Sync
import Vrata.Controller.Sync.Cycles
import Vrata.Controller.Sync.LiveConfig
import Vrata.Controller.Sync.Gateways
import Vrata.Controller.Batcher
import Vrata.Controller.Sync.Snapshots
import Vrata.Controller.Sync.Grants
import Vrata.Controller.Sync.IdleWindow
import Vrata.Server.Model
import Vrata.Server.Middleware
import Vrata.Server.Listener
import Vrata.Store.Bolt
import Vrata.Store.Command
import Vrata.Store.View
import Vrata.Store.Replay
import Vrata.Store.Compaction
import Vrata.Store.Memory
import Vrata.Store.Interchange
import Vrata.Store.Sessions
import Vrata.Store.Client
import Vrata.Store.Feed
import Vrata.Resolve.Secrets
import Vrata.Api.Handlers
import Vrata.Api.Snapshots
import Vrata.Api.Delivery
import Vrata.Sync.Client
import Vrata.K8s.Endpoints
import Vrata.Proxy.Endpoint
import Vrata.Proxy.Router
import Vrata.Controller.Dedup.Exactness
import Vrata.Proxy.Headers
import Vrata.Proxy.Rewrite
import Vrata.Proxy.Priority
import Vrata.Proxy.Balancer
import Vrata.Proxy.Addressing
import Vrata.Proxy.Rings
import Vrata.Proxy.Selection
import Vrata.Proxy.Pool
import Vrata.Proxy.Maglev
import Vrata.Proxy.Pool.RoundRobin
import Vrata.Proxy.Circuit
import Vrata.Proxy.Circuit.Protocol
import Vrata.Proxy.Circuit.Recovery
import Vrata.Proxy.Retry
import Vrata.Proxy.GrpcTimeout
import Vrata.Proxy.Circuit.Limits
import Vrata.Proxy.Exchange
import Vrata.Proxy.Exchange.Results
import Vrata.Proxy.Retry.Policy
import Vrata.Proxy.Retry.Timeouts
import Vrata.Proxy.Cel
import Vrata.Proxy.Body
import Vrata.Proxy.Pool.LeastRequest
import Vrata.Proxy.Outlier
import Vrata.Proxy.Outlier.Rule
import Vrata.Proxy.Health
import Vrata.Proxy.Health.Hysteresis
import Vrata.Proxy.RateLimit
import Vrata.Proxy.Swap
import Vrata.Proxy.Chain
import Vrata.Proxy.RateLimit.Windows
import Vrata.Proxy.RateLimit.Calls
import Vrata.Proxy.Swap.Resources
import Vrata.Proxy.Pipeline
import Vrata.Proxy.Pipeline.Authentication
import Vrata.Proxy.Pipeline.Nesting
import Vrata.Proxy.Pipeline.TrustedHeaders
import Vrata.Proxy.Pipeline.Signatures
import Vrata.Proxy.Pipeline.Tokens
import Vrata.Proxy.Pipeline.ClientAddress
import Vrata.Proxy.Pipeline.Cors
import Vrata.Proxy.Pipeline.Interpolation
import Vrata.Proxy.Hostname
import Vrata.Proxy.Pipeline.AccessLog
import Vrata.Proxy.Pipeline.InlineAuthz
import Vrata.Proxy.Pipeline.ExtProc
import Vrata.Proxy.Pipeline.ExtProcFrame
import Vrata.Proxy.Pipeline.ExtProcDialog
import Vrata.Proxy.Pipeline.ExtProcWithheld
import Vrata.Proxy.Pipeline.ExtProcChunks
import Vrata.Proxy.Pipeline.ExtProcStream
import Vrata.Proxy.Listener
import Vrata.Proxy.Listener.Metrics
import Vrata.Proxy.Cookies
import Vrata.Proxy.Sticky
import Vrata.Proxy.Pinning
import Vrata.Proxy.Sticky.Endpoints
import Vrata.Proxy.Sticky.Destinations
import Vrata.Session.Redis
import Vrata.Gateway.Quiescence
import Vrata.Pipeline.Compiled
import Vrata.Pipeline.Acceptance
import Vrata.Pipeline.Weights
import Vrata.Pipeline.Matching
import Vrata.Pipeline.Headers
import Vrata.Pipeline.Overlap
