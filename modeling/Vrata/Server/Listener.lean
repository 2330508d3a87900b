import Mathlib.Data.Rat.Defs

/-!
# Listeners

Reference: `server/internal/model/listener.go`.

A listener with everything that decides how it serves: address, TLS, timeouts, limits, errors and metrics.
Sizes of histograms other than those of durations are left out, since no histogram uses them.
-/

namespace Vrata.Server

structure ListenerClientAuth where
  mode : String
  ca : String := ""
deriving DecidableEq, Repr

structure ListenerTLS where
  cert : String := ""
  key : String := ""
  minVersion : String := ""
  maxVersion : String := ""
  clientAuth : Option ListenerClientAuth := none
deriving DecidableEq, Repr

/-- Durations as text. -/
structure ListenerTimeouts where
  clientHeader : String := ""
  clientRequest : String := ""
  clientResponse : String := ""
  idleBetweenRequests : String := ""
deriving DecidableEq, Repr

structure MetricsCollectConfig where
  route : Option Bool := none
  destination : Option Bool := none
  endpoint : Option Bool := none
  middleware : Option Bool := none
  listener : Option Bool := none
deriving DecidableEq, Repr

structure MetricsHistogramConfig where
  durationBuckets : List ℚ := []
deriving DecidableEq, Repr

structure ListenerMetrics where
  path : String := ""
  collect : Option MetricsCollectConfig := none
  histograms : Option MetricsHistogramConfig := none
deriving DecidableEq, Repr

structure ProxyErrors where
  detail : String := ""
deriving DecidableEq, Repr

structure Listener where
  id : String
  address : String := ""
  port : UInt32
  tls : Option ListenerTLS := none
  http2 : Bool := false
  serverName : String := ""
  maxRequestHeadersKB : UInt32 := 0
  metrics : Option ListenerMetrics := none
  timeouts : Option ListenerTimeouts := none
  proxyErrors : Option ProxyErrors := none
deriving DecidableEq, Repr

namespace ListenerMetrics

variable (m : ListenerMetrics)

def resolvedPath : String := if m.path ≠ "" then m.path else "/metrics"

/-- A dimension is collected as the configuration says, or by default. -/
def collects (field : MetricsCollectConfig → Option Bool) (default : Bool) : Bool :=
  (m.collect.bind field).getD default

def collectRoute : Bool := m.collects MetricsCollectConfig.route true

def collectDestination : Bool := m.collects MetricsCollectConfig.destination true

def collectEndpoint : Bool := m.collects MetricsCollectConfig.endpoint false

def collectMiddleware : Bool := m.collects MetricsCollectConfig.middleware true

def collectListener : Bool := m.collects MetricsCollectConfig.listener true

def resolvedDurationBuckets : List ℚ :=
  let buckets := (m.histograms.map MetricsHistogramConfig.durationBuckets).getD []
  if buckets ≠ [] then buckets
  else [5 / 1000, 1 / 100, 25 / 1000, 5 / 100, 1 / 10, 25 / 100, 5 / 10, 1, 25 / 10, 5, 10]

end ListenerMetrics

/-- `ResolvedDetail`. -/
def resolvedDetail (pe : Option ProxyErrors) : String :=
  match pe with
  | none => "standard"
  | some pe => if pe.detail = "" then "standard" else pe.detail

end Vrata.Server
