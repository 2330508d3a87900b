import Vrata.Lib.Duration
import Vrata.Lib.Mux
import Vrata.Proxy.Router
import Vrata.Server.Listener

/-!
# The server of a listener

Reference: `startListener` of `server/internal/proxy/listener.go`, and `NewMetricsCollector` of
`metrics.go`.

`startListener` derives the configuration of a server from a listener: its address and timeouts, what its
handler is built from, and the collector of its metrics. The TLS settings are derived apart from the rest and
are given here.
-/

namespace Vrata.Proxy

open Server

inductive ClientAuthType where
  | noClientCert
  | verifyClientCertIfGiven
  | requireAndVerifyClientCert
deriving DecidableEq, Repr

/-- Certificates and keys are kept as their texts. -/
structure TLSConfig where
  cert : String
  key : String
  minVersion : Option ℕ
  maxVersion : Option ℕ
  clientAuth : ClientAuthType
  clientCAs : String
deriving DecidableEq, Repr

/-- What a metrics collector records, and where it is scraped. -/
structure CollectorConfig where
  path : String
  route : Bool
  destination : Bool
  endpoint : Bool
  middleware : Bool
  listener : Bool
  durationBuckets : List ℚ
deriving DecidableEq, Repr

/-- The server of a listener: `http.Server` with what its handler was built from. -/
structure ServerConfig where
  addr : String
  readHeaderTimeout : ℤ
  readTimeout : ℤ
  writeTimeout : ℤ
  idleTimeout : ℤ
  tlsConfig : Option TLSConfig
  serverName : String
  maxRequestHeadersKB : UInt32
  detail : String
  metrics : Option CollectorConfig
deriving DecidableEq, Repr

def bindAddr (l : Listener) : String :=
  (if l.address = "" then "0.0.0.0" else l.address) ++ ":" ++ toString l.port.toNat

/-- A second in nanoseconds. -/
def second : ℤ := 1000000000

def parseDurationOrDefault (cfg : Option ListenerTimeouts) (accessor : ListenerTimeouts → String)
    (fallback : ℤ) : ℤ :=
  match cfg with
  | none => fallback
  | some cfg => if accessor cfg = "" then fallback else (Duration.parse (accessor cfg)).getD fallback

def newMetricsCollector (m : ListenerMetrics) : CollectorConfig where
  path := m.resolvedPath
  route := m.collectRoute
  destination := m.collectDestination
  endpoint := m.collectEndpoint
  middleware := m.collectMiddleware
  listener := m.collectListener
  durationBuckets := m.resolvedDurationBuckets

def serverConfig (l : Listener) (tls : Option TLSConfig) : ServerConfig where
  addr := bindAddr l
  readHeaderTimeout := parseDurationOrDefault l.timeouts ListenerTimeouts.clientHeader (10 * second)
  readTimeout := parseDurationOrDefault l.timeouts ListenerTimeouts.clientRequest (60 * second)
  writeTimeout := parseDurationOrDefault l.timeouts ListenerTimeouts.clientResponse (60 * second)
  idleTimeout := parseDurationOrDefault l.timeouts ListenerTimeouts.idleBetweenRequests (120 * second)
  tlsConfig := tls
  serverName := l.serverName
  maxRequestHeadersKB := l.maxRequestHeadersKB
  detail := resolvedDetail l.proxyErrors
  metrics := l.metrics.map newMetricsCollector

end Vrata.Proxy
