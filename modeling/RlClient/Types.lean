import RlClient.Bytes

/-!
# The data model of the client

Mirror of the types in `include/r_client.h`, `include/r_client_io.h` and
`src/r_crypto.h`. Field and type names are the source's, in camel case; the
`r_` prefix of a type becomes a leading `R`. Integer fields keep their C width.
-/

namespace RlClient

/-- `r_client_error_t`. -/
inductive RClientError where
  | ok
  | errIo
  | errTimeout
  | errProtocol
  | errAuth
  | errDns
  | errConfig
  | errNomem
deriving DecidableEq, Repr

/-- `r_auth_type_t`; `derive` is the zero value, which asks `r_client_create`
    to take the type from the encoded key. -/
inductive RAuthType where
  | derive
  | cookie
  | aesGcm
deriving DecidableEq, Repr

/-! ### The request policy -/

/-- `r_ha_schedule_kind_t`; a C caller can store any value in the enum. -/
inductive RHaScheduleKind where
  | fixed
  | linear
  | exponential
  | unknown (value : UInt32)
deriving DecidableEq

/-- `r_ha_schedule_t`. The union `growth` is one word, read as
    `linear_step_units` or as `exponential_factor`. -/
structure RHaSchedule where
  kind : RHaScheduleKind
  initialUnits : UInt32
  maxUnits : UInt32
  growth : UInt32
deriving DecidableEq

/-- `r_request_policy_t`. -/
structure RRequestPolicy where
  unitMs : UInt64
  replayCount : UInt32
  replayGap : RHaSchedule
  finalReceiveUnits : UInt32
  completionDelivery : Bool
deriving DecidableEq

/-- `r_client_default_request_policy` of `src/r_policy.c`. -/
def rClientDefaultRequestPolicy : RRequestPolicy where
  unitMs := 20
  replayCount := 1
  replayGap := { kind := .fixed, initialUnits := 1, maxUnits := 1, growth := 0 }
  finalReceiveUnits := 1
  completionDelivery := true

/-- `r_bech32_quotas_t`. -/
structure RBech32Quotas where
  formatVersion : UInt8
  rateBucketsMax : UInt32
  latencyServicesMax : UInt32
  metricsLabelsMax : UInt32
  latencyBufferSizeMax : UInt32
  dedupTtlMsMax : UInt32
  rateWindowSizeMsMax : UInt32
deriving DecidableEq

/-- `r_dns_refresh_policy_t`. -/
structure RDnsRefreshPolicy where
  refreshIntervalMs : UInt64
  forcedRefreshMinIntervalMs : UInt64
  forcedRefreshJitterMs : UInt64
deriving DecidableEq

/-! ### Request inputs -/

/-- `r_resource_request_t`. -/
structure RResourceRequest where
  bucketId : FixedBytes 16
  windowSizeMs : UInt32
  rateLimit : UInt32
  tokensRequested : UInt16
deriving DecidableEq

/-- `r_latency_guard_t`. -/
structure RLatencyGuard where
  latencyTrackerId : FixedBytes 16
  thresholdMs : UInt32
  ttlMs : UInt32
  maxSamples : UInt32
  minSampleThreshold : UInt32
deriving DecidableEq

/-- `r_service_latency_report_t`. -/
structure RServiceLatencyReport where
  latencyTrackerId : FixedBytes 16
  observedLatency : UInt32
  ttlMs : UInt32
  maxSamples : UInt32
  minSampleThreshold : UInt32
deriving DecidableEq

/-- An array argument of the C API: a null pointer passed with some count, or a
    pointer to exactly `count` elements. -/
inductive CArray (α : Type) where
  | null (count : Nat)
  | array (elems : List α)

namespace CArray

def count : CArray α → Nat
  | .null n => n
  | .array elems => elems.length

def isNull : CArray α → Bool
  | .null _ => true
  | .array _ => false

def elems : CArray α → List α
  | .null _ => []
  | .array elems => elems

end CArray

/-! ### Results -/

/-- `r_guard_result_t`. -/
structure RGuardResult where
  latencyTrackerId : FixedBytes 16
  thresholdMs : UInt32
  currentLatencyMs : UInt32
  passed : Bool
deriving DecidableEq

/-- `r_resource_result_t`. -/
structure RResourceResult where
  bucketId : FixedBytes 16
  tokensDeficit : UInt16
  actualRate : UInt32
deriving DecidableEq

/-- `r_rate_limit_result_t`; the two result arrays are held by value. -/
structure RRateLimitResult where
  success : Bool
  serverId : UInt64
  steeringFeedback : Bool
  guards : List RGuardResult
  resources : List RResourceResult
deriving DecidableEq

/-! ### Addresses and endpoints -/

/-- `r_addr_t`: the bytes of the `sockaddr_storage` and the length in use. -/
structure RAddr where
  sa : Bytes
  len : Nat
deriving DecidableEq

/-- `r_addr_equal`: equal lengths and equal bytes up to that length. -/
def rAddrEqual (a b : RAddr) : Bool :=
  a.len == b.len && a.sa.take a.len == b.sa.take a.len

/-- `r_server_endpoint_t`. -/
structure RServerEndpoint where
  addr : RAddr
  serverId : UInt64
  hasServerId : Bool
deriving DecidableEq

end RlClient
