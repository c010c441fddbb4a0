import RlClient.Protocol

/-!
# The admission workflow

Mirror of the parts of `src/r_client_workflow.c` that need no client: the configuration of
an admission check, the storage of one request and the classification of an answer. An
identifier is derived by a hash that is a parameter here.
-/

namespace RlClient

/-- `r_admission_decision_t`. -/
inductive RAdmissionDecision where
  | allowed
  | rateLimited
  | latencyLimited
  | rateAndLatencyLimited
  | error
deriving DecidableEq

/-- `r_admission_config_t`; a name is absent when its pointer is null. -/
structure RAdmissionConfig where
  bucketName : Option Bytes
  windowSizeMs : UInt32
  rateLimit : UInt32
  tokensRequested : UInt16
  latencyTrackerName : Option Bytes
  latencyThresholdMs : UInt32
  latencyTtlMs : UInt32
  latencyMaxSamples : UInt32
  latencyMinSampleThreshold : UInt32
  metricsLabel : Option Bytes
deriving DecidableEq

/-- `R_DEFAULT_METRICS_LABEL`, `rl-c-client-example`. -/
def R_DEFAULT_METRICS_LABEL : Bytes :=
  [114, 108, 45, 99, 45, 99, 108, 105, 101, 110, 116, 45, 101, 120, 97, 109, 112, 108, 101]

/-- `r_client_admission_config_defaults`; the two names are left to the caller. -/
def rClientAdmissionConfigDefaults : RAdmissionConfig where
  bucketName := none
  windowSizeMs := 1000
  rateLimit := 100
  tokensRequested := 1
  latencyTrackerName := none
  latencyThresholdMs := 100
  latencyTtlMs := 10000
  latencyMaxSamples := 100
  latencyMinSampleThreshold := 5
  metricsLabel := some R_DEFAULT_METRICS_LABEL

/-- The test of a string for its presence: the pointer is not null and the first
    character is not NUL. -/
def nameGiven : Option Bytes → Bool
  | none => false
  | some name => name.getD 0 0 != 0

/-- `r_admission_config_valid`. -/
def rAdmissionConfigValid (config : RAdmissionConfig) : Bool :=
  nameGiven config.bucketName && nameGiven config.latencyTrackerName && config.windowSizeMs > 0 &&
    config.rateLimit > 0 && config.tokensRequested > 0 && config.latencyThresholdMs > 0 &&
    config.latencyTtlMs > 0 && config.latencyMaxSamples > 0 && config.latencyMinSampleThreshold > 0

/-! ### Classification -/

/-- `r_admission_outcome_t`. -/
structure RAdmissionOutcome where
  decision : RAdmissionDecision
  allowed : Bool
  rateLimited : Bool
  latencyLimited : Bool
  tokensDeficit : UInt16
  currentLatencyMs : UInt32
  latencyThresholdMs : UInt32
deriving DecidableEq

/-- An outcome with a decision and no more. -/
def RAdmissionOutcome.of (decision : RAdmissionDecision) : RAdmissionOutcome :=
  ⟨decision, false, false, false, 0, 0, 0⟩

/-- What `r_client_admission_classify` reads of a result: the flag and two arrays behind
    pointers. -/
structure ResultRef where
  success : Bool
  resources : CArray RResourceResult
  guards : CArray RGuardResult

/-- The loop over the resources: the first deficit. -/
def blameResources (outcome : RAdmissionOutcome) (resources : List RResourceResult) :
    RAdmissionOutcome :=
  match resources.find? (fun resource => resource.tokensDeficit > 0) with
  | none => outcome
  | some resource =>
      { outcome with rateLimited := true, tokensDeficit := resource.tokensDeficit }

/-- The fields of an outcome that a guard fills. -/
def RAdmissionOutcome.measured (outcome : RAdmissionOutcome) (guard : RGuardResult) :
    RAdmissionOutcome :=
  { outcome with
    currentLatencyMs := guard.currentLatencyMs, latencyThresholdMs := guard.thresholdMs }

/-- The loop over the guards: the first that failed. -/
def blameGuards (outcome : RAdmissionOutcome) (guards : List RGuardResult) : RAdmissionOutcome :=
  match guards.find? (fun guard => !guard.passed) with
  | none => outcome
  | some guard => { outcome.measured guard with latencyLimited := true }

/-- A denial without a reason is taken for a resource denial. -/
def blameFallback (outcome : RAdmissionOutcome) : RAdmissionOutcome :=
  if !outcome.rateLimited && !outcome.latencyLimited then { outcome with rateLimited := true }
  else outcome

/-- The decision that the two flags of a denial come to. -/
def denialDecision (outcome : RAdmissionOutcome) : RAdmissionDecision :=
  if outcome.rateLimited && outcome.latencyLimited then .rateAndLatencyLimited
  else if outcome.latencyLimited then .latencyLimited
  else .rateLimited

/-- `r_client_admission_classify`. -/
def rClientAdmissionClassify (status : RClientError) (result : Option ResultRef) :
    RAdmissionOutcome :=
  match result with
  | none => .of .error
  | some result =>
      if status ≠ .ok then .of .error
      else if (result.resources.count > 0 && result.resources.isNull) ||
          (result.guards.count > 0 && result.guards.isNull) then .of .error
      else if result.success then
        let outcome : RAdmissionOutcome :=
          match result.guards.elems with
          | [] => .of .error
          | guard :: _ => (RAdmissionOutcome.of .error).measured guard
        { outcome with decision := .allowed, allowed := true }
      else
        let outcome := blameFallback
          (blameGuards (blameResources (.of .error) result.resources.elems) result.guards.elems)
        { outcome with decision := denialDecision outcome }

/-! ### The storage of one request -/

/-- `r_admission_request_t` with a handle of type `H`. The callback and its argument are
    the caller's and leave no trace here. -/
structure RAdmissionRequest (H : Type) where
  handle : Option H
  resource : RResourceRequest
  guard : RLatencyGuard
  metricsLabel : Option Bytes
  outcome : RAdmissionOutcome
  active : Bool
  admitted : Bool
  workExecuted : Bool
  latencyReported : Bool

/-- `memset(request, 0, sizeof(*request))`; the zero of the decision is `allowed`. -/
def RAdmissionRequest.zero (H : Type) : RAdmissionRequest H where
  handle := none
  resource :=
    { bucketId := .replicate 16 0, windowSizeMs := 0, rateLimit := 0, tokensRequested := 0 }
  guard :=
    { latencyTrackerId := .replicate 16 0, thresholdMs := 0, ttlMs := 0, maxSamples := 0,
      minSampleThreshold := 0 }
  metricsLabel := none
  outcome := .of .allowed
  active := false
  admitted := false
  workExecuted := false
  latencyReported := false

/-- `r_client_derive_bucket_id` and `r_client_derive_latency_tracker_id`, with the bytes of
    the name; the hash may fail. -/
structure IdDerivation where
  bucketId : Bytes → UInt32 → UInt32 → Option (FixedBytes 16)
  latencyTrackerId : Bytes → UInt32 → UInt32 → UInt32 → Option (FixedBytes 16)

/-- `r_client_admission_prepare`: the status and the storage, which is cleared as soon as
    the arguments are valid. -/
def rClientAdmissionPrepare (ids : IdDerivation) (request : RAdmissionRequest H)
    (config : RAdmissionConfig) (hasCb : Bool) : RClientError × RAdmissionRequest H :=
  if !hasCb || !rAdmissionConfigValid config then (.errConfig, request)
  else
    match ids.bucketId (config.bucketName.getD []) config.windowSizeMs config.rateLimit with
    | none => (.errConfig, .zero H)
    | some bucketId =>
        let resource : RResourceRequest :=
          { bucketId := bucketId
            windowSizeMs := config.windowSizeMs
            rateLimit := config.rateLimit
            tokensRequested := config.tokensRequested }
        match ids.latencyTrackerId (config.latencyTrackerName.getD []) config.latencyTtlMs
            config.latencyMaxSamples config.latencyMinSampleThreshold with
        | none => (.errConfig, { RAdmissionRequest.zero H with resource := resource })
        | some latencyTrackerId =>
            (.ok,
              { RAdmissionRequest.zero H with
                resource := resource
                guard :=
                  { latencyTrackerId := latencyTrackerId
                    thresholdMs := config.latencyThresholdMs
                    ttlMs := config.latencyTtlMs
                    maxSamples := config.latencyMaxSamples
                    minSampleThreshold := config.latencyMinSampleThreshold }
                metricsLabel := some (config.metricsLabel.getD R_DEFAULT_METRICS_LABEL)
                outcome := .of .error })

end RlClient
