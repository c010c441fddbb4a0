import RlClient.Refusal
import RlClient.Workflow

/-!
# Admission requests over a client

The rest of `src/r_client_workflow.c`, with `r_runtime_admission_run_and_report` of
`src/r_client_runtime.c`: one `r_admission_request_t` is submitted, completed,
cancelled and reported, and protected work runs under it. Completion callbacks and
protected work call back into all of this, so a function that invokes one ends
there, and the code behind it is a step of its own.

The entry points check little: a host may prepare a storage whose request is active, and
may cancel the client request behind it at the client. `Admission.proper` says which calls a
host has to avoid for the storage to stay in step with the client.
-/

namespace RlClient

/-! ### The entry points -/

/-- A result as `r_client_admission_classify` finds it. -/
def RRateLimitResult.ref (result : RRateLimitResult) : ResultRef where
  success := result.success
  resources := .array result.resources
  guards := .array result.guards

/-- `r_admission_complete` up to the caller's callback, whose pointer is not modelled. -/
def rAdmissionComplete (request : RAdmissionRequest H) (status : RClientError)
    (result : Option RRateLimitResult) : RAdmissionRequest H :=
  let outcome := rClientAdmissionClassify status (result.map (·.ref))
  { request with
    handle := none
    active := false
    outcome := outcome
    admitted := outcome.allowed }

/-- The submission of `r_client_admission_start`. -/
def RAdmissionRequest.submission (request : RAdmissionRequest H) : SubmitArgs where
  hasCb := true
  resources := .array [request.resource]
  guards := .array [request.guard]
  metricsLabel := request.metricsLabel
  metricsLabelLen := 0
  borrowed := true

/-- `r_client_admission_start` behind a successful preparation. The submission is not
    empty, so no callback runs inside it. -/
def startPrepared (gcm : Gcm) (c : RClient) (h : Handle) (request : RAdmissionRequest Handle)
    (io : SubmitIo) : RAdmissionRequest Handle × Reply :=
  let args := request.submission
  let reply := rClientCheckRateLimitAsyncImpl gcm c h args io
  let handle := (outReqAfter gcm c h args io (some request.handle)).getD none
  if reply.status ≠ .ok then ({ request with handle := none, active := false }, reply)
  else ({ request with handle := handle, active := true }, reply)

/-- The sample `r_client_admission_report_latency` reports. -/
def RAdmissionRequest.sample (request : RAdmissionRequest H) (observedLatencyMs : UInt32) :
    RServiceLatencyReport where
  latencyTrackerId := request.guard.latencyTrackerId
  observedLatency := observedLatencyMs
  ttlMs := request.guard.ttlMs
  maxSamples := request.guard.maxSamples
  minSampleThreshold := request.guard.minSampleThreshold

/-- `r_client_admission_report_latency`. -/
def rClientAdmissionReportLatency (gcm : Gcm) (c : RClient) (request : RAdmissionRequest H)
    (observedLatencyMs : UInt32) (io : ReportIo) : RAdmissionRequest H × Reply :=
  if request.active || !request.admitted || request.latencyReported then
    (request, .done .errConfig c [])
  else
    let reply := rClientReportLatency gcm c (.array [request.sample observedLatencyMs]) io
    (if reply.status = .ok then { request with latencyReported := true } else request, reply)

/-- The latency `r_runtime_admission_run_and_report` observes between two readings of
    the monotonic clock; `none` when the second one fails or lies before the first. -/
def observedLatencyMs (startedMs : UInt64) (finishedMs : Option UInt64) : Option UInt32 :=
  match finishedMs with
  | none => none
  | some finishedMs =>
      if finishedMs < startedMs then none
      else
        let elapsedMs := finishedMs - startedMs
        some (if elapsedMs > 0xffffffff then 0xffffffff else elapsedMs.toUInt32)

/-! ### The workflow as a machine -/

/-- A call on the C stack that has left control to the host: a completion callback, or
    protected work with the time it was started. -/
inductive OpenCall where
  | callback
  | work (startedMs : UInt64)
deriving DecidableEq

/-- A client and one storage. `owned` are the client requests whose callback is
    `r_admission_complete` on this storage, `stack` the open calls, innermost first. -/
structure Admission where
  machine : Machine
  request : RAdmissionRequest Handle
  owned : List Handle
  stack : List OpenCall

/-- What the host does: the entry points on the storage, the return of protected work,
    and everything it does to the client besides. -/
inductive AdmissionCall where
  | prepare (config : RAdmissionConfig) (hasCb : Bool)
  | start (config : RAdmissionConfig) (hasCb : Bool) (io : SubmitIo)
  | onTimeout (nowMs : UInt64) (io : TimeoutIo)
  | cancel
  | reportLatency (observedLatencyMs : UInt32) (io : ReportIo)
  | runAndReport (hasWork : Bool) (startedMs : Option UInt64)
  | workReturn (status : Int) (finishedMs : Option UInt64) (io : ReportIo)
  | host (call : Call)

/-- What happens, in program order: the effects of the client, and the points of the
    workflow. -/
inductive AdmissionEvent where
  | client (e : Effect)
  | prepared                                -- a preparation succeeded
  | cleared                                 -- a preparation failed behind its `memset`
  | submitted                               -- the request is in flight
  | completed (status : RClientError) (outcome : RAdmissionOutcome)
  | cancelled
  | work                                    -- protected work is invoked
  | worked (status : Int)                   -- and returns
  | reported (status : RClientError)        -- `r_client_admission_report_latency` returns
deriving DecidableEq

/-- What a preparation comes to. -/
def preparation (ids : IdDerivation) (request : RAdmissionRequest Handle)
    (config : RAdmissionConfig) (hasCb : Bool) : List AdmissionEvent :=
  if !hasCb || !rAdmissionConfigValid config then []
  else if (rClientAdmissionPrepare ids request config hasCb).1 = .ok then [.prepared]
  else [.cleared]

/-- The machine as a new call finds it: the callbacks below it wait. -/
def Machine.bare (m : Machine) : Machine := { m with frames := [] }

namespace Admission

/-- The storage through the effects of the client: a callback of a request it owns is
    `r_admission_complete`. -/
def absorb (owned : List Handle) :
    RAdmissionRequest Handle → List Effect → RAdmissionRequest Handle × List AdmissionEvent
  | request, [] => (request, [])
  | request, .callback (some h) status result :: rest =>
      if h ∈ owned then
        let completed := rAdmissionComplete request status result
        let absorbed := absorb owned completed rest
        (absorbed.1, .client (.callback (some h) status result) ::
          .completed status completed.outcome :: absorbed.2)
      else
        let absorbed := absorb owned request rest
        (absorbed.1, .client (.callback (some h) status result) :: absorbed.2)
  | request, e :: rest =>
      let absorbed := absorb owned request rest
      (absorbed.1, .client e :: absorbed.2)

/-- A call into the client, also from inside callbacks and protected work. -/
def enter (gcm : Gcm) (s : Admission) (call : Call) :
    Option (Admission × List AdmissionEvent) :=
  match RlClient.step gcm s.machine.bare call with
  | none => none
  | some (m', effects) =>
      let absorbed := absorb s.owned s.request effects
      some
        ({ s with
            machine := { m' with frames := m'.frames ++ s.machine.frames }
            request := absorbed.1
            stack := m'.frames.map (fun _ => .callback) ++ s.stack }, absorbed.2)

/-- The return of the innermost open call, a completion callback. -/
def leave (gcm : Gcm) (s : Admission) : Option (Admission × List AdmissionEvent) :=
  match s.stack with
  | .callback :: rest =>
      match RlClient.step gcm s.machine .callbackReturn with
      | none => none
      | some (m', effects) =>
          some ({ s with machine := m', stack := rest }, effects.map .client)
  | _ => none

/-- `r_client_admission_report_latency` on the storage. -/
def report (gcm : Gcm) (s : Admission) (observedLatencyMs : UInt32) (io : ReportIo) :
    Admission × List AdmissionEvent :=
  let reported := rClientAdmissionReportLatency gcm s.machine.client s.request observedLatencyMs io
  ({ s with
      machine := { s.machine with client := reported.2.client }
      request := reported.1 },
    reported.2.effects.map .client ++ [.reported reported.2.status])

/-- `r_client_admission_start` on the storage. -/
def start (gcm : Gcm) (ids : IdDerivation) (s : Admission) (config : RAdmissionConfig)
    (hasCb : Bool) (io : SubmitIo) : Admission × List AdmissionEvent :=
  let prepared := rClientAdmissionPrepare ids s.request config hasCb
  let events := preparation ids s.request config hasCb
  if prepared.1 ≠ .ok then ({ s with request := prepared.2 }, events)
  else
    let h := s.machine.nextHandle
    let started := startPrepared gcm s.machine.client h prepared.2 io
    ({ s with
        machine := { s.machine with client := started.2.client, nextHandle := h + 1 }
        request := started.1
        owned := h :: s.owned },
      events ++ (started.2.effects.map .client ++
        if started.2.status = .ok then [.submitted] else []))

def step (gcm : Gcm) (ids : IdDerivation) (s : Admission) :
    AdmissionCall → Option (Admission × List AdmissionEvent)
  | .prepare config hasCb =>
      some ({ s with request := (rClientAdmissionPrepare ids s.request config hasCb).2 },
        preparation ids s.request config hasCb)
  | .start config hasCb io => some (s.start gcm ids config hasCb io)
  | .onTimeout nowMs io =>
      if !s.request.active then some (s, [])
      else
        match s.request.handle with
        | none => some (s, [])
        | some h => s.enter gcm (.timeout h nowMs io)
  | .cancel =>
      if !s.request.active then some (s, [])
      else
        match s.request.handle with
        | none => some (s, [])
        | some h =>
            let cancelled := rClientCancelRequest s.machine.client h
            some
              ({ s with
                  machine := { s.machine with client := cancelled.1 }
                  request :=
                    { s.request with handle := none, active := false, admitted := false } },
                cancelled.2.map .client ++ [.cancelled])
  | .reportLatency observedLatencyMs io => some (s.report gcm observedLatencyMs io)
  | .runAndReport hasWork startedMs =>
      if !s.request.admitted || s.request.workExecuted || !hasWork then some (s, [])
      else
        match startedMs with
        | none => some (s, [])
        | some startedMs =>
            some
              ({ s with
                  request := { s.request with workExecuted := true }
                  stack := .work startedMs :: s.stack }, [.work])
  | .workReturn status finishedMs io =>
      match s.stack with
      | .work startedMs :: rest =>
          let returned := { s with stack := rest }
          if status ≠ 0 then some (returned, [.worked status])
          else
            match observedLatencyMs startedMs finishedMs with
            | none => some (returned, [.worked status])
            | some observed =>
                let reported := returned.report gcm observed io
                some (reported.1, .worked status :: reported.2)
      | _ => none
  | .host .callbackReturn => s.leave gcm
  | .host call => s.enter gcm call

def init (c : RClient) (request : RAdmissionRequest Handle) : Admission where
  machine := .init c
  request := request
  owned := []
  stack := []

abbrev run (gcm : Gcm) (ids : IdDerivation) (c : RClient) (request : RAdmissionRequest Handle)
    (calls : List AdmissionCall) : Option (Admission × List AdmissionEvent) :=
  Run.exec (step gcm ids) (init c request) calls

/-- The storage is started only while its request is not active. -/
def startsIdle (s : Admission) : AdmissionCall → Bool
  | .start _ _ _ => !s.request.active
  | _ => true

/-- The storage is also prepared only while its request is not active, and the client request
    behind it is cancelled only through the storage. -/
def proper (s : Admission) : AdmissionCall → Bool
  | .prepare _ _ => !s.request.active
  | .start _ _ _ => !s.request.active
  | .host (.cancel h) => s.request.handle != some h
  | _ => true

end Admission

end RlClient
