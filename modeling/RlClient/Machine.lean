import RlClient.Client
import RlClient.Run

/-!
# The client as a machine

Creation of a client, and the step function over everything a host can do to it.
Between two steps either no call is on the C stack, or the innermost one is a
completion callback that has not returned; `frames` lists these callbacks,
innermost first. From inside a callback the host may submit, report and cancel;
datagrams and timers are delivered only when no callback is running.
-/

namespace RlClient

/-! ### Creation -/

/-- What `r_decode_api_key_bech32_with_quotas` returns for an accepted key. -/
structure DecodedKey where
  authType : RAuthType
  keyId : UInt64
  secret : FixedBytes 32
  quotas : RBech32Quotas
deriving DecidableEq

/-- `r_client_config_t`, `r_io_ops_t` and the other inputs of
    `r_client_create`; `decoded` is the outcome of decoding the secret. -/
structure CreateArgs where
  authType : RAuthType
  keyId : UInt64
  dnsName : Option Bytes
  requestPolicy : Option RRequestPolicy
  requestProfileCb : Bool
  dnsRefresh : RDnsRefreshPolicy
  udpSend : Bool
  onSteeringFeedback : Bool
  decoded : Option DecodedKey
  refresh : RefreshIo

def asciiBytes (text : String) : Bytes := text.toList.map fun c => UInt8.ofNat c.toNat

/-- `r_client_format_default_tenant_dns`. -/
def rClientFormatDefaultTenantDns (keyId : UInt64) : Bytes :=
  asciiBytes ("c-" ++ toString keyId.toNat ++ ".p0.ratelimitly.com")

/-- `r_client_configure_auth`: the decoded type and key id must match the
    configured ones where these are set. -/
def rClientConfigureAuth (args : CreateArgs) : Except RClientError (RCredential × RBech32Quotas) :=
  match args.decoded with
  | none => .error .errConfig
  | some key =>
      if args.authType ≠ .derive && key.authType ≠ args.authType then .error .errConfig
      else if args.keyId ≠ 0 && key.keyId ≠ args.keyId then .error .errConfig
      else
        match key.authType with
        | .cookie =>
            .ok ({ keyId := key.keyId, authType := .cookie, cookie := key.secret, hasCookie := true,
                   aesKey := .replicate 32 0, hasAesKey := false }, key.quotas)
        | .aesGcm =>
            .ok ({ keyId := key.keyId, authType := .aesGcm, cookie := .replicate 32 0,
                   hasCookie := false, aesKey := key.secret, hasAesKey := true }, key.quotas)
        | .derive => .error .errConfig

/-- `r_client_configure_dns`. -/
def rClientConfigureDns (keyId : UInt64) (dnsName : Option Bytes) : Bytes :=
  match dnsName with
  | some (b :: rest) => b :: rest
  | _ => rClientFormatDefaultTenantDns keyId

/-- `r_client_create`, allocation succeeding. -/
def rClientCreate (args : CreateArgs) : Except RClientError RClient :=
  match rClientConfigureAuth args with
  | .error rc => .error rc
  | .ok (credential, quotas) =>
      let dnsName := rClientConfigureDns credential.keyId args.dnsName
      .ok
        { credential := credential
          hasQuotas := true
          quotas := quotas
          policy := args.requestPolicy.getD rClientDefaultRequestPolicy
          dnsRefresh := args.dnsRefresh
          dnsName := dnsName
          requestProfileCb := args.requestProfileCb
          udpSend := args.udpSend
          onSteeringFeedback := args.onSteeringFeedback
          membership := rDnsMaybeRefresh .empty args.dnsRefresh dnsName true args.refresh
          sendFailureCount := 0
          inflight := []
          steeringRebindPending := false }

/-! ### Steps -/

/-- A client with the callbacks that are running and the allocator's next
    address. -/
structure Machine where
  client : RClient
  frames : List Frame
  nextHandle : Handle
deriving DecidableEq

/-- Everything the host does: entry points it calls, the return of a callback,
    and the end of a refresh that the resolver finishes later. -/
inductive Call where
  | submit (args : SubmitArgs) (io : SubmitIo)
  | report (reports : CArray RServiceLatencyReport) (io : ReportIo)
  | datagram (buf : Bytes) (sender : RAddr) (io : DatagramIo)
  | timeout (h : Handle) (nowMs : UInt64) (io : TimeoutIo)
  | cancel (h : Handle)
  | callbackReturn
  | refreshFinish (discovery : Discovery) (nowMs : UInt64)

/-- The machine after an entry point: a callback it invoked is now running. -/
def Machine.afterReply (m : Machine) (reply : Reply) : Machine :=
  { m with client := reply.client, frames := reply.frame.toList ++ m.frames }

/-- The code behind a callback: `r_request_complete` notifies and frees, an empty
    submission just returns. -/
def rCallbackReturned (c : RClient) : Frame → RClient × List Effect
  | .completing _ => rNotifySteeringWhenDrained c
  | .emptyRequest => (c, [])

/-- One step. A timer needs the handle of a live request, a callback can return
    only if one is running, and a background refresh ends only while there is one. -/
def step (gcm : Gcm) (m : Machine) : Call → Option (Machine × List Effect)
  | .submit args io =>
      let reply := rClientCheckRateLimitAsyncImpl gcm m.client m.nextHandle args io
      some ({ m.afterReply reply with nextHandle := m.nextHandle + 1 }, reply.effects)
  | .report reports io =>
      let reply := rClientReportLatency gcm m.client reports io
      some (m.afterReply reply, reply.effects)
  | .datagram buf sender io =>
      if m.frames.isEmpty then
        let reply := rClientOnDatagram gcm m.client buf sender io
        some (m.afterReply reply, reply.effects)
      else none
  | .timeout h nowMs io =>
      if m.frames.isEmpty then
        match m.client.inflight.find? (·.handle == h) with
        | none => none
        | some req =>
            let reply := rClientOnTimeout m.client req nowMs io
            some (m.afterReply reply, reply.effects)
      else none
  | .cancel h =>
      let cancelled := rClientCancelRequest m.client h
      some ({ m with client := cancelled.1 }, cancelled.2)
  | .callbackReturn =>
      match m.frames with
      | [] => none
      | frame :: frames =>
          let returned := rCallbackReturned m.client frame
          some ({ m with client := returned.1, frames := frames }, returned.2)
  | .refreshFinish discovery nowMs =>
      if m.client.membership.dnsRefreshInflight then
        some ({ m with client :=
          { m.client with membership := rDnsRefreshFinish m.client.membership discovery nowMs } },
          [])
      else none

def Machine.init (c : RClient) : Machine := { client := c, frames := [], nextHandle := 0 }

/-- A run of the host's calls from a fresh client, with the trace of effects. -/
abbrev run (gcm : Gcm) (c : RClient) (calls : List Call) : Option (Machine × List Effect) :=
  Run.exec (step gcm) (.init c) calls

/-! ### A deployment to evaluate

A tenant with a cookie credential, the default policy (`U = 20`, `N = 1`, one
unit per round and a final phase of one unit) and the servers 5 and 3. -/

def sampleServer (id : UInt8) : RSrvRecord × List RAddr :=
  ({ target := [115, 45, 48 + id, 46], port := 9000, ttlMs := 0 },
    [{ sa := [2, 0, 0, 0, 10, 0, 0, id, 0, 0, 0, 0, 0, 0, 0, 0], len := 16 }])

def sampleDiscovery : Discovery where
  records := []
  answers := [sampleServer 5, sampleServer 3]

def sampleQuotas : RBech32Quotas where
  formatVersion := 1
  rateBucketsMax := 0
  latencyServicesMax := 0
  metricsLabelsMax := 0
  latencyBufferSizeMax := 0
  dedupTtlMsMax := 1000
  rateWindowSizeMsMax := 60000

def sampleDnsRefresh : RDnsRefreshPolicy where
  refreshIntervalMs := 0
  forcedRefreshMinIntervalMs := 0
  forcedRefreshJitterMs := 0

def sampleArgs : CreateArgs where
  authType := .derive
  keyId := 0
  dnsName := some [120]
  requestPolicy := none
  requestProfileCb := true
  dnsRefresh := sampleDnsRefresh
  udpSend := true
  onSteeringFeedback := true
  decoded := some
    { authType := .cookie, keyId := 7, secret := .replicate 32 1, quotas := sampleQuotas }
  refresh := { nowMs := 50, jitterDraw := none, progress := .finished sampleDiscovery 50 }

def sampleClient : RClient where
  credential :=
    { keyId := 7, authType := .cookie, cookie := .replicate 32 1, hasCookie := true,
      aesKey := .replicate 32 0, hasAesKey := false }
  hasQuotas := true
  quotas := sampleQuotas
  policy := rClientDefaultRequestPolicy
  dnsRefresh := sampleDnsRefresh
  dnsName := [120]
  requestProfileCb := true
  udpSend := true
  onSteeringFeedback := true
  membership := rDnsRefreshFinish .empty sampleDiscovery 50
  sendFailureCount := 0
  inflight := []
  steeringRebindPending := false

theorem sampleClient_created : rClientCreate sampleArgs = .ok sampleClient := rfl

/-- A cipher for a client that never uses one. -/
def noGcm : Gcm where
  encrypt _ _ _ plain := (plain, .replicate 16 0)
  decrypt _ _ _ _ _ := none

/-- Submit one resource at `nowMs`; `id` fills the random bytes of the request id. -/
def sampleSubmit (id : UInt8) (nowMs : UInt64) : Call :=
  .submit
    { hasCb := true
      resources := .array
        [{ bucketId := .replicate 16 9, windowSizeMs := 1000, rateLimit := 5,
           tokensRequested := 1 }]
      guards := .array []
      metricsLabel := none
      metricsLabelLen := 0
      borrowed := false }
    { refresh := { nowMs := nowMs, jitterDraw := none, progress := .pending }
      forcedRefresh := { nowMs := nowMs, jitterDraw := none, progress := .pending }
      allocReq := true
      allocResources := true
      allocGuards := true
      allocLabel := true
      randRequestId := some (.replicate 16 id)
      startMs := nowMs
      stampMs := nowMs
      encrypt := { randNonce := some (.replicate 12 2), evpOk := true }
      allocSnapshot := { targets := true, allowedIds := true }
      roundMs := nowMs
      udpSend := fun _ => true }

/-- The request id made of the bytes `id`, with its version and variant bits. -/
def sampleRequestId (id : UInt8) : FixedBytes 16 :=
  ⟨[id, id, id, id, id, id, (id &&& 0x0F) ||| 0x40, id, (id &&& 0x3F) ||| 0x80, id, id, id, id,
    id, id, id], rfl⟩

/-- A response to request `id` from a server: one resource, no deficit. -/
def sampleResponse (id : UInt8) (serverId : UInt64) (steering : UInt8) : Bytes :=
  rTenantHeaderWrite
    { tlvType := R_TLV_TENANT, tlvSize := 40, keyId := serverId, uniqueId := sampleRequestId id,
      timeStamp := 0, steeringFeedback := steering, tenantMgmtFlag := 0, padding0 := 0,
      padding1 := 0 } ++
  (rWriteLe16 R_TLV_AUTH_COOKIE ++ rWriteLe16 36 ++ List.replicate 32 1 ++
    (rWriteLe16 R_PDU_RATE_RESPONSE ++ rWriteLe16 40 ++ rWriteLe32 0 ++
      (rWriteLe16 0 ++ rWriteLe16 1 ++ List.replicate 28 0)))

def sampleComplete (nowMs : UInt64) : CompleteIo :=
  { profileMs := nowMs, deliveryMs := nowMs, udpSend := fun _ => true }

def sampleDatagram (id : UInt8) (serverId : UInt64) (steering : UInt8) (nowMs : UInt64) : Call :=
  .datagram (sampleResponse id serverId steering) { sa := [], len := 0 }
    { gateMs := nowMs
      evpOk := true
      allocResponse := { guards := true, resources := true }
      nowMs := nowMs
      allocSeen := { addrs := true, serverIds := true }
      complete := sampleComplete nowMs }

def sampleTimeout (h : Handle) (nowMs : UInt64) : Call :=
  .timeout h nowMs
    { roundMs := nowMs, udpSend := fun _ => true, complete := sampleComplete nowMs }

end RlClient
