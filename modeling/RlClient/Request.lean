import RlClient.Packet

/-!
# The request record and what it remembers

`struct r_client_req` of `src/r_client.c` with the functions that touch only one
request: its schedule, the age of a server, the retained candidate, the responder
lists and the membership snapshot.
-/

namespace RlClient

/-! ### The request schedule

`r_ha_schedule_units` and `r_request_policy_ttl_ms`. The round durations are computed in
32-bit arithmetic and the horizon in 64-bit arithmetic, with the overflow checks the
source makes. -/

/-- `R_CLIENT_HA_MAX_REPLAY_COUNT`. -/
def R_CLIENT_HA_MAX_REPLAY_COUNT : UInt32 := 65535

/-- `UINT32_MAX`, widened to the 64-bit type it is compared in. -/
def UINT32_MAX : UInt64 := 4294967295

/-- `UINT64_MAX`. -/
def UINT64_MAX : UInt64 := 18446744073709551615

/-- The `while` loop of the exponential schedule, `round` iterations at most. -/
def exponentialUnits (factor maxUnits : UInt32) : Nat → UInt32 → UInt32
  | 0, value => value
  | round + 1, value =>
      if value < maxUnits then
        exponentialUnits factor maxUnits round
          (if value > maxUnits / factor then maxUnits else value * factor)
      else value

/-- `r_ha_schedule_units`: the duration `B(round)` in units. -/
def rHaScheduleUnits (schedule : RHaSchedule) (round : UInt32) (allowZero : Bool) :
    Except RClientError UInt32 :=
  if (!allowZero && schedule.initialUnits == 0)
      || schedule.initialUnits > schedule.maxUnits then
    .error .errConfig
  else
    match schedule.kind with
    | .fixed => .ok schedule.initialUnits
    | .linear =>
        let step := schedule.growth
        if step = 0 then .error .errConfig
        else
          let room := schedule.maxUnits - schedule.initialUnits
          if round > room / step then .ok schedule.maxUnits
          else .ok (schedule.initialUnits + round * step)
    | .exponential =>
        let factor := schedule.growth
        if factor < 2 then .error .errConfig
        else .ok (exponentialUnits factor schedule.maxUnits round.toNat schedule.initialUnits)
    | .unknown _ => .error .errConfig

/-- The loop of `r_request_policy_ttl_ms` over the rounds still to add, which
    end with `replay_count`. -/
def ttlRounds (policy : RRequestPolicy) (maxTtlMs : UInt64) :
    (remaining : Nat) → (round : UInt32) → (totalUnits : UInt64) → Except RClientError UInt64
  | 0, _, totalUnits => .ok totalUnits
  | remaining + 1, round, totalUnits =>
      match rHaScheduleUnits policy.replayGap round false with
      | .error _ => .error .errConfig
      | .ok gapUnits =>
          if totalUnits > UINT64_MAX - gapUnits.toUInt64 then .error .errConfig
          else
            let total := totalUnits + gapUnits.toUInt64
            if total > maxTtlMs / policy.unitMs then .error .errConfig
            else ttlRounds policy maxTtlMs remaining (round + 1) total

/-- The TTL limit: the credential's quota, or the width of the wire field. -/
def maxTtlMs (hasQuotas : Bool) (quotas : RBech32Quotas) : UInt64 :=
  if hasQuotas && quotas.dedupTtlMsMax > 0 then quotas.dedupTtlMsMax.toUInt64 else UINT32_MAX

/-- `r_request_policy_ttl_ms`: the horizon `U * (B(0) + ... + B(N) + F)`. -/
def rRequestPolicyTtlMs (policy : RRequestPolicy) (hasQuotas : Bool) (quotas : RBech32Quotas) :
    Except RClientError UInt32 :=
  if policy.unitMs = 0 || policy.replayCount > R_CLIENT_HA_MAX_REPLAY_COUNT then
    .error .errConfig
  else
    let limit := maxTtlMs hasQuotas quotas
    if policy.unitMs > limit then .error .errConfig
    else
      match ttlRounds policy limit (policy.replayCount.toNat + 1) 0 0 with
      | .error rc => .error rc
      | .ok totalUnits =>
          if totalUnits > UINT64_MAX - policy.finalReceiveUnits.toUInt64 then .error .errConfig
          else
            let total := totalUnits + policy.finalReceiveUnits.toUInt64
            if total = 0 || total > UINT32_MAX / policy.unitMs
                || total > limit / policy.unitMs then
              .error .errConfig
            else .ok (total * policy.unitMs).toUInt32

/-! ### The record -/

/-- The address of a `struct r_client_req`; the allocator never hands out the
    address of a request that is still in use, and the model never reuses one. -/
abbrev Handle := Nat

/-! ### Age of a server -/

/-- `R_SERVER_ID_EPOCH_S_2025`. -/
def R_SERVER_ID_EPOCH_S_2025 : UInt64 := 1735689600

/-- `r_server_start_s_from_id`. -/
def rServerStartSFromId (serverId : UInt64) : UInt64 :=
  R_SERVER_ID_EPOCH_S_2025 + (serverId >>> 23)

/-- `r_server_is_older`. -/
def rServerIsOlder (candidateId currentId : UInt64) : Bool :=
  let candidateStartS := rServerStartSFromId candidateId
  let currentStartS := rServerStartSFromId currentId
  decide (candidateStartS < currentStartS)
    || (candidateStartS == currentStartS && decide (candidateId < currentId))

/-- `r_is_oldest_known_server`: the loop over `allowed_ids`, which codes the age
    relation a second time. -/
def rIsOldestKnownServer : (allowedIds : List UInt64) → (serverId : UInt64) → Bool
  | [], _ => true
  | candidate :: rest, serverId =>
      if candidate = serverId then rIsOldestKnownServer rest serverId
      else
        let candidateStart := rServerStartSFromId candidate
        let serverStart := rServerStartSFromId serverId
        if candidateStart < serverStart
            || (candidateStart == serverStart && decide (candidate < serverId)) then false
        else rIsOldestKnownServer rest serverId

/-! ### The request -/

/-- `r_request_phase_t`. -/
inductive RRequestPhase where
  | round
  | final
deriving DecidableEq, Repr

/-- `struct r_client_req`. The callback pointer is identified with the handle,
    `next` is the position in the client's list, and `best` is `none` when
    `best.has` is false. -/
structure RClientReq where
  handle : Handle
  requestId : FixedBytes 16
  resources : List RResourceRequest
  guards : List RLatencyGuard
  metricsLabel : Option Bytes
  targets : List RServerEndpoint
  allowedIds : List UInt64
  startMs : UInt64
  attemptDeadlineMs : UInt64
  dedupDeadlineMs : UInt64
  dedupTtlMs : UInt32
  phase : RRequestPhase
  haRound : UInt32
  haRoundStartMs : UInt64
  haPreferenceDeadlineMs : UInt64
  haRoundDeadlineMs : UInt64
  seenAddrs : List RAddr
  seenAddrCap : Nat
  seenServerIds : List UInt64
  seenServerIdCap : Nat
  steeringRebind : Bool
  packet : Bytes
  best : Option RRateLimitResult
deriving DecidableEq

/-- The capacity the responder arrays grow to. -/
def nextCap (cap : Nat) : Nat := if cap = 0 then 4 else cap * 2

/-- `r_seen_addr_add`; `allocOk` is the outcome of `realloc`, which runs only
    when the array is full. -/
def rSeenAddrAdd (req : RClientReq) (addr : RAddr) (allocOk : Bool) : RClientReq :=
  if req.seenAddrs.any (rAddrEqual · addr) then req
  else if req.seenAddrs.length = req.seenAddrCap then
    if allocOk then
      { req with seenAddrs := req.seenAddrs ++ [addr], seenAddrCap := nextCap req.seenAddrCap }
    else req
  else { req with seenAddrs := req.seenAddrs ++ [addr] }

/-- `r_seen_server_add`. -/
def rSeenServerAdd (req : RClientReq) (serverId : UInt64) (allocOk : Bool) : RClientReq :=
  if req.seenServerIds.any (· == serverId) then req
  else if req.seenServerIds.length = req.seenServerIdCap then
    if allocOk then
      { req with seenServerIds := req.seenServerIds ++ [serverId],
                 seenServerIdCap := nextCap req.seenServerIdCap }
    else req
  else { req with seenServerIds := req.seenServerIds ++ [serverId] }

/-- `r_allowed_server_id`: an empty list of ids admits every server. -/
def rAllowedServerId (req : RClientReq) (serverId : UInt64) : Bool :=
  if req.allowedIds.length = 0 then true else req.allowedIds.any (· == serverId)

/-- `r_request_target_responded`: by server id, or by address when the endpoint
    has none. -/
def rRequestTargetResponded (req : RClientReq) (target : RServerEndpoint) : Bool :=
  if target.hasServerId then req.seenServerIds.any (· == target.serverId)
  else req.seenAddrs.any (rAddrEqual · target.addr)

/-! ### The membership snapshot -/

/-- The inner loop of `r_request_snapshot_targets`: the ids in order of first
    occurrence. -/
def snapshotIds (servers : List RServerEndpoint) : List UInt64 :=
  servers.foldl (fun ids server =>
    if ids.any (· == server.serverId) then ids else ids ++ [server.serverId]) []

/-- Whether the two `calloc` calls of `r_request_snapshot_targets` succeed. -/
structure SnapshotAlloc where
  targets : Bool
  allowedIds : Bool

/-- `r_request_snapshot_targets`: the targets and the allowed ids. An endpoint
    without an id leaves the list of allowed ids empty. -/
def rRequestSnapshotTargets (servers : List RServerEndpoint) (alloc : SnapshotAlloc) :
    Except RClientError (List RServerEndpoint × List UInt64) :=
  if servers.length = 0 then .error .errDns
  else if !alloc.targets then .error .errNomem
  else if servers.any (fun server => !server.hasServerId) then .ok (servers, [])
  else if !alloc.allowedIds then .error .errNomem
  else .ok (servers, snapshotIds servers)

/-! ### Responses and the candidate -/

/-- An accepted response: the fields of the tenant header and of the parsed PDU
    that `r_client_on_datagram` uses. -/
structure RResponse where
  serverId : UInt64
  steeringByte : UInt8
  success : Bool
  guards : List RGuardResult
  resources : List RResourceResult
deriving DecidableEq

/-- The result a response is delivered as. -/
def RResponse.result (response : RResponse) : RRateLimitResult where
  success := response.success
  serverId := response.serverId
  steeringFeedback := response.steeringByte != 0
  guards := response.guards
  resources := response.resources

/-- `r_candidate_try_update_best`: keep the first response, then replace it only
    by one from an older server. -/
def rCandidateTryUpdateBest (best : Option RRateLimitResult) (result : RRateLimitResult) :
    Option RRateLimitResult :=
  match best with
  | none => some result
  | some current => if rServerIsOlder result.serverId current.serverId then some result else best

/-- Whether the two `realloc` calls behind the responder lists succeed. -/
structure SeenAlloc where
  addrs : Bool
  serverIds : Bool

/-- The updates `r_client_on_datagram` makes to a request once a response has
    passed every check: steering flag, responder lists, candidate. -/
def recordResponse (req : RClientReq) (response : RResponse) (sender : RAddr)
    (alloc : SeenAlloc) : RClientReq :=
  let flagged := if response.steeringByte = 0 then { req with steeringRebind := true } else req
  let seen := rSeenServerAdd (rSeenAddrAdd flagged sender alloc.addrs) response.serverId
    alloc.serverIds
  { seen with best := rCandidateTryUpdateBest seen.best response.result }

end RlClient
