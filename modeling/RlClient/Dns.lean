import RlClient.Request

/-!
# Discovery

The membership side of `src/r_client.c`: which SRV records count, which
endpoints a refresh collects, when a refresh starts and what its end installs.
A refresh is taken as a whole here: the resolver supplies the records and, in
the order in which the address callbacks run, the addresses found.
-/

namespace RlClient

/-- `r_srv_record_t`; priority and weight are ignored by the client. -/
structure RSrvRecord where
  target : Bytes
  port : UInt16
  ttlMs : UInt32
deriving DecidableEq

/-- The digits of a server-id label, accumulated in 64-bit arithmetic. -/
def parseDecimal : Bytes → UInt64 → Option UInt64
  | [], value => some value
  | c :: rest, value =>
      if c < 48 || c > 57 then none
      else parseDecimal rest (value * 10 + (c - 48).toUInt64)

/-- `r_parse_server_id_from_target`: the first label must be `s-` and digits. -/
def rParseServerIdFromTarget (target : Bytes) : Option UInt64 :=
  let label := target.takeWhile (· != 46)
  if label.length < 3 then none
  else if label.getD 0 0 ≠ 115 || label.getD 1 0 ≠ 45 then none
  else parseDecimal (label.drop 2) 0

/-- `AF_INET` and `AF_INET6`. -/
def AF_INET : Nat := 2
def AF_INET6 : Nat := 10

/-- `r_addr_set_port`: the port follows the address family, in network order. -/
def rAddrSetPort (addr : RAddr) (port : UInt16) : RAddr :=
  let family := leWordAt 2 addr.sa 0
  let sa := addr.sa.take 2 ++ [(port >>> 8).toUInt8, port.toUInt8] ++ addr.sa.drop 4
  if family = AF_INET then { sa := sa, len := 16 }
  else if family = AF_INET6 then { sa := sa, len := 28 }
  else addr

/-- What one refresh learned from the resolver: the SRV answer, if its lookup
    succeeded, and each successful address answer with the record it is for. -/
structure Discovery where
  records : List RSrvRecord
  answers : List (RSrvRecord × List RAddr)
deriving DecidableEq

/-- `r_dns_addr_cb_fn` for one answered lookup: one endpoint per address, with
    the port and the id of its record. Only conforming records are looked up. -/
def rDnsAddrCbFn (record : RSrvRecord) (addrs : List RAddr) : List RServerEndpoint :=
  match rParseServerIdFromTarget record.target with
  | none => []
  | some serverId =>
      addrs.map fun addr =>
        { addr := rAddrSetPort addr record.port, serverId := serverId, hasServerId := true }

/-- The endpoints a refresh has collected when it finishes. -/
def Discovery.endpoints (discovery : Discovery) : List RServerEndpoint :=
  discovery.answers.flatMap fun answer => rDnsAddrCbFn answer.1 answer.2

/-- One iteration of the loop of `r_dns_srv_cb_fn`: the least non-zero TTL of
    the conforming records so far. -/
def foldMinTtlMs (minTtlMs : UInt64) (record : RSrvRecord) : UInt64 :=
  let ttlMs := record.ttlMs.toUInt64
  match rParseServerIdFromTarget record.target with
  | none => minTtlMs
  | some _ => if ttlMs > 0 && (minTtlMs == 0 || ttlMs < minTtlMs) then ttlMs else minTtlMs

/-- The TTL a refresh reports for its SRV answer. -/
def Discovery.minTtlMs (discovery : Discovery) : UInt64 :=
  discovery.records.foldl foldMinTtlMs 0

/-- The membership fields of `struct r_client`. -/
structure RMembership where
  servers : List RServerEndpoint
  lastDnsRefreshMs : UInt64
  dnsRefreshTtlMs : UInt64
  dnsRefreshInflight : Bool
deriving DecidableEq

def RMembership.empty : RMembership where
  servers := []
  lastDnsRefreshMs := 0
  dnsRefreshTtlMs := 0
  dnsRefreshInflight := false

/-- `r_dns_refresh_finish` for an attached refresh: the servers are replaced as
    a whole, and only when the refresh found an endpoint. -/
def rDnsRefreshFinish (membership : RMembership) (discovery : Discovery) (nowMs : UInt64) :
    RMembership :=
  if discovery.endpoints.length > 0 then
    { servers := discovery.endpoints
      lastDnsRefreshMs := nowMs
      dnsRefreshTtlMs := discovery.minTtlMs
      dnsRefreshInflight := false }
  else { membership with dnsRefreshInflight := false }

/-- What the resolver did while `r_dns_start_refresh` was on the stack: the
    refresh goes on in the background, or it finished before the call returned. -/
inductive RefreshProgress where
  | pending
  | finished (discovery : Discovery) (finishMs : UInt64)

/-- `r_dns_start_refresh`. The query name has 18 characters in front of the
    tenant name and must fit a buffer of 512. -/
def rDnsStartRefresh (membership : RMembership) (dnsName : Bytes) (progress : RefreshProgress) :
    RMembership :=
  if membership.dnsRefreshInflight then membership
  else if 18 + dnsName.length ≥ 512 then membership
  else
    match progress with
    | .pending => { membership with dnsRefreshInflight := true }
    | .finished discovery finishMs => rDnsRefreshFinish membership discovery finishMs

/-- `r_rand_range`; `draw` is what `RAND_bytes` delivered, if it did. -/
def rRandRange (max : UInt64) (draw : Option UInt64) : UInt64 :=
  if max = 0 then 0
  else
    match draw with
    | none => 0
    | some value => value % (max + 1)

/-- What `r_dns_maybe_refresh` takes from its environment. -/
structure RefreshIo where
  nowMs : UInt64
  jitterDraw : Option UInt64
  progress : RefreshProgress

/-- The periodic interval: the configured one, lowered to the SRV TTL. -/
def refreshIntervalMs (membership : RMembership) (policy : RDnsRefreshPolicy) : UInt64 :=
  let configured := if policy.refreshIntervalMs = 0 then 300000 else policy.refreshIntervalMs
  if membership.dnsRefreshTtlMs > 0 && membership.dnsRefreshTtlMs < configured then
    membership.dnsRefreshTtlMs
  else configured

/-- The least distance of a forced refresh from the last successful one. -/
def forcedIntervalMs (policy : RDnsRefreshPolicy) (draw : Option UInt64) : UInt64 :=
  let base :=
    if policy.forcedRefreshMinIntervalMs = 0 then 1000 else policy.forcedRefreshMinIntervalMs
  if policy.forcedRefreshJitterMs > 0 then base + rRandRange policy.forcedRefreshJitterMs draw
  else base

/-- The decision of `r_dns_maybe_refresh` to start a refresh. -/
def refreshDue (membership : RMembership) (policy : RDnsRefreshPolicy) (force : Bool)
    (io : RefreshIo) : Bool :=
  if !force then
    membership.lastDnsRefreshMs == 0
      || decide (io.nowMs - membership.lastDnsRefreshMs ≥ refreshIntervalMs membership policy)
  else
    !(membership.lastDnsRefreshMs != 0
      && decide (io.nowMs - membership.lastDnsRefreshMs < forcedIntervalMs policy io.jitterDraw))

/-- `r_dns_maybe_refresh`; its callers ignore the status. -/
def rDnsMaybeRefresh (membership : RMembership) (policy : RDnsRefreshPolicy) (dnsName : Bytes)
    (force : Bool) (io : RefreshIo) : RMembership :=
  if refreshDue membership policy force io then
    rDnsStartRefresh membership dnsName io.progress
  else membership

/-! ### Every known server has an id -/

def RMembership.Identified (membership : RMembership) : Prop :=
  ∀ server ∈ membership.servers, server.hasServerId = true

theorem Discovery.endpoints_identified (discovery : Discovery) :
    ∀ server ∈ discovery.endpoints, server.hasServerId = true := by
  intro server hserver
  simp only [Discovery.endpoints, List.mem_flatMap] at hserver
  obtain ⟨answer, -, hmem⟩ := hserver
  unfold rDnsAddrCbFn at hmem
  split at hmem
  · simp at hmem
  · obtain ⟨addr, -, rfl⟩ := List.mem_map.mp hmem
    rfl

theorem rDnsRefreshFinish_identified {membership : RMembership} (h : membership.Identified)
    (discovery : Discovery) (nowMs : UInt64) :
    (rDnsRefreshFinish membership discovery nowMs).Identified := by
  unfold rDnsRefreshFinish
  split
  · exact discovery.endpoints_identified
  · exact h

theorem rDnsStartRefresh_identified {membership : RMembership} (h : membership.Identified)
    (dnsName : Bytes) (progress : RefreshProgress) :
    (rDnsStartRefresh membership dnsName progress).Identified := by
  unfold rDnsStartRefresh
  split
  · exact h
  · split
    · exact h
    · cases progress with
      | pending => exact h
      | finished discovery finishMs => exact rDnsRefreshFinish_identified h discovery finishMs

/-- Whatever the resolver answers, a refresh leaves only identified servers. -/
theorem rDnsMaybeRefresh_identified {membership : RMembership} (h : membership.Identified)
    (policy : RDnsRefreshPolicy) (dnsName : Bytes) (force : Bool) (io : RefreshIo) :
    (rDnsMaybeRefresh membership policy dnsName force io).Identified := by
  unfold rDnsMaybeRefresh
  split
  · exact rDnsStartRefresh_identified h dnsName io.progress
  · exact h

end RlClient
