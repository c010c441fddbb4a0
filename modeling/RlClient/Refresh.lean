import RlClient.Dns
import RlClient.Run

/-!
# A refresh and its lookups

`src/r_client.c` from `r_dns_refresh_add_endpoint` to `r_dns_addr_cb_fn`: the
objects behind one discovery, the counters that decide when it is over, and the
code that runs while the resolver is on the stack. `Dns` takes a refresh as a
whole; here it is a machine. Between two steps the resolver or the host is in
control; `stack` lists the resolver calls that have not returned, innermost
first, with what the client does behind each of them.

An object that has been freed is no longer in the state, and an access to one has
no result: a run that goes on is a run that never touched freed memory.
-/

namespace RlClient.Refresh

/-- The addresses of refreshes and lookups; the allocator of the model never
    hands one out twice. -/
abbrev RefreshId := Nat
abbrev LookupId := Nat

/-! ### The objects -/

/-- `r_dns_lookup_ctx_t`. The pointer to the refresh is the position in its list. -/
structure RDnsLookupCtx where
  id : LookupId
  reqId : UInt64
  hasReqId : Bool
  completed : Bool
  inResolverCall : Bool
  port : UInt16
  serverId : UInt64
  hasServerId : Bool
deriving DecidableEq

/-- `r_dns_refresh_t`. `client` says whether the pointer is set; the lookups are
    listed in the order of their links. -/
structure RDnsRefresh where
  id : RefreshId
  client : Bool
  detached : Bool
  pending : Nat
  scheduling : Nat
  lookups : List RDnsLookupCtx
  endpoints : List RServerEndpoint
  endpointCap : Nat
  minTtlMs : UInt64
deriving DecidableEq

/-- The discovery fields of `struct r_client`; `hasCancel` is whether the resolver
    has a `cancel`. -/
structure DnsClient where
  dnsName : Bytes
  hasCancel : Bool
  membership : RMembership
  dnsRefresh : Option RefreshId
deriving DecidableEq

/-- `dns_refresh_inflight = false` and `dns_refresh = NULL`. -/
def DnsClient.forgetRefresh (c : DnsClient) : DnsClient :=
  { c with membership := { c.membership with dnsRefreshInflight := false }, dnsRefresh := none }

/-- What the resolver was asked: the kind decides which callback it was given. -/
inductive Query where
  | srv (lookup : LookupId)
  | addrs (lookup : LookupId)
deriving DecidableEq

def Query.lookup : Query → LookupId
  | .srv lookup => lookup
  | .addrs lookup => lookup

/-- A call into the resolver that has not returned, with the locals of the code
    around it: `r_dns_schedule_srv_lookup` inside `r_dns_start_refresh`,
    `r_dns_schedule_addr_lookup` inside the loop of `r_dns_srv_cb_fn`, and `cancel`
    inside the loop of `r_dns_refresh_cancel_lookups`. -/
inductive Frame where
  | resolveSrv (refresh : RefreshId) (lookup : LookupId)
  | resolveAddrs (refresh : RefreshId) (lookup : LookupId) (srv : LookupId)
      (rest : List RSrvRecord) (minTtlMs : UInt64)
  | cancel (refresh : RefreshId) (lookup : LookupId) (next : Option LookupId)
deriving DecidableEq

def Frame.refresh : Frame → RefreshId
  | .resolveSrv refresh _ => refresh
  | .resolveAddrs refresh _ _ _ _ => refresh
  | .cancel refresh _ _ => refresh

/-- The calls in both directions and the two points of the code at which a lookup
    is completed and a refresh is freed. -/
inductive Effect where
  | resolveSrv (refresh : RefreshId) (lookup : LookupId)
  | resolveAddrs (refresh : RefreshId) (lookup : LookupId) (record : RSrvRecord)
  | cancel (refresh : RefreshId) (lookup : LookupId)
  | srvAnswer (refresh : RefreshId) (lookup : LookupId) (status : Int) (records : List RSrvRecord)
  | addrAnswer (refresh : RefreshId) (lookup : LookupId) (status : Int) (addrs : List RAddr)
  | completed (refresh : RefreshId) (lookup : LookupId)
  | freed (refresh : RDnsRefresh)
deriving DecidableEq

def Effect.refresh : Effect → RefreshId
  | .resolveSrv refresh _ => refresh
  | .resolveAddrs refresh _ _ => refresh
  | .cancel refresh _ => refresh
  | .srvAnswer refresh _ _ _ => refresh
  | .addrAnswer refresh _ _ _ => refresh
  | .completed refresh _ => refresh
  | .freed refresh => refresh.id

/-- The client, if it has not been freed, the refreshes that have not been freed,
    the running resolver calls, and the queries that the resolver may still call
    back. -/
structure State where
  client : Option DnsClient
  refreshes : List RDnsRefresh
  stack : List Frame
  outstanding : List Query
  nextId : Nat
deriving DecidableEq

/-- The state with what happened on the way, or nothing after an access to freed
    memory. -/
abbrev Outcome := Option (State × List Effect)

/-- Sequencing: the effects of the first part come first. -/
def Outcome.andThen (first : Outcome) (rest : State → Outcome) : Outcome :=
  match first with
  | none => none
  | some (s, effects) => (rest s).map fun outcome => (outcome.1, effects ++ outcome.2)

/-! ### Access -/

def State.refresh? (s : State) (id : RefreshId) : Option RDnsRefresh :=
  s.refreshes.find? (·.id == id)

/-- `lookup->refresh`, for a lookup that has not been freed. -/
def State.owner? (s : State) (lookup : LookupId) : Option RDnsRefresh :=
  s.refreshes.find? (·.lookups.any (·.id == lookup))

def RDnsRefresh.lookup? (r : RDnsRefresh) (lookup : LookupId) : Option RDnsLookupCtx :=
  r.lookups.find? (·.id == lookup)

def State.put (s : State) (r : RDnsRefresh) : State :=
  { s with refreshes := s.refreshes.map fun r' => if r'.id = r.id then r else r' }

def RDnsRefresh.putLookup (r : RDnsRefresh) (l : RDnsLookupCtx) : RDnsRefresh :=
  { r with lookups := r.lookups.map fun l' => if l'.id = l.id then l else l' }

/-- `r_dns_lookup_unlink`, and the `free` behind it. -/
def rDnsLookupUnlink (r : RDnsRefresh) (lookup : LookupId) : RDnsRefresh :=
  { r with lookups := r.lookups.eraseP (·.id == lookup) }

/-- `r_dns_refresh_add_endpoint`; `allocOk` is the outcome of `realloc`, which
    runs only when the array is full. -/
def rDnsRefreshAddEndpoint (r : RDnsRefresh) (addr : RAddr) (serverId : UInt64)
    (hasServerId : Bool) (allocOk : Bool) : RDnsRefresh :=
  let endpoint : RServerEndpoint :=
    { addr := addr, serverId := serverId, hasServerId := hasServerId }
  if r.endpoints.length = r.endpointCap then
    if allocOk then
      { r with endpoints := r.endpoints ++ [endpoint], endpointCap := nextCap r.endpointCap }
    else r
  else { r with endpoints := r.endpoints ++ [endpoint] }

/-! ### The end of a refresh -/

/-- `r_dns_refresh_free`: the lookups go with the refresh. -/
def rDnsRefreshFree (s : State) (r : RDnsRefresh) : State × List Effect :=
  ({ s with refreshes := s.refreshes.eraseP (·.id == r.id) }, [.freed r])

/-- The client fields that `r_dns_refresh_finish` writes. -/
def installEndpoints (c : DnsClient) (r : RDnsRefresh) (nowMs : UInt64) : DnsClient :=
  let installed :=
    if r.endpoints.length > 0 then
      { c.membership with
        servers := r.endpoints
        lastDnsRefreshMs := nowMs
        dnsRefreshTtlMs := r.minTtlMs }
    else c.membership
  { c with
    membership := { installed with dnsRefreshInflight := false }
    dnsRefresh := if c.dnsRefresh = some r.id then none else c.dnsRefresh }

/-- `r_dns_refresh_finish`. -/
def rDnsRefreshFinish (s : State) (r : RDnsRefresh) (nowMs : UInt64) : Outcome :=
  if !r.client || r.detached then some (rDnsRefreshFree s r)
  else
    match s.client with
    | none => none
    | some c => some (rDnsRefreshFree { s with client := some (installEndpoints c r nowMs) } r)

/-- `r_dns_refresh_maybe_complete`. -/
def rDnsRefreshMaybeComplete (s : State) (id : RefreshId) (nowMs : UInt64) : Outcome :=
  match s.refresh? id with
  | none => none
  | some r =>
      if r.pending ≠ 0 || r.scheduling ≠ 0 then some (s, [])
      else if r.detached || !r.client then some (rDnsRefreshFree s r)
      else rDnsRefreshFinish s r nowMs

/-- `r_dns_lookup_finish`: a lookup whose resolver call is still on the stack is
    freed there. -/
def rDnsLookupFinish (s : State) (lookup : LookupId) (nowMs : UInt64) : Outcome :=
  match s.owner? lookup with
  | none => none
  | some r =>
      match r.lookup? lookup with
      | none => none
      | some l =>
          let counted := { r with pending := r.pending - 1 }
          let written :=
            if l.inResolverCall then counted.putLookup { l with completed := true }
            else rDnsLookupUnlink counted lookup
          Outcome.andThen (some (s.put written, [.completed r.id lookup])) fun s' =>
            rDnsRefreshMaybeComplete s' r.id nowMs

/-! ### Scheduling -/

/-- The object that `r_dns_schedule_srv_lookup` allocates, and
    `r_dns_schedule_addr_lookup` with the values of its record. -/
def newLookup (id : LookupId) (port : UInt16) (serverId : UInt64) (hasServerId : Bool) :
    RDnsLookupCtx where
  id := id
  reqId := 0
  hasReqId := false
  completed := false
  inResolverCall := true
  port := port
  serverId := serverId
  hasServerId := hasServerId

/-- Both scheduling functions up to the call of the resolver. -/
def enterResolver (s : State) (r : RDnsRefresh) (l : RDnsLookupCtx) (query : Query)
    (frame : Frame) : State :=
  { s.put { r with lookups := l :: r.lookups, pending := r.pending + 1,
                   scheduling := r.scheduling + 1 } with
    stack := frame :: s.stack
    outstanding := query :: s.outstanding
    nextId := l.id + 1 }

/-- Both scheduling functions behind the call of the resolver, which returned `rc`
    and left `reqId` in `out_req_id`. -/
def leaveResolver (r : RDnsRefresh) (l : RDnsLookupCtx) (rc : Int) (reqId : UInt64) :
    RDnsRefresh :=
  let named :=
    if rc = 0 && !l.completed && reqId ≠ 0 then { l with reqId := reqId, hasReqId := true } else l
  let refused := rc ≠ 0 && !named.completed
  let ended := { named with completed := named.completed || refused, inResolverCall := false }
  let counted :=
    { r with pending := if refused then r.pending - 1 else r.pending
             scheduling := r.scheduling - 1 }
  if rc ≠ 0 || ended.completed then rDnsLookupUnlink counted l.id else counted.putLookup ended

/-- What is seen of a resolver call that returned: a refused lookup is completed,
    and the resolver no longer owes it a callback. -/
def returnEffects (id : RefreshId) (l : RDnsLookupCtx) (rc : Int) : List Effect :=
  if rc ≠ 0 && !l.completed then [.completed id l.id] else []

def refuse (outstanding : List Query) (lookup : LookupId) (rc : Int) : List Query :=
  if rc = 0 then outstanding else outstanding.filter (·.lookup != lookup)

/-- The common end of `r_dns_schedule_srv_lookup` and `r_dns_schedule_addr_lookup`. -/
def resolverReturned (s : State) (id : RefreshId) (lookup : LookupId) (rc : Int) (reqId : UInt64)
    (nowMs : UInt64) : Outcome :=
  match s.refresh? id with
  | none => none
  | some r =>
      match r.lookup? lookup with
      | none => none
      | some l =>
          Outcome.andThen
            (some ({ s.put (leaveResolver r l rc reqId) with
                     outstanding := refuse s.outstanding lookup rc }, returnEffects id l rc))
            fun s' => rDnsRefreshMaybeComplete s' id nowMs

/-- The end of `r_dns_start_refresh`, behind `r_dns_schedule_srv_lookup`. -/
def startRefreshReturned (s : State) (id : RefreshId) (rc : Int) : Outcome :=
  if rc = 0 then some (s, [])
  else
    match s.client with
    | none => none
    | some c =>
        if c.dnsRefresh ≠ some id then some (s, [])
        else
          match s.refresh? id with
          | none => none
          | some r =>
              if r.pending = 0 && r.scheduling = 0 then
                some (rDnsRefreshFree { s with client := some c.forgetRefresh } r)
              else some (s, [])

/-- The loop of `r_dns_srv_cb_fn` from some record on, and the code behind it. The
    loop stops in the first call of `resolve_addrs`; `allocs` gives the outcome of
    each `calloc` in turn. -/
def srvLoop (s : State) (id : RefreshId) (srv : LookupId) (allocs : Nat → Bool)
    (nowMs : UInt64) : (records : List RSrvRecord) → (minTtlMs : UInt64) → Nat → Outcome
  | [], minTtlMs, _ =>
      match s.refresh? id with
      | none => none
      | some r => rDnsLookupFinish (s.put { r with minTtlMs := minTtlMs }) srv nowMs
  | record :: rest, minTtlMs, i =>
      match rParseServerIdFromTarget record.target with
      | none => srvLoop s id srv allocs nowMs rest minTtlMs i
      | some serverId =>
          match s.refresh? id with
          | none => none
          | some r =>
              if r.detached then
                srvLoop s id srv allocs nowMs rest (foldMinTtlMs minTtlMs record) i
              else if !allocs i then
                srvLoop s id srv allocs nowMs rest (foldMinTtlMs minTtlMs record) (i + 1)
              else
                some
                  (enterResolver s r (newLookup s.nextId record.port serverId true)
                    (.addrs s.nextId)
                    (.resolveAddrs id s.nextId srv rest (foldMinTtlMs minTtlMs record)),
                  [.resolveAddrs id s.nextId record])

/-! ### Entry points -/

/-- The object that `r_dns_start_refresh` allocates. -/
def newRefresh (id : RefreshId) : RDnsRefresh where
  id := id
  client := true
  detached := false
  pending := 0
  scheduling := 0
  lookups := []
  endpoints := []
  endpointCap := 0
  minTtlMs := 0

/-- `r_dns_start_refresh` up to the call of `resolve_srv`. The name of the query has
    18 characters in front of the tenant's and must fit a buffer of 512; without the
    name or the lookup the refresh is given up before it is scheduled. -/
def rDnsStartRefresh (s : State) (allocRefresh allocLookup : Bool) : Outcome :=
  match s.client with
  | none => none
  | some c =>
      if c.membership.dnsRefreshInflight then some (s, [])
      else if !allocRefresh then some (s, [])
      else
        let r := newRefresh s.nextId
        if 18 + c.dnsName.length ≥ 512 || !allocLookup then
          some ({ s with client := some c.forgetRefresh, nextId := r.id + 1 }, [.freed r])
        else
          let started :=
            { s with
              client := some
                { c with
                  membership := { c.membership with dnsRefreshInflight := true }
                  dnsRefresh := some r.id }
              refreshes := r :: s.refreshes }
          some (enterResolver started r (newLookup (r.id + 1) 0 0 false) (.srv (r.id + 1))
            (.resolveSrv r.id (r.id + 1)), [.resolveSrv r.id (r.id + 1)])

/-- `r_dns_srv_cb_fn`; a null array of records is an empty one. -/
def rDnsSrvCbFn (s : State) (lookup : LookupId) (status : Int) (records : List RSrvRecord)
    (allocs : Nat → Bool) (nowMs : UInt64) : Outcome :=
  match s.owner? lookup with
  | none => none
  | some r =>
      Outcome.andThen (some (s, [.srvAnswer r.id lookup status records])) fun s' =>
        if r.detached || !r.client then rDnsLookupFinish s' lookup nowMs
        else if status = 0 && records.length > 0 then
          srvLoop s' r.id lookup allocs nowMs records 0 0
        else rDnsLookupFinish s' lookup nowMs

/-- The loop of `r_dns_addr_cb_fn`. -/
def addEndpoints (r : RDnsRefresh) (l : RDnsLookupCtx) (allocs : Nat → Bool) :
    List RAddr → Nat → RDnsRefresh
  | [], _ => r
  | addr :: rest, i =>
      addEndpoints
        (rDnsRefreshAddEndpoint r (rAddrSetPort addr l.port) l.serverId l.hasServerId (allocs i))
        l allocs rest (i + 1)

/-- `r_dns_addr_cb_fn`; a null array of addresses is an empty one. -/
def rDnsAddrCbFn (s : State) (lookup : LookupId) (status : Int) (addrs : List RAddr)
    (allocs : Nat → Bool) (nowMs : UInt64) : Outcome :=
  match s.owner? lookup with
  | none => none
  | some r =>
      match r.lookup? lookup with
      | none => none
      | some l =>
          let added :=
            if !r.detached && r.client && status = 0 && addrs.length > 0 then
              addEndpoints r l allocs addrs 0
            else r
          Outcome.andThen (some (s.put added, [.addrAnswer r.id lookup status addrs])) fun s' =>
            rDnsLookupFinish s' lookup nowMs

/-! ### Destruction -/

/-- The end of `r_dns_refresh_detach`, and of `r_client_destroy` behind it. -/
def detachReturned (s : State) (id : RefreshId) (nowMs : UInt64) : Outcome :=
  match s.refresh? id with
  | none => none
  | some r =>
      Outcome.andThen
        (rDnsRefreshMaybeComplete
          (s.put { r with scheduling := r.scheduling - 1, client := false }) id nowMs)
        fun s' => some ({ s' with client := none }, [])

/-- Whether the loop of `r_dns_refresh_cancel_lookups` cancels a lookup. -/
def cancellable (l : RDnsLookupCtx) : Bool := !l.completed && l.hasReqId

/-- The loop of `r_dns_refresh_cancel_lookups` over the rest of the list. The link
    to the next lookup is read before the call. -/
def rDnsRefreshCancelLookups (s : State) (id : RefreshId) (lookups : List RDnsLookupCtx)
    (nowMs : UInt64) : Outcome :=
  match lookups.dropWhile (!cancellable ·) with
  | [] => detachReturned s id nowMs
  | l :: rest =>
      some ({ s with stack := .cancel id l.id (rest.head?.map (·.id)) :: s.stack },
        [.cancel id l.id])

/-- The loop goes on at the link it has kept. -/
def cancelReturned (s : State) (id : RefreshId) (next : Option LookupId) (nowMs : UInt64) :
    Outcome :=
  match next with
  | none => detachReturned s id nowMs
  | some lookup =>
      match s.refresh? id with
      | none => none
      | some r =>
          if r.lookups.any (·.id == lookup) then
            rDnsRefreshCancelLookups s id (r.lookups.dropWhile (·.id != lookup)) nowMs
          else none

/-- `r_client_destroy`, with `r_dns_refresh_detach` up to the first `cancel`. -/
def rClientDestroy (s : State) (nowMs : UInt64) : Outcome :=
  match s.client with
  | none => none
  | some c =>
      match c.dnsRefresh with
      | none => some ({ s with client := none }, [])
      | some id =>
          match s.refresh? id with
          | none => none
          | some r =>
              let detached := { r with detached := true, scheduling := r.scheduling + 1 }
              if r.client then
                let forgot := { s.put detached with client := some c.forgetRefresh }
                if c.hasCancel then rDnsRefreshCancelLookups forgot id r.lookups nowMs
                else detachReturned forgot id nowMs
              else detachReturned (s.put detached) id nowMs

/-! ### Steps -/

/-- What the host and the resolver do while they are in control. -/
inductive Event where
  | attempt (allocRefresh allocLookup : Bool)
  | resolverReturn (rc : Int) (reqId : UInt64)
  | srvCallback (lookup : LookupId) (status : Int) (records : List RSrvRecord)
  | addrCallback (lookup : LookupId) (status : Int) (addrs : List RAddr)
  | cancelReturn
  | destroy

/-- An event with what the client reads from its environment while it is handled. -/
structure Input where
  event : Event
  nowMs : UInt64
  allocs : Nat → Bool

/-- The resolver has invoked the callback of a query. -/
def State.called (s : State) (query : Query) : State :=
  { s with outstanding := s.outstanding.erase query }

def step (s : State) (input : Input) : Outcome :=
  match input.event with
  | .attempt allocRefresh allocLookup => rDnsStartRefresh s allocRefresh allocLookup
  | .resolverReturn rc reqId =>
      match s.stack with
      | .resolveSrv id lookup :: stack =>
          Outcome.andThen
            (resolverReturned { s with stack := stack } id lookup rc reqId input.nowMs)
            fun s' => startRefreshReturned s' id rc
      | .resolveAddrs id lookup srv rest minTtlMs :: stack =>
          Outcome.andThen
            (resolverReturned { s with stack := stack } id lookup rc reqId input.nowMs)
            fun s' => srvLoop s' id srv input.allocs input.nowMs rest minTtlMs 0
      | _ => none
  | .srvCallback lookup status records =>
      rDnsSrvCbFn (s.called (.srv lookup)) lookup status records input.allocs input.nowMs
  | .addrCallback lookup status addrs =>
      rDnsAddrCbFn (s.called (.addrs lookup)) lookup status addrs input.allocs input.nowMs
  | .cancelReturn =>
      match s.stack with
      | .cancel id _ next :: stack => cancelReturned { s with stack := stack } id next input.nowMs
      | _ => none
  | .destroy => rClientDestroy s input.nowMs

/-- A callback may be invoked at any time, but inside `cancel` only for the lookup
    that is cancelled. -/
def State.mayCall (s : State) (lookup : LookupId) : Prop :=
  match s.stack with
  | .cancel _ cancelled _ :: _ => cancelled = lookup
  | _ => True

/-- No function of the client that goes on to use it is waiting for the resolver. -/
def State.idle (s : State) : Prop :=
  ∀ frame ∈ s.stack, ∃ id lookup srv rest minTtlMs,
    frame = .resolveAddrs id lookup srv rest minTtlMs

/-- What the resolver and the host may do: the callback of a query is invoked at
    most once and not after the resolver refused it, calls return in order, and the
    host uses the client only until it destroys it, which it does from outside the
    client's functions. -/
def Permitted (s : State) (input : Input) : Prop :=
  match input.event with
  | .attempt _ _ => s.client.isSome ∧ ∀ frame ∈ s.stack, ∀ id lookup next,
      frame ≠ .cancel id lookup next
  | .resolverReturn _ _ => ∃ frame stack, s.stack = frame :: stack ∧
      ∀ id lookup next, frame ≠ .cancel id lookup next
  | .srvCallback lookup _ _ => .srv lookup ∈ s.outstanding ∧ s.mayCall lookup
  | .addrCallback lookup _ _ => .addrs lookup ∈ s.outstanding ∧ s.mayCall lookup
  | .cancelReturn => ∃ id lookup next stack, s.stack = .cancel id lookup next :: stack
  | .destroy => s.client.isSome ∧ s.idle

instance (s : State) (lookup : LookupId) : Decidable (s.mayCall lookup) := by
  unfold State.mayCall
  split <;> infer_instance

instance (s : State) : Decidable s.idle :=
  decidable_of_iff
    (s.stack.all fun | .resolveAddrs _ _ _ _ _ => true | _ => false) <| by
    rw [List.all_eq_true]
    refine forall₂_congr fun frame _ => ?_
    cases frame <;> simp

instance (frame : Frame) : Decidable (∀ id lookup next, frame ≠ .cancel id lookup next) :=
  match frame with
  | .resolveSrv _ _ => isTrue (by simp)
  | .resolveAddrs _ _ _ _ _ => isTrue (by simp)
  | .cancel id lookup next => isFalse fun h => h id lookup next rfl

instance (s : State) (input : Input) : Decidable (Permitted s input) :=
  match hevent : input.event, hstack : s.stack with
  | .attempt _ _, _ => by unfold Permitted; rw [hevent]; infer_instance
  | .resolverReturn _ _, [] => isFalse (by simp [Permitted, hevent, hstack])
  | .resolverReturn _ _, frame :: _ =>
      decidable_of_iff (∀ id lookup next, frame ≠ .cancel id lookup next)
        (by simp [Permitted, hevent, hstack])
  | .srvCallback _ _ _, _ => by unfold Permitted; rw [hevent]; infer_instance
  | .addrCallback _ _ _, _ => by unfold Permitted; rw [hevent]; infer_instance
  | .cancelReturn, .cancel _ _ _ :: _ => isTrue (by simp [Permitted, hevent, hstack])
  | .cancelReturn, [] => isFalse (by simp [Permitted, hevent, hstack])
  | .cancelReturn, .resolveSrv _ _ :: _ => isFalse (by simp [Permitted, hevent, hstack])
  | .cancelReturn, .resolveAddrs _ _ _ _ _ :: _ => isFalse (by simp [Permitted, hevent, hstack])
  | .destroy, _ => by unfold Permitted; rw [hevent]; infer_instance

def State.init (dnsName : Bytes) (hasCancel : Bool) : State where
  client := some { dnsName := dnsName, hasCancel := hasCancel, membership := .empty,
                   dnsRefresh := none }
  refreshes := []
  stack := []
  outstanding := []
  nextId := 0

abbrev run (dnsName : Bytes) (hasCancel : Bool) (inputs : List Input) : Outcome :=
  Run.exec step (.init dnsName hasCancel) inputs

/-- The run keeps to what the resolver and the host may do. -/
abbrev Contract (dnsName : Bytes) (hasCancel : Bool) (inputs : List Input) : Prop :=
  Run.Along step (.init dnsName hasCancel) inputs Permitted

end RlClient.Refresh
