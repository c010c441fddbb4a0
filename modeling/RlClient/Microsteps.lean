import RlClient.Refresh
import RlClient.Keyed

/-!
# What a step of a refresh consists of

One step of the refresh machine runs through several functions of the source. It
is cut here at the points where the counters or the lookups change: `Micro` says
what can happen between two such points, `Control` says what the client is in the
middle of. The invariants of a refresh are proved of the pieces.
-/

namespace RlClient.Refresh

/-- What the client is in the middle of: nothing, the resolver or the host is in
    control; the loop of `r_dns_srv_cb_fn`; about to call `r_dns_lookup_finish`;
    about to call `r_dns_refresh_maybe_complete`; the loop of
    `r_dns_refresh_cancel_lookups`. -/
inductive Control where
  | foreign
  | srvLoop (lookup : LookupId) (rest : List RSrvRecord) (minTtlMs : UInt64)
  | finishing (lookup : LookupId)
  | settling
  | detaching
deriving DecidableEq

/-- The lookup whose callback the client is executing. -/
def Control.body : Control → List LookupId
  | .srvLoop lookup _ _ => [lookup]
  | .finishing lookup => [lookup]
  | _ => []

/-- Whether `r_dns_refresh_detach` has counted itself without being in `cancel`. -/
def Control.detaches : Control → Nat
  | .detaching => 1
  | _ => 0

def Control.loops : Control → Nat
  | .srvLoop _ _ _ => 1
  | _ => 0

/-- The SRV lookups whose callback waits for `resolve_addrs`. -/
def running (stack : List Frame) : List LookupId :=
  stack.filterMap fun
    | .resolveAddrs _ _ srv _ _ => some srv
    | _ => none

def calls (stack : List Frame) : List LookupId :=
  stack.filterMap fun
    | .resolveSrv _ lookup => some lookup
    | .resolveAddrs _ lookup _ _ _ => some lookup
    | .cancel _ _ _ => none

def Query.isSrv : Query → Bool
  | .srv _ => true
  | .addrs _ => false

/-- The lookups that have been scheduled and have not completed: their callback is
    executing, is waiting, or is still to come. -/
def State.unfinished (s : State) (control : Control) : List LookupId :=
  control.body ++ (running s.stack ++ s.outstanding.map (·.lookup))

def State.srvCount (s : State) (control : Control) : Nat :=
  control.loops + (running s.stack).length + s.outstanding.countP Query.isSrv

/-- `r_dns_lookup_finish` as far as the refresh is concerned. -/
def completeLookup (r : RDnsRefresh) (l : RDnsLookupCtx) : RDnsRefresh :=
  let counted := { r with pending := r.pending - 1 }
  if l.inResolverCall then counted.putLookup { l with completed := true }
  else rDnsLookupUnlink counted l.id

/-- The refresh after the loop of `r_dns_addr_cb_fn`. -/
def answered (r : RDnsRefresh) (l : RDnsLookupCtx) (status : Int) (addrs : List RAddr)
    (allocs : Nat → Bool) : RDnsRefresh :=
  if !r.detached && r.client && status = 0 && addrs.length > 0 then addEndpoints r l allocs addrs 0
  else r

/-- The control behind the first tests of `r_dns_srv_cb_fn`. -/
def srvControl (r : RDnsRefresh) (lookup : LookupId) (status : Int) (records : List RSrvRecord) :
    Control :=
  if r.detached || !r.client then .finishing lookup
  else if status = 0 && records.length > 0 then .srvLoop lookup records 0
  else .finishing lookup

/-- One piece of a step. `failed` says whether an allocation of the step may fail,
    `nowMs` is the time of the step. -/
inductive Micro (failed : Bool) (nowMs : UInt64) :
    State → Control → List Effect → State → Control → Prop
  | start {s : State} {c : DnsClient} (hclient : s.client = some c)
      (hidle : c.membership.dnsRefreshInflight = false) (hnone : s.refreshes = []) :
      Micro failed nowMs s .foreign [.resolveSrv s.nextId (s.nextId + 1)]
        (enterResolver
          { s with
            client := some
              { c with
                membership := { c.membership with dnsRefreshInflight := true }
                dnsRefresh := some s.nextId }
            refreshes := [newRefresh s.nextId] }
          (newRefresh s.nextId) (newLookup (s.nextId + 1) 0 0 false) (.srv (s.nextId + 1))
          (.resolveSrv s.nextId (s.nextId + 1))) .foreign
  | spare {s : State} {c : DnsClient} (hclient : s.client = some c)
      (hidle : c.membership.dnsRefreshInflight = false) (hnone : s.refreshes = []) :
      Micro failed nowMs s .foreign [.freed (newRefresh s.nextId)]
        { s with client := some c.forgetRefresh, nextId := s.nextId + 1 } .foreign
  | srvCall {s : State} {r : RDnsRefresh} {lookup : LookupId} (status : Int)
      (records : List RSrvRecord) (hlive : s.refreshes = [r]) (hquery : .srv lookup ∈ s.outstanding)
      (hmay : s.mayCall lookup) :
      Micro failed nowMs s .foreign [.srvAnswer r.id lookup status records] (s.called (.srv lookup))
        (srvControl r lookup status records)
  | addrCall {s : State} {r : RDnsRefresh} {l : RDnsLookupCtx} (status : Int) (addrs : List RAddr)
      (allocs : Nat → Bool) (hallocs : failed = false → ∀ i, allocs i = true)
      (hlive : s.refreshes = [r]) (hquery : .addrs l.id ∈ s.outstanding) (hmay : s.mayCall l.id)
      (hlookup : l ∈ r.lookups) :
      Micro failed nowMs s .foreign [.addrAnswer r.id l.id status addrs]
        { s.called (.addrs l.id) with refreshes := [answered r l status addrs allocs] }
        (.finishing l.id)
  | skip {s : State} {lookup : LookupId} {record : RSrvRecord} {rest : List RSrvRecord}
      {minTtlMs : UInt64} (hname : rParseServerIdFromTarget record.target = none) :
      Micro failed nowMs s (.srvLoop lookup (record :: rest) minTtlMs) []
        s (.srvLoop lookup rest minTtlMs)
  | pass {s : State} {r : RDnsRefresh} {lookup : LookupId} {record : RSrvRecord}
      {rest : List RSrvRecord} {minTtlMs : UInt64} (hlive : s.refreshes = [r])
      (hreason : r.detached = true ∨ failed = true) :
      Micro failed nowMs s (.srvLoop lookup (record :: rest) minTtlMs) []
        s (.srvLoop lookup rest (foldMinTtlMs minTtlMs record))
  | enter {s : State} {r : RDnsRefresh} {lookup : LookupId} {record : RSrvRecord}
      {rest : List RSrvRecord} {minTtlMs : UInt64} {serverId : UInt64}
      (hname : rParseServerIdFromTarget record.target = some serverId) (hlive : s.refreshes = [r])
      (hattached : r.detached = false) :
      Micro failed nowMs s (.srvLoop lookup (record :: rest) minTtlMs)
        [.resolveAddrs r.id s.nextId record]
        (enterResolver s r (newLookup s.nextId record.port serverId true) (.addrs s.nextId)
          (.resolveAddrs r.id s.nextId lookup rest (foldMinTtlMs minTtlMs record))) .foreign
  | endLoop {s : State} {r : RDnsRefresh} {lookup : LookupId} {minTtlMs : UInt64}
      (hlive : s.refreshes = [r]) :
      Micro failed nowMs s (.srvLoop lookup [] minTtlMs) []
        { s with refreshes := [{ r with minTtlMs := minTtlMs }] } (.finishing lookup)
  | complete {s : State} {r : RDnsRefresh} {l : RDnsLookupCtx} (hlive : s.refreshes = [r])
      (hlookup : l ∈ r.lookups) :
      Micro failed nowMs s (.finishing l.id) [.completed r.id l.id]
        { s with refreshes := [completeLookup r l] } .settling
  | leaveSrv {s : State} {r : RDnsRefresh} {l : RDnsLookupCtx} {stack : List Frame} (rc : Int)
      (reqId : UInt64) (hlive : s.refreshes = [r]) (hlookup : l ∈ r.lookups)
      (hstack : s.stack = .resolveSrv r.id l.id :: stack) :
      Micro failed nowMs s .foreign (returnEffects r.id l rc)
        { s with stack := stack, refreshes := [leaveResolver r l rc reqId]
                 outstanding := refuse s.outstanding l.id rc } .settling
  | leaveAddrs {s : State} {r : RDnsRefresh} {l : RDnsLookupCtx} {stack : List Frame}
      {srv : LookupId} {rest : List RSrvRecord} {minTtlMs : UInt64} (rc : Int) (reqId : UInt64)
      (hlive : s.refreshes = [r]) (hlookup : l ∈ r.lookups)
      (hstack : s.stack = .resolveAddrs r.id l.id srv rest minTtlMs :: stack) :
      Micro failed nowMs s .foreign (returnEffects r.id l rc)
        { s with stack := stack, refreshes := [leaveResolver r l rc reqId]
                 outstanding := refuse s.outstanding l.id rc } (.srvLoop srv rest minTtlMs)
  | stay {s : State} {r : RDnsRefresh} (hlive : s.refreshes = [r])
      (hcounts : r.pending ≠ 0 ∨ r.scheduling ≠ 0) : Micro failed nowMs s .settling [] s .foreign
  | install {s : State} {r : RDnsRefresh} {c : DnsClient}
      (hlive : s.refreshes = [r]) (hpending : r.pending = 0) (hscheduling : r.scheduling = 0)
      (hattached : r.detached = false) (hset : r.client = true) (hclient : s.client = some c) :
      Micro failed nowMs s .settling [.freed r]
        { s with refreshes := [], client := some (installEndpoints c r nowMs) } .foreign
  | drop {s : State} {r : RDnsRefresh} (hlive : s.refreshes = [r]) (hpending : r.pending = 0)
      (hscheduling : r.scheduling = 0) (hdetached : r.detached = true) :
      Micro failed nowMs s .settling [.freed r] { s with refreshes := [] } .foreign
  | detach {s : State} {r : RDnsRefresh} {c : DnsClient} (hlive : s.refreshes = [r])
      (hclient : s.client = some c) (hrefresh : c.dnsRefresh = some r.id) (hidle : s.idle) :
      Micro failed nowMs s .foreign []
        { s with
          refreshes := [{ r with detached := true, scheduling := r.scheduling + 1 }]
          client := some c.forgetRefresh } .detaching
  | cancel {s : State} {r : RDnsRefresh} {pre rest : List RDnsLookupCtx} {l : RDnsLookupCtx}
      (hlive : s.refreshes = [r]) (hlookups : r.lookups = pre ++ l :: rest)
      (hcancel : cancellable l = true) :
      Micro failed nowMs s .detaching [.cancel r.id l.id]
        { s with stack := .cancel r.id l.id (rest.head?.map (·.id)) :: s.stack } .foreign
  | cancelled {s : State} {id : RefreshId} {lookup : LookupId} {next : Option LookupId}
      {stack : List Frame} (hstack : s.stack = .cancel id lookup next :: stack) :
      Micro failed nowMs s .foreign [] { s with stack := stack } .detaching
  | release {s : State} {r : RDnsRefresh} (hlive : s.refreshes = [r]) :
      Micro failed nowMs s .detaching []
        { s with
          refreshes := [{ r with scheduling := r.scheduling - 1, client := false }]
          client := none } .settling
  | destroy {s : State} {c : DnsClient} (hclient : s.client = some c)
      (hrefresh : c.dnsRefresh = none) (hidle : s.idle) :
      Micro failed nowMs s .foreign [] { s with client := none } .foreign

/-! ### The invariant of the pieces -/

/-- The stacks on which no function of the client goes on to use it. -/
inductive Idle (id : RefreshId) : List Frame → Prop
  | empty : Idle id []
  | addrs (lookup srv : LookupId) (rest : List RSrvRecord) (minTtlMs : UInt64)
      (hne : lookup ≠ srv) : Idle id [.resolveAddrs id lookup srv rest minTtlMs]

/-- The stacks of an attached refresh: the SRV callback runs on its own or inside
    `resolve_srv`. -/
inductive Attached (id : RefreshId) : List Frame → Prop
  | idle {stack : List Frame} (hidle : Idle id stack) : Attached id stack
  | srv {stack : List Frame} (lookup : LookupId) (hidle : Idle id stack) :
      Attached id (stack ++ [.resolveSrv id lookup])

/-- How the refresh, the client and the stack belong together. -/
inductive Phase (s : State) (control : Control) (r : RDnsRefresh) : Prop
  | attached (c : DnsClient) (hclient : s.client = some c) (hrefresh : c.dnsRefresh = some r.id)
      (hinflight : c.membership.dnsRefreshInflight = true) (hset : r.client = true)
      (hattached : r.detached = false) (hcontrol : control ≠ .detaching)
      (hstack : Attached r.id s.stack)
  | detaching (c : DnsClient) (hclient : s.client = some c) (hrefresh : c.dnsRefresh = none)
      (hinflight : c.membership.dnsRefreshInflight = false) (hset : r.client = true)
      (hdetached : r.detached = true) (hcontrol : control = .detaching) (hstack : Idle r.id s.stack)
  | cancelling (c : DnsClient) (hclient : s.client = some c) (hrefresh : c.dnsRefresh = none)
      (hinflight : c.membership.dnsRefreshInflight = false) (hset : r.client = true)
      (hdetached : r.detached = true) (hcontrol : control ≠ .detaching ∧ control.loops = 0)
      (lookup : LookupId) (next : Option LookupId) (stack : List Frame)
      (hstack : s.stack = .cancel r.id lookup next :: stack) (hidle : Idle r.id stack)
      (hnext : ∀ n, next = some n → n ≠ lookup ∧ n ∈ r.lookups.map (·.id))
      (hbody : ∀ i ∈ control.body, i = lookup)
  | gone (hclient : s.client = none) (hset : r.client = false) (hdetached : r.detached = true)
      (hcontrol : control ≠ .detaching) (hstack : Idle r.id s.stack)

/-- The refresh agrees with the stack and with what the resolver still owes. -/
structure Inv (s : State) (control : Control) (r : RDnsRefresh) : Prop where
  nodup : (r.lookups.map (·.id)).Nodup
  fresh : r.id < s.nextId
  bound : ∀ l ∈ r.lookups, l.id < s.nextId
  scheduling : r.scheduling = s.stack.length + control.detaches
  pending : r.pending = (s.unfinished control).length
  once : (s.unfinished control).Nodup
  opened : ∀ i, i ∈ s.unfinished control ↔ ∃ l ∈ r.lookups, l.id = i ∧ l.completed = false
  called : ∀ i, i ∈ calls s.stack ↔ ∃ l ∈ r.lookups, l.id = i ∧ l.inResolverCall = true
  separate : (calls s.stack).Nodup
  kept : ∀ l ∈ r.lookups, l.completed = true → l.inResolverCall = true
  unnamed : ∀ l ∈ r.lookups, l.inResolverCall = true → l.hasReqId = false
  single : s.srvCount control ≤ 1
  phase : Phase s control r
  alive : control = .foreign → r.pending ≠ 0 ∨ r.scheduling ≠ 0

/-- Either there is no refresh and nothing refers to one, or there is one and its
    invariant holds. -/
inductive Ok : State → Control → Prop
  | none {s : State} (hrefreshes : s.refreshes = []) (hstack : s.stack = [])
      (houtstanding : s.outstanding = [])
      (hclient : ∀ c, s.client = some c →
        c.dnsRefresh = none ∧ c.membership.dnsRefreshInflight = false) : Ok s .foreign
  | live {s : State} {control : Control} {r : RDnsRefresh} (hrefreshes : s.refreshes = [r])
      (hinv : Inv s control r) : Ok s control

/-! ### Lemmas about the parts -/

@[simp] theorem running_nil : running [] = [] := rfl

@[simp] theorem running_srv (id : RefreshId) (lookup : LookupId) (stack : List Frame) :
    running (.resolveSrv id lookup :: stack) = running stack := rfl

@[simp] theorem running_addrs (id : RefreshId) (lookup srv : LookupId) (rest : List RSrvRecord)
    (minTtlMs : UInt64) (stack : List Frame) :
    running (.resolveAddrs id lookup srv rest minTtlMs :: stack) = srv :: running stack := rfl

@[simp] theorem running_cancel (id : RefreshId) (lookup : LookupId) (next : Option LookupId)
    (stack : List Frame) : running (.cancel id lookup next :: stack) = running stack := rfl

@[simp] theorem calls_nil : calls [] = [] := rfl

@[simp] theorem calls_srv (id : RefreshId) (lookup : LookupId) (stack : List Frame) :
    calls (.resolveSrv id lookup :: stack) = lookup :: calls stack := rfl

@[simp] theorem calls_addrs (id : RefreshId) (lookup srv : LookupId) (rest : List RSrvRecord)
    (minTtlMs : UInt64) (stack : List Frame) :
    calls (.resolveAddrs id lookup srv rest minTtlMs :: stack) = lookup :: calls stack := rfl

@[simp] theorem calls_cancel (id : RefreshId) (lookup : LookupId) (next : Option LookupId)
    (stack : List Frame) : calls (.cancel id lookup next :: stack) = calls stack := rfl

theorem put_single {s : State} {r r' : RDnsRefresh} (hlive : s.refreshes = [r])
    (hid : r'.id = r.id) : s.put r' = { s with refreshes := [r'] } := by
  simp [State.put, hlive, hid]

theorem refresh?_single {s : State} {r : RDnsRefresh} (hlive : s.refreshes = [r]) :
    s.refresh? r.id = some r := by
  simp [State.refresh?, hlive]

theorem owner?_single {s : State} {r : RDnsRefresh} (hlive : s.refreshes = [r])
    {l : RDnsLookupCtx} (hlookup : l ∈ r.lookups) : s.owner? l.id = some r := by
  have hany : r.lookups.any (·.id == l.id) = true :=
    List.any_eq_true.mpr ⟨l, hlookup, by simp⟩
  simp [State.owner?, hlive, hany]

theorem lookup?_of_mem {r : RDnsRefresh} (hnodup : (r.lookups.map (·.id)).Nodup)
    {l : RDnsLookupCtx} (hlookup : l ∈ r.lookups) : r.lookup? l.id = some l :=
  Keyed.find_of_mem hnodup hlookup

theorem free_single {s : State} {r : RDnsRefresh} (hlive : s.refreshes = [r]) :
    rDnsRefreshFree s r = ({ s with refreshes := [] }, [.freed r]) := by
  simp [rDnsRefreshFree, hlive]

/-- What the callbacks write into a refresh besides its lookups. -/
theorem addEndpoints_frame (l : RDnsLookupCtx) (allocs : Nat → Bool) (addrs : List RAddr) (i : Nat)
    (r : RDnsRefresh) :
    ∃ endpoints cap, addEndpoints r l allocs addrs i =
      { r with endpoints := endpoints, endpointCap := cap } := by
  induction addrs generalizing r i with
  | nil => exact ⟨r.endpoints, r.endpointCap, rfl⟩
  | cons addr addrs ih =>
    have hone : ∃ endpoints cap,
        rDnsRefreshAddEndpoint r (rAddrSetPort addr l.port) l.serverId l.hasServerId (allocs i) =
          { r with endpoints := endpoints, endpointCap := cap } := by
      unfold rDnsRefreshAddEndpoint
      simp only
      split
      · split
        · exact ⟨_, _, rfl⟩
        · exact ⟨r.endpoints, r.endpointCap, rfl⟩
      · exact ⟨_, r.endpointCap, rfl⟩
    obtain ⟨endpoints, cap, hone⟩ := hone
    obtain ⟨endpoints', cap', hrest⟩ := ih (i + 1)
      { r with endpoints := endpoints, endpointCap := cap }
    refine ⟨endpoints', cap', ?_⟩
    rw [addEndpoints, hone, hrest]

theorem answered_frame (r : RDnsRefresh) (l : RDnsLookupCtx) (status : Int) (addrs : List RAddr)
    (allocs : Nat → Bool) :
    ∃ endpoints cap, answered r l status addrs allocs =
      { r with endpoints := endpoints, endpointCap := cap } := by
  unfold answered
  split
  · exact addEndpoints_frame l allocs addrs 0 r
  · exact ⟨r.endpoints, r.endpointCap, rfl⟩

end RlClient.Refresh
