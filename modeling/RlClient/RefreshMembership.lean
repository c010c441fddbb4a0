import RlClient.RefreshSafety
import RlClient.Ingress

/-!
# What a refresh installs

The SRV callback schedules an address lookup for every conforming record, while
the answers to the first ones may already come in; the TTL is stored only when the
loop is over. `Found` says at every point of a step how far the loop has come and
that the endpoints are those of the answers so far. At the end of a refresh this
determines the membership, whatever the order of the callbacks was.
-/

namespace RlClient.Refresh

/-! ### What the resolver said -/

def conforming (record : RSrvRecord) : Bool := (rParseServerIdFromTarget record.target).isSome

def srvRecords (id : RefreshId) (trace : List Effect) : List RSrvRecord :=
  trace.flatMap fun
    | .srvAnswer refresh _ status records => if refresh = id ∧ status = 0 then records else []
    | _ => []

def addrLookups (id : RefreshId) (trace : List Effect) : List (LookupId × RSrvRecord) :=
  trace.filterMap fun
    | .resolveAddrs refresh lookup record => if refresh = id then some (lookup, record) else none
    | _ => none

def addrsOf (id : RefreshId) (trace : List Effect) (lookup : LookupId) : List RAddr :=
  trace.flatMap fun
    | .addrAnswer refresh answered status addrs =>
        if refresh = id ∧ answered = lookup ∧ status = 0 then addrs else []
    | _ => []

def endpointOf (record : RSrvRecord) (addr : RAddr) : RServerEndpoint where
  addr := rAddrSetPort addr record.port
  serverId := (rParseServerIdFromTarget record.target).getD 0
  hasServerId := true

/-- One endpoint for each address that the lookups of a refresh returned. -/
def endpointsOf (id : RefreshId) (trace : List Effect) : List RServerEndpoint :=
  (addrLookups id trace).flatMap fun lookup =>
    (addrsOf id trace lookup.1).map (endpointOf lookup.2)

/-- The least non-zero TTL of the conforming records, or zero without one. -/
def LeastTtl (records : List RSrvRecord) (ttlMs : UInt64) : Prop :=
  ttlMs = 0 ∧ (∀ record ∈ records, conforming record → record.ttlMs = 0) ∨
  ttlMs ≠ 0 ∧ (∃ record ∈ records, conforming record ∧ record.ttlMs.toUInt64 = ttlMs) ∧
    ∀ record ∈ records, conforming record → record.ttlMs ≠ 0 → ttlMs ≤ record.ttlMs.toUInt64

theorem foldMinTtlMs_skip {record : RSrvRecord}
    (hname : rParseServerIdFromTarget record.target = none)
    (minTtlMs : UInt64) : foldMinTtlMs minTtlMs record = minTtlMs := by
  simp [foldMinTtlMs, hname]

theorem toUInt64_eq_zero {ttlMs : UInt32} : ttlMs.toUInt64 = 0 ↔ ttlMs = 0 := by
  rw [← UInt64.toNat_inj, ← UInt32.toNat_inj, UInt32.toNat_toUInt64]
  rfl

theorem LeastTtl.skip {records : List RSrvRecord} {least : UInt64} (h : LeastTtl records least)
    {record : RSrvRecord} (hnot : conforming record = false) :
    LeastTtl (records ++ [record]) least := by
  have hall : ∀ {P : RSrvRecord → Prop}, (∀ r ∈ records, conforming r → P r) →
      ∀ r ∈ records ++ [record], conforming r → P r := by
    intro P hold r hr hconforming
    rcases List.mem_append.mp hr with hr | hr
    · exact hold r hr hconforming
    · obtain rfl := List.mem_singleton.mp hr
      exact absurd hconforming (by simp [hnot])
  rcases h with ⟨hzero, hnone⟩ | ⟨hne, ⟨r, hr, hfound⟩, hleast⟩
  · exact .inl ⟨hzero, hall hnone⟩
  · exact .inr ⟨hne, ⟨r, List.mem_append_left _ hr, hfound⟩, hall hleast⟩

theorem LeastTtl.keep {records : List RSrvRecord} {least : UInt64} (h : LeastTtl records least)
    {record : RSrvRecord}
    (hkeep : record.ttlMs = 0 ∨ least ≠ 0 ∧ least ≤ record.ttlMs.toUInt64) :
    LeastTtl (records ++ [record]) least := by
  rcases h with ⟨hzero, hnone⟩ | ⟨hne, ⟨r, hr, hfound⟩, hleast⟩
  · refine .inl ⟨hzero, ?_⟩
    intro r hr hconforming
    rcases List.mem_append.mp hr with hr | hr
    · exact hnone r hr hconforming
    · obtain rfl := List.mem_singleton.mp hr
      rcases hkeep with hkeep | ⟨hne, -⟩
      · exact hkeep
      · exact absurd hzero hne
  · refine .inr ⟨hne, ⟨r, List.mem_append_left _ hr, hfound⟩, ?_⟩
    intro r' hr' hconforming hnonzero
    rcases List.mem_append.mp hr' with hr' | hr'
    · exact hleast r' hr' hconforming hnonzero
    · obtain rfl := List.mem_singleton.mp hr'
      rcases hkeep with hkeep | ⟨-, hle⟩
      · exact absurd hkeep hnonzero
      · exact hle

theorem LeastTtl.replace {records : List RSrvRecord} {least : UInt64} (h : LeastTtl records least)
    {record : RSrvRecord} (hconforming : conforming record) (hne : record.ttlMs ≠ 0)
    (hless : least = 0 ∨ record.ttlMs.toUInt64 < least) :
    LeastTtl (records ++ [record]) record.ttlMs.toUInt64 := by
  refine .inr ⟨fun hzero => hne (toUInt64_eq_zero.mp hzero),
    ⟨record, List.mem_append_right _ List.mem_cons_self, hconforming, rfl⟩, ?_⟩
  intro r hr hr' hnonzero
  rcases List.mem_append.mp hr with hr | hr
  · rcases h with ⟨-, hnone⟩ | ⟨hleast, -, hbound⟩
    · exact absurd (hnone r hr hr') hnonzero
    · rcases hless with hzero | hlt
      · exact absurd hzero hleast
      · exact UInt64.le_of_lt (UInt64.lt_of_lt_of_le hlt (hbound r hr hr' hnonzero))
  · obtain rfl := List.mem_singleton.mp hr
    exact UInt64.le_refl _

/-- The loop of the SRV callback keeps the least TTL. -/
theorem leastTtl_foldl (records : List RSrvRecord) :
    LeastTtl records (records.foldl foldMinTtlMs 0) := by
  induction records using List.reverseRecOn with
  | nil => exact .inl ⟨rfl, by simp⟩
  | append_singleton records record ih =>
    rw [List.foldl_append, List.foldl_cons, List.foldl_nil]
    generalize records.foldl foldMinTtlMs 0 = least at ih
    cases hname : rParseServerIdFromTarget record.target with
    | none =>
      rw [foldMinTtlMs_skip hname]
      exact ih.skip (by simp [conforming, hname])
    | some serverId =>
      have hfold : foldMinTtlMs least record =
          if record.ttlMs.toUInt64 > 0 && (least == 0 || record.ttlMs.toUInt64 < least) then
            record.ttlMs.toUInt64 else least := by
        simp [foldMinTtlMs, hname]
      rw [hfold]
      split
      · rename_i hsmaller
        simp only [Bool.and_eq_true, decide_eq_true_eq, Bool.or_eq_true, beq_iff_eq] at hsmaller
        refine ih.replace (by simp [conforming, hname]) ?_ hsmaller.2
        intro hzero
        rw [hzero] at hsmaller
        exact absurd hsmaller.1 (by decide)
      · rename_i hnot
        refine ih.keep ?_
        by_cases hzero : record.ttlMs = 0
        · exact .inl hzero
        · right
          have hpos : record.ttlMs.toUInt64 > 0 := by
            rw [gt_iff_lt, UInt64.pos_iff_ne_zero]
            exact fun h => hzero (toUInt64_eq_zero.mp h)
          simp only [hpos, decide_true, Bool.true_and, Bool.or_eq_true, beq_iff_eq,
            decide_eq_true_eq, not_or] at hnot
          exact ⟨hnot.1, UInt64.not_lt.mp hnot.2⟩

/-! ### The ledger of answers -/

theorem srvRecords_append (id : RefreshId) (trace effects : List Effect) :
    srvRecords id (trace ++ effects) = srvRecords id trace ++ srvRecords id effects :=
  List.flatMap_append

theorem addrLookups_append (id : RefreshId) (trace effects : List Effect) :
    addrLookups id (trace ++ effects) = addrLookups id trace ++ addrLookups id effects :=
  List.filterMap_append

theorem addrsOf_append (id : RefreshId) (trace effects : List Effect) (lookup : LookupId) :
    addrsOf id (trace ++ effects) lookup = addrsOf id trace lookup ++ addrsOf id effects lookup :=
  List.flatMap_append

/-- The effects say nothing about what a refresh finds. -/
structure Silent (id : RefreshId) (effects : List Effect) : Prop where
  records : srvRecords id effects = []
  lookups : addrLookups id effects = []
  addrs : ∀ lookup, addrsOf id effects lookup = []

theorem Silent.nil (id : RefreshId) : Silent id [] := ⟨rfl, rfl, fun _ => rfl⟩

theorem silent_completed (id refresh : RefreshId) (lookup : LookupId) :
    Silent id [.completed refresh lookup] := ⟨rfl, rfl, fun _ => rfl⟩

theorem silent_freed (id : RefreshId) (r : RDnsRefresh) : Silent id [.freed r] :=
  ⟨rfl, rfl, fun _ => rfl⟩

theorem silent_return (id refresh : RefreshId) (l : RDnsLookupCtx) (rc : Int) :
    Silent id (returnEffects refresh l rc) := by
  unfold returnEffects
  split
  · exact silent_completed id refresh l.id
  · exact .nil id

theorem silent_of_refresh {id : RefreshId} {effects : List Effect}
    (hother : ∀ e ∈ effects, e.refresh ≠ id) : Silent id effects where
  records := by
    refine List.flatMap_eq_nil_iff.mpr ?_
    intro e he
    have hne := hother e he
    cases e with
    | srvAnswer refresh lookup status records => exact if_neg (fun h => hne h.1)
    | _ => rfl
  lookups := by
    refine List.filterMap_eq_nil_iff.mpr ?_
    intro e he
    have hne := hother e he
    cases e with
    | resolveAddrs refresh lookup record => exact if_neg hne
    | _ => rfl
  addrs := by
    intro lookup
    refine List.flatMap_eq_nil_iff.mpr ?_
    intro e he
    have hne := hother e he
    cases e with
    | addrAnswer refresh answered status addrs => exact if_neg (fun h => hne h.1)
    | _ => rfl

theorem Silent.srvRecords_eq {id : RefreshId} {effects : List Effect} (h : Silent id effects)
    (trace : List Effect) : srvRecords id (trace ++ effects) = srvRecords id trace := by
  rw [srvRecords_append, h.records, List.append_nil]

theorem Silent.addrLookups_eq {id : RefreshId} {effects : List Effect} (h : Silent id effects)
    (trace : List Effect) : addrLookups id (trace ++ effects) = addrLookups id trace := by
  rw [addrLookups_append, h.lookups, List.append_nil]

theorem Silent.addrsOf_eq {id : RefreshId} {effects : List Effect} (h : Silent id effects)
    (trace : List Effect) (lookup : LookupId) :
    addrsOf id (trace ++ effects) lookup = addrsOf id trace lookup := by
  rw [addrsOf_append, h.addrs, List.append_nil]

theorem Silent.endpointsOf_eq {id : RefreshId} {effects : List Effect} (h : Silent id effects)
    (trace : List Effect) : endpointsOf id (trace ++ effects) = endpointsOf id trace := by
  unfold endpointsOf
  rw [h.addrLookups_eq]
  refine List.flatMap_congr ?_
  intro lookup _
  rw [h.addrsOf_eq]

/-! ### The invariant -/

/-- The loop of the SRV callback has dealt with a part of the records: each
    conforming one of them has its lookup. -/
def Looping (id : RefreshId) (trace : List Effect) (rest : List RSrvRecord) (minTtlMs : UInt64) :
    Prop :=
  ∃ done, srvRecords id trace = done ++ rest ∧
    (addrLookups id trace).map (·.2) = done.filter conforming ∧
    minTtlMs = done.foldl foldMinTtlMs 0

/-- A lookup carries the port and the server id of its record. -/
def Carries (l : RDnsLookupCtx) (record : RSrvRecord) : Prop :=
  l.port = record.port ∧ rParseServerIdFromTarget record.target = some l.serverId ∧
    l.hasServerId = true

/-- What an attached refresh has found agrees with what the resolver said. -/
structure Found (s : State) (control : Control) (r : RDnsRefresh) (trace : List Effect) : Prop where
  unasked : ∀ lookup, .srv lookup ∈ s.outstanding →
    srvRecords r.id trace = [] ∧ addrLookups r.id trace = [] ∧ r.minTtlMs = 0
  looping : ∀ lookup rest minTtlMs, control = .srvLoop lookup rest minTtlMs →
    Looping r.id trace rest minTtlMs
  waiting : ∀ id lookup srv rest minTtlMs, .resolveAddrs id lookup srv rest minTtlMs ∈ s.stack →
    Looping r.id trace rest minTtlMs
  looped : s.srvCount control = 0 →
    (addrLookups r.id trace).map (·.2) = (srvRecords r.id trace).filter conforming ∧
      r.minTtlMs = (srvRecords r.id trace).foldl foldMinTtlMs 0
  carries : ∀ l ∈ r.lookups, .addrs l.id ∈ s.outstanding →
    ∃ record, (l.id, record) ∈ addrLookups r.id trace ∧ Carries l record
  distinct : ((addrLookups r.id trace).map (·.1)).Nodup
  fresh : ∀ lookup ∈ addrLookups r.id trace, lookup.1 < s.nextId
  unanswered : ∀ lookup, s.nextId ≤ lookup → addrsOf r.id trace lookup = []
  endpoints : r.endpoints.Perm (endpointsOf r.id trace)
  answers : ∃ answers : List (RSrvRecord × List RAddr),
    r.endpoints = answers.flatMap fun answer => RlClient.rDnsAddrCbFn answer.1 answer.2

/-- The invariant of a state: an attached refresh has found what was said. -/
def Learned (s : State) (control : Control) (trace : List Effect) : Prop :=
  ∀ r, s.refreshes = [r] → r.detached = false → Found s control r trace

theorem Found.move {s s' : State} {control control' : Control} {r r' : RDnsRefresh}
    {trace effects : List Effect} (h : Found s control r trace) (hid : r'.id = r.id)
    (hminTtl : r'.minTtlMs = r.minTtlMs) (hendpoints : r'.endpoints = r.endpoints)
    (hsilent : Silent r.id effects) (hnext : s'.nextId = s.nextId)
    (houtstanding : ∀ query ∈ s'.outstanding, query ∈ s.outstanding)
    (hlookups : ∀ x ∈ r'.lookups, ∃ l ∈ r.lookups, l.id = x.id ∧ ∀ record, Carries l record →
      Carries x record)
    (hlooping : ∀ lookup rest minTtlMs, control' = .srvLoop lookup rest minTtlMs →
      Looping r.id trace rest minTtlMs)
    (hwaiting : ∀ id lookup srv rest minTtlMs,
      .resolveAddrs id lookup srv rest minTtlMs ∈ s'.stack → Looping r.id trace rest minTtlMs)
    (hcount : s'.srvCount control' = 0 →
      s.srvCount control = 0 ∨ ∃ lookup, .srv lookup ∈ s.outstanding) :
    Found s' control' r' (trace ++ effects) := by
  have hloop : ∀ {rest : List RSrvRecord} {minTtlMs : UInt64}, Looping r.id trace rest minTtlMs →
      Looping r'.id (trace ++ effects) rest minTtlMs := by
    intro rest minTtlMs hold
    unfold Looping
    rwa [hid, hsilent.srvRecords_eq, hsilent.addrLookups_eq]
  constructor
  case unasked =>
    intro lookup hquery
    rw [hid, hsilent.srvRecords_eq, hsilent.addrLookups_eq, hminTtl]
    exact h.unasked lookup (houtstanding _ hquery)
  case looping =>
    exact fun lookup rest minTtlMs hcontrol => hloop (hlooping lookup rest minTtlMs hcontrol)
  case waiting =>
    exact fun id lookup srv rest minTtlMs hframe =>
      hloop (hwaiting id lookup srv rest minTtlMs hframe)
  case looped =>
    intro hzero
    rw [hid, hsilent.srvRecords_eq, hsilent.addrLookups_eq, hminTtl]
    rcases hcount hzero with hbefore | ⟨lookup, hquery⟩
    · exact h.looped hbefore
    · obtain ⟨hrecords, hnone, hzero⟩ := h.unasked lookup hquery
      rw [hrecords, hnone, hzero]
      exact ⟨rfl, rfl⟩
  case carries =>
    intro x hx hquery
    obtain ⟨l, hl, hlid, hcarries⟩ := hlookups x hx
    rw [hid, hsilent.addrLookups_eq]
    obtain ⟨record, hmem, hrecord⟩ := h.carries l hl (by rw [hlid]; exact houtstanding _ hquery)
    exact ⟨record, hlid ▸ hmem, hcarries record hrecord⟩
  case distinct =>
    rw [hid, hsilent.addrLookups_eq]
    exact h.distinct
  case fresh =>
    rw [hid, hsilent.addrLookups_eq, hnext]
    exact h.fresh
  case unanswered =>
    intro lookup hlookup
    rw [hid, hsilent.addrsOf_eq]
    exact h.unanswered lookup (hnext ▸ hlookup)
  case endpoints =>
    rw [hid, hsilent.endpointsOf_eq, hendpoints]
    exact h.endpoints
  case answers =>
    rw [hendpoints]
    exact h.answers

/-! ### Callbacks -/

theorem mem_running {stack : List Frame} {id : RefreshId} {lookup srv : LookupId}
    {rest : List RSrvRecord} {minTtlMs : UInt64}
    (hframe : .resolveAddrs id lookup srv rest minTtlMs ∈ stack) : srv ∈ running stack :=
  List.mem_filterMap.mpr ⟨_, hframe, rfl⟩

/-- While the SRV answer is owed, no loop runs and nothing else is owed an SRV answer. -/
theorem Inv.unasked {s : State} {control : Control} {r : RDnsRefresh} (h : Inv s control r)
    {lookup : LookupId} (hquery : .srv lookup ∈ s.outstanding) :
    control.loops = 0 ∧ running s.stack = [] ∧
      (s.outstanding.erase (.srv lookup)).countP Query.isSrv = 0 := by
  have hsingle := h.single
  have hcount := countP_erase_of_mem hquery
  unfold State.srvCount at hsingle
  rw [hcount] at hsingle
  simp only [Query.isSrv, if_true] at hsingle
  exact ⟨by omega, List.length_eq_zero_iff.mp (by omega), by omega⟩

theorem Found.srvCall {s : State} {r : RDnsRefresh} {trace : List Effect}
    (h : Found s .foreign r trace) (hinv : Inv s .foreign r) (hset : r.client = true)
    (hattached : r.detached = false) {lookup : LookupId} (hquery : .srv lookup ∈ s.outstanding)
    (status : Int) (records : List RSrvRecord) :
    Found (s.called (.srv lookup)) (srvControl r lookup status records) r
      (trace ++ [.srvAnswer r.id lookup status records]) := by
  obtain ⟨hrecords, hnone, hzero⟩ := h.unasked lookup hquery
  obtain ⟨-, hrunning, hothers⟩ := hinv.unasked hquery
  have hsaid : srvRecords r.id (trace ++ [.srvAnswer r.id lookup status records]) =
      if status = 0 then records else [] := by
    rw [srvRecords_append, hrecords]
    simp [srvRecords]
  have hlookups : addrLookups r.id (trace ++ [.srvAnswer r.id lookup status records]) = [] := by
    rw [addrLookups_append, hnone]
    rfl
  have haddrs : ∀ i, addrsOf r.id (trace ++ [.srvAnswer r.id lookup status records]) i =
      addrsOf r.id trace i := by
    intro i
    rw [addrsOf_append]
    exact List.append_nil _
  have hcontrol : srvControl r lookup status records =
      if status = 0 && records.length > 0 then .srvLoop lookup records 0
      else .finishing lookup := by
    simp [srvControl, hset, hattached]
  constructor
  case unasked =>
    intro other hother
    exact absurd rfl (List.countP_eq_zero.mp hothers (.srv other) hother)
  case looping =>
    intro srv rest minTtlMs hloop
    rw [hcontrol] at hloop
    split at hloop
    · rename_i hanswer
      simp only [Bool.and_eq_true, decide_eq_true_eq] at hanswer
      obtain ⟨-, rfl, rfl⟩ := Control.srvLoop.inj hloop
      refine ⟨[], ?_, ?_, rfl⟩
      · rw [hsaid, if_pos hanswer.1]
        rfl
      · rw [hlookups]
        rfl
    · exact absurd hloop (by simp)
  case waiting =>
    intro id i srv rest minTtlMs hframe
    exact absurd (mem_running hframe) (by simp [State.called, hrunning])
  case looped =>
    intro hcount
    have hnot : ¬ (status = 0 && records.length > 0) = true := by
      intro hanswer
      rw [hcontrol, if_pos hanswer] at hcount
      exact absurd hcount (by simp [State.srvCount, Control.loops])
    have hempty : (if status = 0 then records else []) = [] := by
      split
      · rename_i hstatus
        simpa [hstatus] using hnot
      · rfl
    rw [hlookups, hsaid, hempty, hzero]
    exact ⟨rfl, rfl⟩
  case carries =>
    intro l hl hmem
    obtain ⟨record, hrecord, -⟩ := h.carries l hl (List.mem_of_mem_erase hmem)
    exact absurd hrecord (by simp [hnone])
  case distinct => simp [hlookups]
  case fresh => simp [hlookups]
  case unanswered =>
    intro i hi
    rw [haddrs]
    exact h.unanswered i hi
  case endpoints =>
    have hperm := h.endpoints
    unfold endpointsOf at hperm ⊢
    simp only [haddrs]
    rwa [hnone, ← hlookups] at hperm
  case answers => exact h.answers

/-- With memory for every endpoint, an answer adds one per address. -/
theorem addEndpoints_endpoints {allocs : Nat → Bool} (hallocs : ∀ i, allocs i = true)
    (l : RDnsLookupCtx) (addrs : List RAddr) (i : Nat) (r : RDnsRefresh) :
    (addEndpoints r l allocs addrs i).endpoints =
      r.endpoints ++ addrs.map fun addr =>
        { addr := rAddrSetPort addr l.port, serverId := l.serverId,
          hasServerId := l.hasServerId } := by
  induction addrs generalizing r i with
  | nil => simp [addEndpoints]
  | cons addr addrs ih =>
    have hone : (rDnsRefreshAddEndpoint r (rAddrSetPort addr l.port) l.serverId l.hasServerId
        (allocs i)).endpoints = r.endpoints ++
          [{ addr := rAddrSetPort addr l.port, serverId := l.serverId,
             hasServerId := l.hasServerId }] := by
      unfold rDnsRefreshAddEndpoint
      simp only [hallocs i, if_true]
      split <;> rfl
    rw [addEndpoints, ih, hone, List.append_assoc, List.map_cons]
    rfl

theorem answered_endpoints {r : RDnsRefresh} (hset : r.client = true)
    (hattached : r.detached = false)
    {l : RDnsLookupCtx} {record : RSrvRecord} (hcarries : Carries l record) (status : Int)
    (addrs : List RAddr) {allocs : Nat → Bool} (hallocs : ∀ i, allocs i = true) :
    (answered r l status addrs allocs).endpoints =
      r.endpoints ++ (if status = 0 then addrs else []).map (endpointOf record) := by
  obtain ⟨hport, hname, hhas⟩ := hcarries
  have hendpoint : endpointOf record = fun addr =>
      { addr := rAddrSetPort addr l.port, serverId := l.serverId,
        hasServerId := l.hasServerId } := by
    funext addr
    simp [endpointOf, hport, hname, hhas]
  unfold answered
  by_cases hstatus : status = 0
  · rw [if_pos hstatus]
    by_cases hempty : addrs = []
    · simp [hempty]
    · have hlength : addrs.length > 0 := List.length_pos_iff.mpr hempty
      rw [if_pos (by simp [hset, hattached, hstatus, hlength]), addEndpoints_endpoints hallocs,
        hendpoint]
  · rw [if_neg (by simp [hstatus]), if_neg hstatus]
    simp

theorem rDnsAddrCbFn_eq {record : RSrvRecord} {serverId : UInt64}
    (hname : rParseServerIdFromTarget record.target = some serverId) (addrs : List RAddr) :
    RlClient.rDnsAddrCbFn record addrs = addrs.map (endpointOf record) := by
  simp [RlClient.rDnsAddrCbFn, hname, endpointOf]

/-- **An address answer** extends the endpoints by those of its record. -/
theorem Found.addrCall {s : State} {r : RDnsRefresh} {trace : List Effect}
    (h : Found s .foreign r trace) (hinv : Inv s .foreign r) (hset : r.client = true)
    (hattached : r.detached = false) {l : RDnsLookupCtx} (hl : l ∈ r.lookups)
    (hquery : .addrs l.id ∈ s.outstanding) (status : Int) (addrs : List RAddr)
    {allocs : Nat → Bool} (hallocs : ∀ i, allocs i = true) :
    Found { s.called (.addrs l.id) with refreshes := [answered r l status addrs allocs] }
      (.finishing l.id) (answered r l status addrs allocs)
      (trace ++ [.addrAnswer r.id l.id status addrs]) := by
  obtain ⟨record, hmem, hcarries⟩ := h.carries l hl hquery
  obtain ⟨hport, hname, hhas⟩ := id hcarries
  have hsame := answered_same r l status addrs allocs
  have hendpoints := answered_endpoints hset hattached hcarries status addrs hallocs
  have hminTtl : (answered r l status addrs allocs).minTtlMs = r.minTtlMs := by
    obtain ⟨endpoints, cap, heq⟩ := answered_frame r l status addrs allocs
    rw [heq]
  have hrecords : srvRecords r.id (trace ++ [.addrAnswer r.id l.id status addrs]) =
      srvRecords r.id trace := by
    rw [srvRecords_append]
    exact List.append_nil _
  have hlookups : addrLookups r.id (trace ++ [.addrAnswer r.id l.id status addrs]) =
      addrLookups r.id trace := by
    rw [addrLookups_append]
    exact List.append_nil _
  have haddrs : ∀ i, addrsOf r.id (trace ++ [.addrAnswer r.id l.id status addrs]) i =
      addrsOf r.id trace i ++ if i = l.id then (if status = 0 then addrs else []) else [] := by
    intro i
    rw [addrsOf_append]
    congr 1
    by_cases hi : i = l.id
    · simp [addrsOf, hi]
    · simp [addrsOf, hi, Ne.symm hi]
  constructor
  case unasked =>
    intro lookup hsrv
    rw [hsame.id, hrecords, hlookups, hminTtl]
    exact h.unasked lookup (List.mem_of_mem_erase hsrv)
  case looping =>
    intro lookup rest minTtlMs hcontrol
    exact absurd hcontrol (by simp)
  case waiting =>
    intro id lookup srv rest minTtlMs hframe
    unfold Looping
    rw [hsame.id, hrecords, hlookups]
    exact h.waiting id lookup srv rest minTtlMs hframe
  case looped =>
    intro hcount
    rw [hsame.id, hrecords, hlookups, hminTtl]
    refine h.looped ?_
    have hsrv := countP_erase_of_mem hquery
    simp only [State.srvCount, State.called, Control.loops, Query.isSrv, Bool.false_eq_true,
      if_false] at hcount hsrv ⊢
    omega
  case carries =>
    intro x hx hsrv
    rw [hsame.lookups] at hx
    rw [hsame.id, hlookups]
    exact h.carries x hx (List.mem_of_mem_erase hsrv)
  case distinct =>
    rw [hsame.id, hlookups]
    exact h.distinct
  case fresh =>
    rw [hsame.id, hlookups]
    exact h.fresh
  case unanswered =>
    intro i hi
    have hne : i ≠ l.id := Nat.ne_of_gt (Nat.lt_of_lt_of_le (hinv.bound l hl) hi)
    rw [hsame.id, haddrs, if_neg hne, List.append_nil]
    exact h.unanswered i hi
  case endpoints =>
    rw [hsame.id, hendpoints]
    unfold endpointsOf
    rw [hlookups]
    simp only [haddrs]
    have hextend := @Keyed.flatMap_extend _ _ _ (fun lookup : LookupId × RSrvRecord => lookup.1)
      _ (l.id, record) _ _ h.distinct hmem (addrsOf r.id trace)
      (if status = 0 then addrs else []) (fun lookup => endpointOf lookup.2)
    exact (h.endpoints.append_right _).trans hextend.symm
  case answers =>
    obtain ⟨answers, hanswers⟩ := h.answers
    refine ⟨answers ++ [(record, if status = 0 then addrs else [])], ?_⟩
    rw [hendpoints, hanswers, List.flatMap_append, List.flatMap_cons, List.flatMap_nil,
      List.append_nil, rDnsAddrCbFn_eq hname]

/-! ### The loop -/

theorem Looping.skip {id : RefreshId} {trace : List Effect} {record : RSrvRecord}
    {rest : List RSrvRecord} {minTtlMs : UInt64} (h : Looping id trace (record :: rest) minTtlMs)
    (hname : rParseServerIdFromTarget record.target = none) : Looping id trace rest minTtlMs := by
  obtain ⟨done, hrecords, hlookups, rfl⟩ := h
  refine ⟨done ++ [record], ?_, ?_, ?_⟩
  · rw [hrecords, List.append_assoc]
    rfl
  · rw [hlookups, List.filter_append]
    simp [conforming, hname]
  · rw [List.foldl_append, List.foldl_cons, List.foldl_nil, foldMinTtlMs_skip hname]

/-- While the loop runs, no SRV answer is owed and no other loop waits. -/
theorem Inv.loop_alone {s : State} {r : RDnsRefresh} {srv : LookupId} {rest : List RSrvRecord}
    {minTtlMs : UInt64} (h : Inv s (.srvLoop srv rest minTtlMs) r) :
    running s.stack = [] ∧ ∀ lookup, .srv lookup ∉ s.outstanding := by
  have hsingle := h.single
  simp only [State.srvCount, Control.loops] at hsingle
  refine ⟨List.length_eq_zero_iff.mp (by omega), ?_⟩
  intro lookup hquery
  have hpos : 0 < s.outstanding.countP Query.isSrv :=
    List.countP_pos_iff.mpr ⟨.srv lookup, hquery, rfl⟩
  omega

/-- **A conforming record** gets its lookup. -/
theorem Found.enter {s : State} {r : RDnsRefresh} {trace : List Effect} {srv : LookupId}
    {record : RSrvRecord} {rest : List RSrvRecord} {minTtlMs serverId : UInt64}
    (h : Found s (.srvLoop srv (record :: rest) minTtlMs) r trace)
    (hinv : Inv s (.srvLoop srv (record :: rest) minTtlMs) r)
    (hname : rParseServerIdFromTarget record.target = some serverId) :
    Found
      { s with
        refreshes := [{ r with lookups := newLookup s.nextId record.port serverId true :: r.lookups
                               pending := r.pending + 1, scheduling := r.scheduling + 1 }]
        stack := .resolveAddrs r.id s.nextId srv rest (foldMinTtlMs minTtlMs record) :: s.stack
        outstanding := .addrs s.nextId :: s.outstanding
        nextId := s.nextId + 1 } .foreign
      { r with lookups := newLookup s.nextId record.port serverId true :: r.lookups
               pending := r.pending + 1, scheduling := r.scheduling + 1 }
      (trace ++ [.resolveAddrs r.id s.nextId record]) := by
  obtain ⟨done, hdone, hscheduled, hleast⟩ := h.looping srv (record :: rest) minTtlMs rfl
  obtain ⟨hrunning, hnoSrv⟩ := hinv.loop_alone
  have hrecords : srvRecords r.id (trace ++ [.resolveAddrs r.id s.nextId record]) =
      srvRecords r.id trace := by
    rw [srvRecords_append]
    exact List.append_nil _
  have hlookups : addrLookups r.id (trace ++ [.resolveAddrs r.id s.nextId record]) =
      addrLookups r.id trace ++ [(s.nextId, record)] := by
    rw [addrLookups_append]
    simp [addrLookups]
  have haddrs : ∀ i, addrsOf r.id (trace ++ [.resolveAddrs r.id s.nextId record]) i =
      addrsOf r.id trace i := by
    intro i
    rw [addrsOf_append]
    exact List.append_nil _
  constructor
  case unasked =>
    intro lookup hquery
    rcases List.mem_cons.mp hquery with hnew | hold
    · exact absurd hnew (by simp)
    · exact absurd hold (hnoSrv lookup)
  case looping =>
    intro lookup rest' minTtlMs' hcontrol
    exact absurd hcontrol (by simp)
  case waiting =>
    intro id lookup srv' rest' minTtlMs' hframe
    rcases List.mem_cons.mp hframe with hnew | hold
    · obtain ⟨-, -, -, rfl, rfl⟩ := Frame.resolveAddrs.inj hnew
      refine ⟨done ++ [record], ?_, ?_, ?_⟩
      · rw [hrecords, hdone, List.append_assoc]
        rfl
      · rw [hlookups, List.map_append, hscheduled, List.filter_append]
        simp [conforming, hname]
      · rw [hleast, List.foldl_append]
        rfl
    · exact absurd (mem_running hold) (by simp [hrunning])
  case looped =>
    intro hcount
    exact absurd hcount (by simp [State.srvCount])
  case carries =>
    intro l hl hquery
    rw [hlookups]
    rcases List.mem_cons.mp hl with rfl | hold
    · exact ⟨record, List.mem_append_right _ List.mem_cons_self, rfl, hname, rfl⟩
    · have hne : l.id ≠ s.nextId := Nat.ne_of_lt (hinv.bound l hold)
      rcases List.mem_cons.mp hquery with hnew | howed
      · exact absurd (Query.addrs.inj hnew) hne
      · obtain ⟨record', hmem, hcarries⟩ := h.carries l hold howed
        exact ⟨record', List.mem_append_left _ hmem, hcarries⟩
  case distinct =>
    rw [hlookups, List.map_append]
    refine List.nodup_append.mpr ⟨h.distinct, List.nodup_singleton _, ?_⟩
    intro i hi j hj
    obtain ⟨lookup, hlookup, rfl⟩ := List.mem_map.mp hi
    obtain rfl := List.mem_singleton.mp hj
    exact Nat.ne_of_lt (h.fresh lookup hlookup)
  case fresh =>
    intro lookup hlookup
    rw [hlookups] at hlookup
    rcases List.mem_append.mp hlookup with hold | hnew
    · exact Nat.lt_succ_of_lt (h.fresh lookup hold)
    · obtain rfl := List.mem_singleton.mp hnew
      exact Nat.lt_succ_self _
  case unanswered =>
    intro i hi
    rw [haddrs]
    exact h.unanswered i (Nat.le_of_succ_le hi)
  case endpoints =>
    have hsame : endpointsOf r.id (trace ++ [.resolveAddrs r.id s.nextId record]) =
        endpointsOf r.id trace := by
      unfold endpointsOf
      simp only [haddrs]
      rw [hlookups, List.flatMap_append, List.flatMap_cons,
        h.unanswered s.nextId (Nat.le_refl _)]
      simp
    rw [hsame]
    exact h.endpoints
  case answers => exact h.answers

/-- **The end of the loop** stores the TTL. -/
theorem Found.endLoop {s : State} {r : RDnsRefresh} {trace : List Effect} {srv : LookupId}
    {minTtlMs : UInt64} (h : Found s (.srvLoop srv [] minTtlMs) r trace)
    (hinv : Inv s (.srvLoop srv [] minTtlMs) r) :
    Found { s with refreshes := [{ r with minTtlMs := minTtlMs }] } (.finishing srv)
      { r with minTtlMs := minTtlMs } trace := by
  obtain ⟨done, hdone, hscheduled, hleast⟩ := h.looping srv [] minTtlMs rfl
  obtain ⟨-, hnoSrv⟩ := hinv.loop_alone
  rw [List.append_nil] at hdone
  constructor
  case unasked => exact fun lookup hquery => absurd hquery (hnoSrv lookup)
  case looping => exact fun lookup rest minTtlMs' hcontrol => absurd hcontrol (by simp)
  case waiting => exact h.waiting
  case looped =>
    intro _
    rw [hdone]
    exact ⟨hscheduled, hleast⟩
  case carries => exact h.carries
  case distinct => exact h.distinct
  case fresh => exact h.fresh
  case unanswered => exact h.unanswered
  case endpoints => exact h.endpoints
  case answers => exact h.answers

/-! ### Pieces -/

theorem found_start {s : State} (h : Ok s .foreign) (hnone : s.refreshes = []) {c : DnsClient}
    {trace : List Effect} (hknown : ∀ e ∈ trace, e.refresh < s.nextId) :
    Found
      { s with
        client := some c
        refreshes := [{ newRefresh s.nextId with
                        lookups := [newLookup (s.nextId + 1) 0 0 false], pending := 1
                        scheduling := 1 }]
        stack := .resolveSrv s.nextId (s.nextId + 1) :: s.stack
        outstanding := .srv (s.nextId + 1) :: s.outstanding
        nextId := s.nextId + 1 + 1 } .foreign
      { newRefresh s.nextId with
        lookups := [newLookup (s.nextId + 1) 0 0 false], pending := 1, scheduling := 1 }
      (trace ++ [.resolveSrv s.nextId (s.nextId + 1)]) := by
  have hempty : s.stack = [] ∧ s.outstanding = [] := by
    cases h with
    | none _ hstack houtstanding => exact ⟨hstack, houtstanding⟩
    | live hlive => exact absurd (hlive.symm.trans hnone) (by simp)
  obtain ⟨hstack, houtstanding⟩ := hempty
  have hold : Silent s.nextId trace :=
    silent_of_refresh fun e he => Nat.ne_of_lt (hknown e he)
  have hsilent : Silent s.nextId [.resolveSrv s.nextId (s.nextId + 1)] :=
    ⟨rfl, rfl, fun _ => rfl⟩
  have hrecords := (hsilent.srvRecords_eq trace).trans hold.records
  have hlookups := (hsilent.addrLookups_eq trace).trans hold.lookups
  have haddrs := fun i => (hsilent.addrsOf_eq trace i).trans (hold.addrs i)
  constructor
  case unasked => exact fun _ _ => ⟨hrecords, hlookups, rfl⟩
  case looping => exact fun _ _ _ hcontrol => absurd hcontrol (by simp)
  case waiting =>
    intro id lookup srv rest minTtlMs hframe
    exact absurd hframe (by simp [hstack])
  case looped => exact fun hcount => absurd hcount (by simp [State.srvCount, Query.isSrv])
  case carries =>
    intro l _ hquery
    exact absurd hquery (by simp [houtstanding])
  case distinct => exact hlookups ▸ .nil
  case fresh => exact fun lookup hlookup => absurd (hlookups ▸ hlookup) List.not_mem_nil
  case unanswered => exact fun i _ => haddrs i
  case endpoints =>
    have hnothing : endpointsOf s.nextId (trace ++ [.resolveSrv s.nextId (s.nextId + 1)]) = [] := by
      unfold endpointsOf
      rw [hlookups]
      rfl
    exact hnothing ▸ .refl _
  case answers => exact ⟨[], rfl⟩

/-- A change that leaves the refresh, the stack and what is owed alone. -/
theorem Found.stay {s s' : State} {control control' : Control} {r : RDnsRefresh}
    {trace : List Effect} (h : Found s control r trace) (hstack : s'.stack = s.stack)
    (houtstanding : s'.outstanding = s.outstanding) (hnext : s'.nextId = s.nextId)
    (hloops : control.loops = 0) (hloops' : control'.loops = 0) : Found s' control' r trace := by
  rw [← List.append_nil trace]
  refine h.move rfl rfl rfl (.nil _) hnext (fun query hquery => houtstanding ▸ hquery)
    (fun x hx => ⟨x, hx, rfl, fun _ hcarries => hcarries⟩) ?_ ?_ ?_
  · rintro lookup rest minTtlMs rfl
    exact absurd hloops' (by simp [Control.loops])
  · intro id lookup srv rest minTtlMs hframe
    exact h.waiting id lookup srv rest minTtlMs (hstack ▸ hframe)
  · intro hcount
    left
    unfold State.srvCount at hcount ⊢
    rw [hloops', hstack, houtstanding] at hcount
    rw [hloops]
    exact hcount

theorem Found.complete {s : State} {r : RDnsRefresh} {l : RDnsLookupCtx} {trace : List Effect}
    (h : Found s (.finishing l.id) r trace) (hinv : Inv s (.finishing l.id) r)
    (hl : l ∈ r.lookups) :
    Found { s with refreshes := [completeLookup r l] } .settling (completeLookup r l)
      (trace ++ [.completed r.id l.id]) := by
  have hkept : (completeLookup r l).minTtlMs = r.minTtlMs ∧
      (completeLookup r l).endpoints = r.endpoints := by
    unfold completeLookup
    simp only
    split
    · exact ⟨rfl, rfl⟩
    · exact ⟨rfl, rfl⟩
  refine h.move (completeLookup_fields r l).1 hkept.1 hkept.2 (silent_completed _ _ _) rfl
    (fun query hquery => hquery) ?_ ?_ h.waiting (fun hcount => .inl hcount)
  · intro x hx
    rcases (mem_completeLookup hinv.nodup hl).mp hx with ⟨hold, -⟩ | ⟨-, rfl⟩
    · exact ⟨x, hold, rfl, fun _ hcarries => hcarries⟩
    · exact ⟨l, hl, rfl, fun _ hcarries => hcarries⟩
  · intro lookup rest minTtlMs hcontrol
    exact absurd hcontrol (by simp)

theorem leaveResolver_found (r : RDnsRefresh) (l : RDnsLookupCtx) (rc : Int) (reqId : UInt64) :
    (leaveResolver r l rc reqId).minTtlMs = r.minTtlMs ∧
      (leaveResolver r l rc reqId).endpoints = r.endpoints := by
  rcases leave_cases l rc with ⟨rfl, hopen⟩ | hover
  · rw [leaveResolver_keep r hopen]
    exact ⟨rfl, rfl⟩
  · rw [leaveResolver_unlink r hover]
    exact ⟨rfl, rfl⟩

/-- A resolver call that returns adds nothing; a refused SRV lookup leaves the
    refresh without records. -/
theorem Found.leave {s : State} {control' : Control} {r : RDnsRefresh} {l : RDnsLookupCtx}
    {trace : List Effect} (h : Found s .foreign r trace) (hinv : Inv s .foreign r)
    (hl : l ∈ r.lookups) {frame : Frame} {stack : List Frame} (hstack : s.stack = frame :: stack)
    (rc : Int) (reqId : UInt64)
    (hlooping : ∀ lookup rest minTtlMs, control' = .srvLoop lookup rest minTtlMs →
      Looping r.id trace rest minTtlMs)
    (hloops : (running s.stack).length = control'.loops + (running stack).length) :
    Found { s with stack := stack, refreshes := [leaveResolver r l rc reqId]
                   outstanding := refuse s.outstanding l.id rc } control'
      (leaveResolver r l rc reqId) (trace ++ returnEffects r.id l rc) := by
  have hrefuse : ∀ query ∈ refuse s.outstanding l.id rc, query ∈ s.outstanding := by
    intro query hquery
    unfold refuse at hquery
    split at hquery
    · exact hquery
    · exact (List.mem_filter.mp hquery).1
  refine h.move (leaveResolver_fields r l rc reqId).1 (leaveResolver_found r l rc reqId).1
    (leaveResolver_found r l rc reqId).2 (silent_return _ _ _ _) rfl hrefuse ?_ hlooping ?_ ?_
  · intro x hx
    rcases (mem_leaveResolver hinv.nodup hl rc reqId).mp hx with ⟨hold, -⟩ | ⟨-, -, rfl⟩
    · exact ⟨x, hold, rfl, fun _ hcarries => hcarries⟩
    · exact ⟨l, hl, rfl, fun _ hcarries => hcarries⟩
  · intro id lookup srv rest minTtlMs hframe
    exact h.waiting id lookup srv rest minTtlMs (hstack ▸ List.mem_cons_of_mem _ hframe)
  · intro hcount
    by_cases howed : ∃ lookup, .srv lookup ∈ s.outstanding
    · exact .inr howed
    · left
      have hnoSrv : s.outstanding.countP Query.isSrv = 0 := by
        refine List.countP_eq_zero.mpr ?_
        intro query hquery
        cases query with
        | srv lookup => exact absurd ⟨lookup, hquery⟩ howed
        | addrs lookup => simp [Query.isSrv]
      have hforeign : Control.loops .foreign = 0 := rfl
      unfold State.srvCount at hcount ⊢
      simp only at hcount
      omega

theorem Inv.attached_client {s : State} {control : Control} {r : RDnsRefresh} (h : Inv s control r)
    (hattached : r.detached = false) : r.client = true ∧ control ≠ .detaching ∧
      ∀ id lookup next stack, s.stack ≠ .cancel id lookup next :: stack := by
  cases h.phase with
  | attached _ _ _ _ hset _ hcontrol hstack =>
    refine ⟨hset, hcontrol, ?_⟩
    intro id lookup next stack heq
    exact hstack.no_cancel (heq ▸ List.mem_cons_self)
  | detaching _ _ _ _ _ hdet => exact absurd (hattached.symm.trans hdet) (by simp)
  | cancelling _ _ _ _ _ hdet => exact absurd (hattached.symm.trans hdet) (by simp)
  | gone _ _ hdet => exact absurd (hattached.symm.trans hdet) (by simp)

/-- **Every piece keeps what an attached refresh has found.** -/
theorem Micro.learned {nowMs : UInt64} {s s' : State} {control control' : Control}
    {effects trace : List Effect} (h : Ok s control) (hledger : Ledger s trace)
    (hlearned : Learned s control trace)
    (hmicro : Micro false nowMs s control effects s' control') :
    Learned s' control' (trace ++ effects) := by
  intro r' hlive' hattached
  cases hmicro with
  | start _ _ hnone =>
    rw [enterResolver_single rfl] at hlive' ⊢
    obtain ⟨rfl, -⟩ := List.cons.inj hlive'
    exact found_start h hnone hledger.known
  | spare _ _ hnone => exact absurd (hlive'.symm.trans hnone) (by simp)
  | @srvCall r lookup status records hlive hquery hmay =>
    obtain ⟨rfl, -⟩ := List.cons.inj (hlive.symm.trans hlive')
    have hinv := ok_live h hlive
    exact (hlearned r hlive hattached).srvCall hinv (hinv.attached_client hattached).1 hattached
      hquery status records
  | @addrCall r l status addrs allocs hallocs hlive hquery hmay hl =>
    obtain ⟨rfl, -⟩ := List.cons.inj hlive'
    have hsame := answered_same r l status addrs allocs
    have hinv := ok_live h hlive
    have hdet : r.detached = false := hsame.detached.symm.trans hattached
    exact (hlearned r hlive hdet).addrCall hinv (hinv.attached_client hdet).1 hdet hl hquery status
      addrs (hallocs rfl)
  | skip hname =>
    have hfound := hlearned r' hlive' hattached
    refine hfound.move rfl rfl rfl (.nil _) rfl (fun query hquery => hquery)
      (fun x hx => ⟨x, hx, rfl, fun _ hcarries => hcarries⟩) ?_ hfound.waiting ?_
    · intro srv rest minTtlMs hcontrol
      obtain ⟨rfl, rfl, rfl⟩ := Control.srvLoop.inj hcontrol
      exact (hfound.looping _ _ _ rfl).skip hname
    · intro hcount
      exact absurd hcount (by simp [State.srvCount, Control.loops])
  | pass hlive hreason =>
    obtain ⟨rfl, -⟩ := List.cons.inj (hlive.symm.trans hlive')
    rcases hreason with hdet | hfailed
    · exact absurd (hattached.symm.trans hdet) (by simp)
    · exact absurd hfailed (by simp)
  | enter hname hlive hdet =>
    rw [enterResolver_single hlive] at hlive' ⊢
    obtain ⟨rfl, -⟩ := List.cons.inj hlive'
    exact (hlearned _ hlive hdet).enter (ok_live h hlive) hname
  | endLoop hlive =>
    obtain ⟨rfl, -⟩ := List.cons.inj hlive'
    rw [List.append_nil]
    exact (hlearned _ hlive hattached).endLoop (ok_live h hlive)
  | @complete r l hlive hl =>
    obtain ⟨rfl, -⟩ := List.cons.inj hlive'
    have hdet : r.detached = false := (completeLookup_fields r l).2.2.1.symm.trans hattached
    exact (hlearned r hlive hdet).complete (ok_live h hlive) hl
  | @leaveSrv r l stack rc reqId hlive hl hstack =>
    obtain ⟨rfl, -⟩ := List.cons.inj hlive'
    have hdet : r.detached = false := (leaveResolver_fields r l rc reqId).2.2.1.symm.trans hattached
    refine (hlearned r hlive hdet).leave (ok_live h hlive) hl hstack rc reqId ?_ ?_
    · intro lookup rest minTtlMs hcontrol
      exact absurd hcontrol (by simp)
    · simp [hstack, Control.loops]
  | @leaveAddrs r l stack srv rest minTtlMs rc reqId hlive hl hstack =>
    obtain ⟨rfl, -⟩ := List.cons.inj hlive'
    have hdet : r.detached = false := (leaveResolver_fields r l rc reqId).2.2.1.symm.trans hattached
    have hfound := hlearned r hlive hdet
    refine hfound.leave (ok_live h hlive) hl hstack rc reqId ?_ ?_
    · intro lookup rest' minTtlMs' hcontrol
      obtain ⟨rfl, rfl, rfl⟩ := Control.srvLoop.inj hcontrol
      exact hfound.waiting r.id l.id srv rest minTtlMs (hstack ▸ List.mem_cons_self)
    · simp [hstack, Control.loops, Nat.add_comm]
  | stay =>
    rw [List.append_nil]
    exact (hlearned r' hlive' hattached).stay rfl rfl rfl rfl rfl
  | install | drop => exact absurd hlive' (by simp)
  | detach =>
    obtain ⟨rfl, -⟩ := List.cons.inj hlive'
    exact absurd hattached (by simp)
  | cancel hlive =>
    exact absurd rfl ((ok_live h hlive').attached_client hattached).2.1
  | cancelled hstack =>
    exact absurd hstack (((ok_live h hlive').attached_client hattached).2.2 _ _ _ _)
  | @release r hlive =>
    obtain ⟨rfl, -⟩ := List.cons.inj hlive'
    exact absurd rfl ((ok_live h hlive).attached_client hattached).2.1
  | destroy =>
    rw [List.append_nil]
    exact (hlearned r' hlive' hattached).stay rfl rfl rfl rfl rfl

/-! ### The end of a refresh -/

def SameServers (c c' : DnsClient) : Prop :=
  c'.membership.servers = c.membership.servers ∧
    c'.membership.lastDnsRefreshMs = c.membership.lastDnsRefreshMs ∧
    c'.membership.dnsRefreshTtlMs = c.membership.dnsRefreshTtlMs

/-- What the end of a refresh makes of the membership: every conforming record was
    looked up; the servers are those found, and nothing changes if there are none. -/
structure Installed (c c' : DnsClient) (id : RefreshId) (trace : List Effect) (nowMs : UInt64) :
    Prop where
  lookedUp : (addrLookups id trace).map (·.2) = (srvRecords id trace).filter conforming
  found : endpointsOf id trace ≠ [] →
    c'.membership.servers.Perm (endpointsOf id trace) ∧
      c'.membership.lastDnsRefreshMs = nowMs ∧
      LeastTtl (srvRecords id trace) c'.membership.dnsRefreshTtlMs
  nothing : endpointsOf id trace = [] → SameServers c c'
  whole : ∃ answers, c'.membership =
    RlClient.rDnsRefreshFinish c.membership ⟨srvRecords id trace, answers⟩ nowMs

theorem SameServers.refl (c : DnsClient) : SameServers c c := ⟨rfl, rfl, rfl⟩

theorem SameServers.trans {c c₁ c' : DnsClient} (h : SameServers c c₁) (h' : SameServers c₁ c') :
    SameServers c c' :=
  ⟨h'.1.trans h.1, h'.2.1.trans h.2.1, h'.2.2.trans h.2.2⟩

theorem Installed.after_same {c c₁ c' : DnsClient} {id : RefreshId} {trace : List Effect}
    {nowMs : UInt64} (h : Installed c₁ c' id trace nowMs) (hsame : SameServers c c₁) :
    Installed c c' id trace nowMs where
  lookedUp := h.lookedUp
  found := h.found
  nothing := fun hnone => hsame.trans (h.nothing hnone)
  whole := by
    obtain ⟨answers, hwhole⟩ := h.whole
    refine ⟨answers, ?_⟩
    obtain ⟨hservers, hlast, httl⟩ := hsame
    rw [hwhole]
    unfold RlClient.rDnsRefreshFinish
    split
    · rfl
    · rw [RMembership.mk.injEq]
      exact ⟨hservers, hlast, httl, rfl⟩

/-- **The end of an attached refresh** installs what was found. -/
theorem Found.install {s : State} {r : RDnsRefresh} {trace : List Effect}
    (h : Found s .settling r trace) (hinv : Inv s .settling r) (hpending : r.pending = 0)
    (hscheduling : r.scheduling = 0) (c : DnsClient) (nowMs : UInt64) :
    Installed c (installEndpoints c r nowMs) r.id (trace ++ [.freed r]) nowMs := by
  have hsilent := silent_freed r.id r
  obtain ⟨hstack, houtstanding⟩ := hinv.quiet hpending hscheduling
  obtain ⟨hlookups, hleast⟩ :=
    h.looped (by simp [State.srvCount, Control.loops, hstack, houtstanding])
  have hlength := h.endpoints.length_eq
  constructor
  case lookedUp =>
    rw [hsilent.addrLookups_eq, hsilent.srvRecords_eq]
    exact hlookups
  case found =>
    rw [hsilent.endpointsOf_eq, hsilent.srvRecords_eq]
    intro hsome
    have hpos : r.endpoints.length > 0 := hlength ▸ List.length_pos_iff.mpr hsome
    simp only [installEndpoints, if_pos hpos]
    refine ⟨h.endpoints, trivial, ?_⟩
    rw [hleast]
    exact leastTtl_foldl _
  case nothing =>
    rw [hsilent.endpointsOf_eq]
    intro hnone
    have hzero : ¬ r.endpoints.length > 0 := by simp [hlength, hnone]
    simp only [installEndpoints, if_neg hzero]
    exact ⟨rfl, rfl, rfl⟩
  case whole =>
    obtain ⟨answers, hanswers⟩ := h.answers
    refine ⟨answers, ?_⟩
    rw [hsilent.srvRecords_eq]
    have hendpoints : (Discovery.mk (srvRecords r.id trace) answers).endpoints = r.endpoints :=
      hanswers.symm
    have httl : (Discovery.mk (srvRecords r.id trace) answers).minTtlMs = r.minTtlMs := hleast.symm
    unfold RlClient.rDnsRefreshFinish
    rw [hendpoints, httl]
    unfold installEndpoints
    split
    · rfl
    · rfl

/-- A refresh that is given up before its SRV lookup has found nothing. -/
theorem installed_spare {s : State} {trace : List Effect} (hledger : Ledger s trace)
    (c : DnsClient) (nowMs : UInt64) :
    Installed c c.forgetRefresh s.nextId (trace ++ [.freed (newRefresh s.nextId)]) nowMs := by
  have hsilent := silent_freed s.nextId (newRefresh s.nextId)
  have hold : Silent s.nextId trace :=
    silent_of_refresh fun e he => Nat.ne_of_lt (hledger.known e he)
  have hrecords := (hsilent.srvRecords_eq trace).trans hold.records
  have hlookups := (hsilent.addrLookups_eq trace).trans hold.lookups
  have hnone : endpointsOf s.nextId (trace ++ [.freed (newRefresh s.nextId)]) = [] := by
    unfold endpointsOf
    rw [hlookups]
    rfl
  constructor
  case lookedUp =>
    rw [hlookups, hrecords]
    rfl
  case found => exact fun hsome => absurd hnone hsome
  case nothing => exact fun _ => .refl c
  case whole => exact ⟨[], rfl⟩

/-- Only the end of a refresh changes the servers. -/
theorem Micro.membership {nowMs : UInt64} {s s' : State} {control control' : Control}
    {effects trace : List Effect} (h : Ok s control) (hledger : Ledger s trace)
    (hlearned : Learned s control trace)
    (hmicro : Micro false nowMs s control effects s' control') {c c' : DnsClient}
    (hclient : s.client = some c) (hclient' : s'.client = some c') :
    ((∀ r, .freed r ∉ effects) ∧ SameServers c c') ∨
      ∃ r, effects = [.freed r] ∧ control' = .foreign ∧
        Installed c c' r.id (trace ++ effects) nowMs := by
  have hkeep : s'.client = s.client → SameServers c c' := by
    intro hsame
    obtain rfl := Option.some.inj (hclient.symm.trans (hsame.symm.trans hclient'))
    exact .refl c
  cases hmicro with
  | start hc =>
    left
    rw [enterResolver_single rfl] at hclient'
    obtain rfl := Option.some.inj (hclient.symm.trans hc)
    obtain rfl := Option.some.inj hclient'
    exact ⟨by simp, rfl, rfl, rfl⟩
  | spare hc =>
    right
    obtain rfl := Option.some.inj (hclient.symm.trans hc)
    obtain rfl := Option.some.inj hclient'
    exact ⟨_, rfl, rfl, installed_spare hledger c nowMs⟩
  | srvCall | addrCall | skip | pass | endLoop | complete | stay | cancel | cancelled =>
    exact .inl ⟨by simp, hkeep rfl⟩
  | enter _ hlive =>
    rw [enterResolver_single hlive] at hkeep
    exact .inl ⟨by simp, hkeep rfl⟩
  | leaveSrv | leaveAddrs =>
    refine .inl ⟨?_, hkeep rfl⟩
    unfold returnEffects
    split <;> simp
  | install hlive hpending hscheduling hattached hset hc =>
    right
    obtain rfl := Option.some.inj (hclient.symm.trans hc)
    obtain rfl := Option.some.inj hclient'
    exact ⟨_, rfl, rfl, (hlearned _ hlive hattached).install (ok_live h hlive) hpending hscheduling
      c nowMs⟩
  | drop hlive hpending hscheduling hdetached =>
    -- a detached refresh with both counters at zero has outlived its client
    exfalso
    obtain ⟨hstack, -⟩ := (ok_live h hlive).quiet hpending hscheduling
    cases (ok_live h hlive).phase with
    | attached _ _ _ _ _ hdet => exact absurd (hdetached.symm.trans hdet) (by simp)
    | detaching _ _ _ _ _ _ hcontrol => exact absurd hcontrol (by simp)
    | cancelling _ _ _ _ _ _ _ _ _ _ hcancel => exact absurd (hstack.symm.trans hcancel) (by simp)
    | gone hnone => exact absurd (hnone.symm.trans hclient) (by simp)
  | detach hlive hc =>
    left
    obtain rfl := Option.some.inj (hclient.symm.trans hc)
    obtain rfl := Option.some.inj hclient'
    exact ⟨by simp, rfl, rfl, rfl⟩
  | release | destroy => exact absurd hclient' (by simp)

theorem Chain.learned {nowMs : UInt64} {s s' : State} {control control' : Control}
    {effects trace : List Effect} (hchain : Chain false nowMs s control effects s' control')
    (h : Ok s control) (hledger : Ledger s trace) (hlearned : Learned s control trace) :
    Learned s' control' (trace ++ effects) := by
  induction hchain generalizing trace with
  | nil => rwa [List.append_nil]
  | cons hmicro _ _ ih =>
    obtain ⟨hentry, hnext⟩ := hmicro.entry h
    rw [← List.append_assoc]
    exact ih (hmicro.ok h) (hledger.entry hentry hnext h.bound) (hmicro.learned h hledger hlearned)

/-- **A step changes the servers only where it ends a refresh.** -/
theorem Chain.membership {nowMs : UInt64} {s s' : State} {control control' : Control}
    {effects trace : List Effect} (hchain : Chain false nowMs s control effects s' control')
    (h : Ok s control) (hledger : Ledger s trace) (hlearned : Learned s control trace)
    {c c' : DnsClient} (hclient : s.client = some c) (hclient' : s'.client = some c') :
    ((∀ r, .freed r ∉ effects) ∧ SameServers c c') ∨
      ∃ r, .freed r ∈ effects ∧ (∀ r', .freed r' ∈ effects → r' = r) ∧
        Installed c c' r.id (trace ++ effects) nowMs := by
  induction hchain generalizing trace c with
  | nil =>
    obtain rfl := Option.some.inj (hclient.symm.trans hclient')
    exact .inl ⟨by simp, .refl c⟩
  | @cons s s₁ s' control control₁ control' first rest hmicro hrest hinner ih =>
    -- the client is still there after the first piece
    obtain ⟨c₁, hclient₁⟩ : ∃ c₁, s₁.client = some c₁ := by
      cases hc₁ : s₁.client with
      | none => exact absurd ((hrest.destroyed hc₁).symm.trans hclient') (by simp)
      | some c₁ => exact ⟨c₁, rfl⟩
    obtain ⟨hentry, hnext⟩ := hmicro.entry h
    rcases hmicro.membership h hledger hlearned hclient hclient₁ with
      ⟨hnone, hsame⟩ | ⟨r, rfl, hforeign, hinstalled⟩
    · rcases ih (hmicro.ok h) (hledger.entry hentry hnext h.bound)
        (hmicro.learned h hledger hlearned) hclient₁ hclient' with
        ⟨hnone', hsame'⟩ | ⟨r, hfreed, honly, hinstalled⟩
      · refine .inl ⟨?_, hsame.trans hsame'⟩
        intro r hr
        rcases List.mem_append.mp hr with hr | hr
        · exact hnone r hr
        · exact hnone' r hr
      · refine .inr ⟨r, List.mem_append_right _ hfreed, ?_, ?_⟩
        · intro r' hr'
          rcases List.mem_append.mp hr' with hr' | hr'
          · exact absurd hr' (hnone r')
          · exact honly r' hr'
        · rw [← List.append_assoc]
          exact hinstalled.after_same hsame
    · obtain ⟨rfl, rfl⟩ := hinner hforeign
      obtain rfl := Option.some.inj (hclient₁.symm.trans hclient')
      rw [List.append_nil]
      refine .inr ⟨r, List.mem_cons_self, ?_, hinstalled⟩
      intro r' hr'
      exact Effect.freed.inj (List.mem_singleton.mp hr')

/-! ### Addresses and snapshots -/

/-- The port of a socket address stands behind its family, in network order. -/
def addrPort (addr : RAddr) : UInt16 :=
  (addr.sa.getD 2 0).toUInt16 <<< 8 ||| (addr.sa.getD 3 0).toUInt16

theorem portBytes_eq (port : UInt16) :
    (port >>> 8).toUInt8.toUInt16 <<< 8 ||| port.toUInt8.toUInt16 = port := by
  rw [← UInt16.toNat_inj]
  have hlt := port.toNat_lt
  have hor := @Nat.two_pow_add_eq_or_of_lt 8 (port.toNat % 2 ^ 8) (Nat.mod_lt _ (by decide))
    (port.toNat / 2 ^ 8)
  simp only [UInt16.toNat_or, UInt16.toNat_shiftLeft, UInt8.toNat_toUInt16, UInt16.toNat_toUInt8,
    UInt16.toNat_shiftRight, Nat.shiftLeft_eq, Nat.shiftRight_eq_div_pow]
  have height : UInt16.toNat 8 % 16 = 8 := by decide
  have hhigh : port.toNat / 2 ^ 8 % 2 ^ 8 * 2 ^ 8 % 2 ^ 16 = 2 ^ 8 * (port.toNat / 2 ^ 8) := by
    omega
  rw [height, hhigh, ← hor]
  omega

/-- An IPv4 or IPv6 address gets the port and keeps everything else. -/
theorem rAddrSetPort_port {addr : RAddr}
    (hfamily : leWordAt 2 addr.sa 0 = AF_INET ∨ leWordAt 2 addr.sa 0 = AF_INET6)
    (hlength : 4 ≤ addr.sa.length) (port : UInt16) :
    addrPort (rAddrSetPort addr port) = port ∧
      ∀ i, i ≠ 2 → i ≠ 3 → (rAddrSetPort addr port).sa.getD i 0 = addr.sa.getD i 0 := by
  have hsa : (rAddrSetPort addr port).sa =
      addr.sa.take 2 ++ [(port >>> 8).toUInt8, port.toUInt8] ++ addr.sa.drop 4 := by
    unfold rAddrSetPort
    rcases hfamily with hinet | hinet6
    · rw [if_pos hinet]
    · rw [if_neg (by rw [hinet6]; decide), if_pos hinet6]
  obtain ⟨b₀, b₁, b₂, b₃, rest, hbytes⟩ :
      ∃ b₀ b₁ b₂ b₃ rest, addr.sa = b₀ :: b₁ :: b₂ :: b₃ :: rest := by
    match addr.sa, hlength with
    | b₀ :: b₁ :: b₂ :: b₃ :: rest, _ => exact ⟨b₀, b₁, b₂, b₃, rest, rfl⟩
  rw [hsa, hbytes]
  constructor
  · unfold addrPort
    rw [hsa, hbytes]
    exact portBytes_eq port
  · intro i h₂ h₃
    match i, h₂, h₃ with
    | 0, _, _ => rfl
    | 1, _, _ => rfl
    | i + 4, _, _ => rfl

/-- A snapshot of identified servers names at least one id, and a response from a
    server that is not in it is dropped. -/
theorem snapshot_filters {servers : List RServerEndpoint}
    (hidentified : ∀ server ∈ servers, server.hasServerId = true) {alloc : SnapshotAlloc}
    {targets : List RServerEndpoint} {ids : List UInt64}
    (hsnapshot : rRequestSnapshotTargets servers alloc = .ok (targets, ids)) :
    ids ≠ [] ∧ ∀ (gcm : Gcm) (client : RClient) (req : RClientReq) (buf : Bytes) (sender : RAddr)
      (io : DatagramIo) (tenant : RTenantHeader) (pos : Nat), req.allowedIds = ids →
      rParseTenantHeader buf = .ok (tenant, pos) →
      client.inflight.find? (fun req => req.requestId == tenant.uniqueId) = some req →
      tenant.keyId ∉ targets.map (·.serverId) →
      rClientOnDatagram gcm client buf sender io = .done .ok client [] := by
  obtain ⟨hne, heq⟩ := rRequestSnapshotTargets_ok hidentified hsnapshot
  obtain ⟨rfl, rfl⟩ := Prod.mk.inj heq
  have hids : snapshotIds targets ≠ [] := by
    obtain ⟨server, hserver⟩ := List.exists_mem_of_ne_nil _ hne
    intro hempty
    have hmem : server.serverId ∈ snapshotIds targets :=
      mem_snapshotIds.mpr (List.mem_map_of_mem hserver)
    exact absurd (hempty ▸ hmem) List.not_mem_nil
  refine ⟨hids, ?_⟩
  intro gcm client req buf sender io tenant pos hallowed hparsed hfind hunknown
  have hrefused : rAllowedServerId req tenant.keyId = false := by
    unfold rAllowedServerId
    rw [hallowed, if_neg (by simpa using hids)]
    rw [List.any_eq_false]
    intro id hid heq
    rw [beq_iff_eq] at heq
    exact hunknown (heq ▸ mem_snapshotIds.mp hid)
  have hgate : onDatagramGate gcm client buf io = .error .ok := by
    unfold onDatagramGate
    split
    · rename_i hempty
      rw [List.length_eq_zero_iff.mp hempty] at hparsed
      exact absurd hparsed (by simp [rParseTenantHeader])
    · simp only [hparsed, hfind, hrefused]
      split
      · rfl
      · rfl
  unfold rClientOnDatagram
  rw [hgate]

/-! ### Runs -/

theorem learned_init (dnsName : Bytes) (hasCancel : Bool) :
    Learned (.init dnsName hasCancel) .foreign [] :=
  fun _ hlive => absurd hlive (by simp [State.init])

/-- What holds of every state that a run reaches. -/
structure Reached (s : State) (trace : List Effect) : Prop where
  ledger : Ledger s trace
  learned : Learned s .foreign trace
  identified : ∀ c, s.client = some c → c.membership.Identified

theorem reached_init (dnsName : Bytes) (hasCancel : Bool) :
    Reached (.init dnsName hasCancel) [] where
  ledger := ledger_init dnsName hasCancel
  learned := learned_init dnsName hasCancel
  identified := by
    intro c hc
    obtain rfl := Option.some.inj hc
    exact fun server hserver => absurd hserver List.not_mem_nil

theorem Reached.chain {s s' : State} {nowMs : UInt64} {trace effects : List Effect}
    (h : Ok s .foreign) (hreached : Reached s trace)
    (hchain : Chain false nowMs s .foreign effects s' .foreign) :
    Reached s' (trace ++ effects) where
  ledger := hchain.ledger h hreached.ledger
  learned := hchain.learned h hreached.ledger hreached.learned
  identified := by
    intro c' hclient'
    cases hclient : s.client with
    | none => exact absurd ((hchain.destroyed hclient).symm.trans hclient') (by simp)
    | some c =>
      have hold := hreached.identified c hclient
      rcases hchain.membership h hreached.ledger hreached.learned hclient hclient' with
        ⟨-, hsame⟩ | ⟨r, -, -, hinstalled⟩
      · unfold RMembership.Identified
        rw [hsame.1]
        exact hold
      · obtain ⟨answers, hwhole⟩ := hinstalled.whole
        rw [hwhole]
        exact rDnsRefreshFinish_identified hold _ nowMs

/-- **What refreshes install.** Within the contract and with memory for the lookups
    and endpoints, a step that ends no refresh leaves the servers alone. One that
    ends a refresh installs, for every conforming record of the SRV answer, one
    endpoint per address of its lookup, with the least TTL, or leaves everything as
    it was if there is none; this is the end of a refresh as the client's model has
    it. An endpoint carries the port of its record. Snapshots of such a membership
    name at least one server, and a response from any other is dropped. -/
theorem refresh_membership (dnsName : Bytes) (hasCancel : Bool) (inputs : List Input)
    (input : Input) (hcontract : Contract dnsName hasCancel (inputs ++ [input]))
    (hallocs : ∀ given ∈ inputs ++ [input], ∀ i, given.allocs i = true) :
    ∃ s trace s' effects, run dnsName hasCancel inputs = some (s, trace) ∧
      step s input = some (s', effects) ∧
      ∀ c c', s.client = some c → s'.client = some c' →
        ((∀ r, .freed r ∉ effects) → SameServers c c') ∧
        (∀ r, .freed r ∈ effects → Installed c c' r.id (trace ++ effects) input.nowMs) ∧
        (∀ record addr,
          leWordAt 2 addr.sa 0 = AF_INET ∨ leWordAt 2 addr.sa 0 = AF_INET6 → 4 ≤ addr.sa.length →
          addrPort (endpointOf record addr).addr = record.port ∧
            ∀ i, i ≠ 2 → i ≠ 3 → (endpointOf record addr).addr.sa.getD i 0 = addr.sa.getD i 0) ∧
        ∀ alloc targets ids,
          rRequestSnapshotTargets c'.membership.servers alloc = .ok (targets, ids) →
          ids ≠ [] ∧ ∀ (gcm : Gcm) (client : RClient) (req : RClientReq) (buf : Bytes)
            (sender : RAddr) (io : DatagramIo) (tenant : RTenantHeader) (pos : Nat),
            req.allowedIds = ids → rParseTenantHeader buf = .ok (tenant, pos) →
            client.inflight.find? (fun req => req.requestId == tenant.uniqueId) = some req →
            tenant.keyId ∉ targets.map (·.serverId) →
            rClientOnDatagram gcm client buf sender io = .done .ok client [] := by
  have hinit := ok_init dnsName hasCancel
  obtain ⟨s, trace, hrun, hok, hreached⟩ :=
    @exec_rule false Reached (fun hok hreached hchain => hreached.chain hok hchain) _ hinit []
      (reached_init dnsName hasCancel) inputs
      (fun _ given hgiven => hallocs given (List.mem_append_left _ hgiven)) hcontract.left
  rw [List.nil_append] at hreached
  obtain ⟨s', effects, hstep, hchain⟩ := @step_chain false s hok input
    (fun _ => hallocs input (List.mem_append_right _ List.mem_cons_self))
    (hcontract inputs input [] s trace rfl hrun)
  refine ⟨s, trace, s', effects, hrun, hstep, ?_⟩
  intro c c' hclient hclient'
  have hmembership := hchain.membership hok hreached.ledger hreached.learned hclient hclient'
  refine ⟨?_, ?_, fun record addr hfamily hlength => rAddrSetPort_port hfamily hlength record.port,
    fun alloc targets ids => snapshot_filters ((hreached.chain hok hchain).identified c' hclient')⟩
  · intro hnone
    rcases hmembership with ⟨-, hsame⟩ | ⟨r, hfreed, -⟩
    · exact hsame
    · exact absurd hfreed (hnone r)
  · intro r hr
    rcases hmembership with ⟨hnone, -⟩ | ⟨r', -, honly, hinstalled⟩
    · exact absurd hr (hnone r)
    · obtain rfl := honly r hr
      exact hinstalled

def sampleAddr (host : UInt8) : RAddr :=
  { sa := [2, 0, 0, 0, 10, 0, 0, host, 0, 0, 0, 0, 0, 0, 0, 0], len := 0 }

/-- Servers 7 and 8 with a record between them that names no id. The first lookup
    is answered inside `resolve_addrs`, the second one later, which ends the refresh. -/
def sampleAnswers : List Input :=
  [.attempt true true, .resolverReturn 0 9,
   .srvCallback 1 0
     [sampleRecord, { target := [120], port := 1, ttlMs := 1 },
      { target := [115, 45, 56, 46, 120], port := 258, ttlMs := 30000 }],
   .addrCallback 2 0 [sampleAddr 1, sampleAddr 2], .resolverReturn 0 0,
   .resolverReturn 0 8].map sampleInput

def sampleReading (outcome : State × List Effect) :
    Option (List (UInt64 × UInt16) × UInt64 × List RefreshId) :=
  outcome.1.client.map fun c =>
    (c.membership.servers.map fun server => (server.serverId, addrPort server.addr),
     c.membership.dnsRefreshTtlMs,
     outcome.2.filterMap fun | .freed r => some r.id | _ => none)

theorem refresh_membership_sample :
    ∃ s trace s' effects c c' r,
      Contract [120] true (sampleAnswers ++ [sampleInput (.addrCallback 3 0 [sampleAddr 3])]) ∧
      run [120] true sampleAnswers = some (s, trace) ∧
      step s (sampleInput (.addrCallback 3 0 [sampleAddr 3])) = some (s', effects) ∧
      s.client = some c ∧ s'.client = some c' ∧ .freed r ∈ effects ∧
      Installed c c' r.id (trace ++ effects) 5 ∧
      c'.membership.servers.map (fun server => (server.serverId, addrPort server.addr)) =
        [(7, 39), (7, 39), (8, 258)] ∧ c'.membership.dnsRefreshTtlMs = 30000 := by
  have hcontract :
      Contract [120] true (sampleAnswers ++ [sampleInput (.addrCallback 3 0 [sampleAddr 3])]) := by
    decide +kernel
  obtain ⟨s, trace, s', effects, hrun, hstep, hend⟩ := refresh_membership [120] true sampleAnswers
    (sampleInput (.addrCallback 3 0 [sampleAddr 3])) hcontract (by
      intro given hgiven i
      simp only [sampleAnswers, List.mem_append, List.mem_map, List.mem_singleton] at hgiven
      rcases hgiven with ⟨event, -, rfl⟩ | rfl
      · rfl
      · rfl)
  have hbefore : (run [120] true sampleAnswers).map (·.1.client.isSome) = some true := by
    decide +kernel
  have hafter : (run [120] true sampleAnswers).bind (fun outcome =>
      (step outcome.1 (sampleInput (.addrCallback 3 0 [sampleAddr 3]))).bind sampleReading) =
      some ([(7, 39), (7, 39), (8, 258)], 30000, [0]) := by decide +kernel
  simp only [hrun, hstep, Option.map_some, Option.some.injEq, Option.bind_some, sampleReading]
    at hbefore hafter
  obtain ⟨c, hclient⟩ := Option.isSome_iff_exists.mp hbefore
  obtain ⟨c', hc', hmembership⟩ := Option.map_eq_some_iff.mp hafter
  obtain ⟨hservers, hrest⟩ := Prod.mk.inj hmembership
  obtain ⟨httl, hfreed⟩ := Prod.mk.inj hrest
  obtain ⟨e, he, hid⟩ := List.mem_filterMap.mp (hfreed ▸ List.mem_cons_self)
  cases e with
  | freed r =>
    exact ⟨s, trace, s', effects, c, c', r, hcontract, hrun, hstep, hclient, hc', he,
      (hend c c' hclient hc').2.1 r he, hservers, httl⟩
  | _ => exact absurd hid (by simp)

end RlClient.Refresh
