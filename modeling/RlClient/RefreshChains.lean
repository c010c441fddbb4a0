import RlClient.Bookkeeping

/-!
# Steps of a refresh as chains of pieces

Every step that the resolver and the host may make goes through, without touching
freed memory, and is a chain of the pieces of `Microsteps`.
-/

namespace RlClient.Refresh

/-! ### Chains -/

/-- The pieces of one step, one after the other: when the control has gone back to
    the resolver or the host, the step is over. -/
inductive Chain (failed : Bool) (nowMs : UInt64) :
    State → Control → List Effect → State → Control → Prop
  | nil (s : State) (control : Control) : Chain failed nowMs s control [] s control
  | cons {s s₁ s' : State} {control control₁ control' : Control} {effects rest : List Effect}
      (hmicro : Micro failed nowMs s control effects s₁ control₁)
      (hrest : Chain failed nowMs s₁ control₁ rest s' control')
      (hinner : control₁ = .foreign → rest = [] ∧ s' = s₁) :
      Chain failed nowMs s control (effects ++ rest) s' control'

theorem Chain.ok {failed : Bool} {nowMs : UInt64} {s s' : State} {control control' : Control}
    {effects : List Effect} (hchain : Chain failed nowMs s control effects s' control')
    (h : Ok s control) : Ok s' control' := by
  induction hchain with
  | nil => exact h
  | cons hmicro _ _ ih => exact ih (hmicro.ok h)

theorem Micro.chain {failed : Bool} {nowMs : UInt64} {s s' : State} {control control' : Control}
    {effects : List Effect} (hmicro : Micro failed nowMs s control effects s' control') :
    Chain failed nowMs s control effects s' control' := by
  have h := Chain.cons hmicro (.nil s' control') (fun _ => ⟨rfl, rfl⟩)
  rwa [List.append_nil] at h

theorem andThen_some {s s' : State} {effects effects' : List Effect} {rest : State → Outcome}
    (h : rest s = some (s', effects')) :
    Outcome.andThen (some (s, effects)) rest = some (s', effects ++ effects') := by
  simp [Outcome.andThen, h]

/-- `r_dns_refresh_maybe_complete` does nothing, frees a refresh that the client has
    left behind, or installs what an attached one has found. -/
theorem maybeComplete_cases {s : State} {r : RDnsRefresh} (hlive : s.refreshes = [r])
    (h : Inv s .settling r) (nowMs : UInt64) :
    ((r.pending ≠ 0 ∨ r.scheduling ≠ 0) ∧
      rDnsRefreshMaybeComplete s r.id nowMs = some (s, [])) ∨
    (r.pending = 0 ∧ r.scheduling = 0 ∧ r.detached = true ∧
      rDnsRefreshMaybeComplete s r.id nowMs = some ({ s with refreshes := [] }, [.freed r])) ∨
    ∃ c, r.pending = 0 ∧ r.scheduling = 0 ∧ r.detached = false ∧ r.client = true ∧
      s.client = some c ∧ c.dnsRefresh = some r.id ∧
      rDnsRefreshMaybeComplete s r.id nowMs =
        some ({ s with refreshes := [], client := some (installEndpoints c r nowMs) },
          [.freed r]) := by
  unfold rDnsRefreshMaybeComplete
  rw [refresh?_single hlive]
  simp only
  by_cases hcounts : r.pending ≠ 0 ∨ r.scheduling ≠ 0
  · rw [if_pos (by simpa using hcounts)]
    exact .inl ⟨hcounts, rfl⟩
  · rw [not_or, not_not, not_not] at hcounts
    rw [if_neg (by simp [hcounts])]
    right
    cases hdetached : r.detached with
    | true =>
      left
      rw [if_pos (by simp), free_single hlive]
      exact ⟨hcounts.1, hcounts.2, rfl, rfl⟩
    | false =>
      right
      cases h.phase with
      | attached c hc hrefresh _ hset =>
        rw [if_neg (by simp [hset])]
        unfold rDnsRefreshFinish
        rw [if_neg (by simp [hset, hdetached]), hc]
        simp only
        rw [free_single (s := { s with client := some (installEndpoints c r nowMs) }) hlive]
        exact ⟨c, hcounts.1, hcounts.2, trivial, hset, rfl, hrefresh, rfl⟩
      | detaching _ _ _ _ _ hdet => exact absurd (hdetached.symm.trans hdet) (by simp)
      | cancelling _ _ _ _ _ hdet => exact absurd (hdetached.symm.trans hdet) (by simp)
      | gone _ _ hdet => exact absurd (hdetached.symm.trans hdet) (by simp)

theorem maybeComplete_chain {failed : Bool} {s : State} {r : RDnsRefresh}
    (hlive : s.refreshes = [r]) (h : Inv s .settling r) (nowMs : UInt64) :
    ∃ s' effects, rDnsRefreshMaybeComplete s r.id nowMs = some (s', effects) ∧
      Chain failed nowMs s .settling effects s' .foreign := by
  rcases maybeComplete_cases hlive h nowMs with
    ⟨hcounts, hcode⟩ | ⟨hpending, hscheduling, hdetached, hcode⟩ |
    ⟨c, hpending, hscheduling, hattached, hset, hclient, -, hcode⟩
  · exact ⟨_, _, hcode, (Micro.stay hlive hcounts).chain⟩
  · exact ⟨_, _, hcode, (Micro.drop hlive hpending hscheduling hdetached).chain⟩
  · exact ⟨_, _, hcode,
      (Micro.install hlive hpending hscheduling hattached hset hclient).chain⟩

theorem Inv.body_lookup {s : State} {control : Control} {r : RDnsRefresh} (h : Inv s control r)
    {lookup : LookupId} (hbody : lookup ∈ control.body) : ∃ l ∈ r.lookups, l.id = lookup := by
  obtain ⟨l, hl, hid, -⟩ := (h.opened lookup).mp (List.mem_append_left _ hbody)
  exact ⟨l, hl, hid⟩

theorem lookupFinish_chain {failed : Bool} {s : State} {r : RDnsRefresh} {lookup : LookupId}
    (hlive : s.refreshes = [r]) (h : Inv s (.finishing lookup) r) (nowMs : UInt64) :
    ∃ s' effects, rDnsLookupFinish s lookup nowMs = some (s', effects) ∧
      Chain failed nowMs s (.finishing lookup) effects s' .foreign := by
  obtain ⟨l, hl, rfl⟩ := h.body_lookup (List.mem_singleton.mpr rfl)
  obtain ⟨hid, -⟩ := completeLookup_fields r l
  have hcode : rDnsLookupFinish s l.id nowMs =
      Outcome.andThen (some ({ s with refreshes := [completeLookup r l] }, [.completed r.id l.id]))
        fun s' => rDnsRefreshMaybeComplete s' r.id nowMs := by
    unfold rDnsLookupFinish
    rw [owner?_single hlive hl]
    simp only [lookup?_of_mem h.nodup hl]
    rw [← put_single hlive hid]
    rfl
  obtain ⟨s', effects, hsettle, hchain⟩ :=
    @maybeComplete_chain failed { s with refreshes := [completeLookup r l] } _ rfl
      (h.complete hl) nowMs
  rw [hid] at hsettle
  rw [hcode, andThen_some hsettle]
  exact ⟨s', _, rfl, .cons (.complete hlive hl) hchain (by simp)⟩

theorem srvLoop_chain {failed : Bool} {allocs : Nat → Bool}
    (hallocs : failed = false → ∀ i, allocs i = true) (nowMs : UInt64) {s : State}
    {r : RDnsRefresh} {srv : LookupId} (hlive : s.refreshes = [r]) (records : List RSrvRecord)
    (minTtlMs : UInt64) (i : Nat) (h : Inv s (.srvLoop srv records minTtlMs) r) :
    ∃ s' effects, srvLoop s r.id srv allocs nowMs records minTtlMs i = some (s', effects) ∧
      Chain failed nowMs s (.srvLoop srv records minTtlMs) effects s' .foreign := by
  induction records generalizing minTtlMs i with
  | nil =>
    have hmicro : Micro failed nowMs s (.srvLoop srv [] minTtlMs) []
        { s with refreshes := [{ r with minTtlMs := minTtlMs }] } (.finishing srv) := .endLoop hlive
    have hinv := ok_live (hmicro.ok (.live hlive h)) rfl
    obtain ⟨s', effects, hcode, hchain⟩ := lookupFinish_chain rfl hinv nowMs
    refine ⟨s', effects, ?_, .cons hmicro hchain (by simp)⟩
    unfold srvLoop
    simp only [refresh?_single hlive]
    rw [put_single hlive]
    · exact hcode
    · rfl
  | cons record rest ih =>
    unfold srvLoop
    cases hname : rParseServerIdFromTarget record.target with
    | none =>
      have hmicro : Micro failed nowMs s (.srvLoop srv (record :: rest) minTtlMs) [] s
          (.srvLoop srv rest minTtlMs) := .skip hname
      obtain ⟨s', effects, hcode, hchain⟩ :=
        ih minTtlMs i (ok_live (hmicro.ok (.live hlive h)) hlive)
      exact ⟨s', effects, hcode, .cons hmicro hchain (by simp)⟩
    | some serverId =>
      simp only [refresh?_single hlive]
      have hpass : r.detached = true ∨ failed = true → ∀ j, ∃ s' effects,
          srvLoop s r.id srv allocs nowMs rest (foldMinTtlMs minTtlMs record) j =
            some (s', effects) ∧
          Chain failed nowMs s (.srvLoop srv (record :: rest) minTtlMs) effects s' .foreign := by
        intro hreason j
        have hmicro : Micro failed nowMs s (.srvLoop srv (record :: rest) minTtlMs) [] s
            (.srvLoop srv rest (foldMinTtlMs minTtlMs record)) := .pass hlive hreason
        obtain ⟨s', effects, hcode, hchain⟩ :=
          ih (foldMinTtlMs minTtlMs record) j (ok_live (hmicro.ok (.live hlive h)) hlive)
        exact ⟨s', effects, hcode, .cons hmicro hchain (by simp)⟩
      cases hdetached : r.detached with
      | true =>
        rw [if_pos rfl]
        exact hpass (.inl hdetached) i
      | false =>
        rw [if_neg (by simp)]
        cases halloc : allocs i with
        | false =>
          rw [if_pos (by simp)]
          refine hpass (.inr ?_) (i + 1)
          by_contra hfailed
          have htrue := hallocs (by simpa using hfailed) i
          exact absurd (halloc.symm.trans htrue) (by simp)
        | true =>
          rw [if_neg (by simp)]
          exact ⟨_, _, rfl, (Micro.enter hname hlive hdetached).chain⟩

/-! ### Callbacks -/

theorem Ok.owed {s : State} (h : Ok s .foreign) {query : Query} (hquery : query ∈ s.outstanding) :
    ∃ r, s.refreshes = [r] ∧ ∃ l ∈ r.lookups, l.id = query.lookup := by
  cases h with
  | none _ _ houtstanding => exact absurd hquery (by simp [houtstanding])
  | @live _ r hlive hinv =>
    have hmem : query.lookup ∈ s.unfinished .foreign :=
      List.mem_append_right _ (List.mem_append_right _ (List.mem_map_of_mem hquery))
    obtain ⟨l, hl, hid, -⟩ := (hinv.opened _).mp hmem
    exact ⟨r, hlive, l, hl, hid⟩

theorem srvCb_chain {failed : Bool} {allocs : Nat → Bool}
    (hallocs : failed = false → ∀ i, allocs i = true) (nowMs : UInt64) {s : State}
    (h : Ok s .foreign) {lookup : LookupId} (hquery : .srv lookup ∈ s.outstanding)
    (hmay : s.mayCall lookup) (status : Int) (records : List RSrvRecord) :
    ∃ s' effects, rDnsSrvCbFn (s.called (.srv lookup)) lookup status records allocs nowMs =
        some (s', effects) ∧ Chain failed nowMs s .foreign effects s' .foreign := by
  obtain ⟨r, hlive, l, hl, hid⟩ := h.owed hquery
  have hmicro : Micro failed nowMs s .foreign [.srvAnswer r.id lookup status records]
      (s.called (.srv lookup)) (srvControl r lookup status records) :=
    .srvCall status records hlive hquery hmay
  have hinv : Inv (s.called (.srv lookup)) (srvControl r lookup status records) r :=
    (ok_live h hlive).srvCall hquery hmay status records
  have howner : (s.called (.srv lookup)).owner? lookup = some r := by
    have hlookup : l.id = lookup := hid
    rw [← hlookup]
    exact owner?_single (s := s.called (.srv l.id)) hlive hl
  -- the callback finishes its lookup at once, or goes into the loop
  have hbody : ∃ s' effects,
      (if r.detached || !r.client then rDnsLookupFinish (s.called (.srv lookup)) lookup nowMs
        else if status = 0 && records.length > 0 then
          srvLoop (s.called (.srv lookup)) r.id lookup allocs nowMs records 0 0
        else rDnsLookupFinish (s.called (.srv lookup)) lookup nowMs) = some (s', effects) ∧
      Chain failed nowMs (s.called (.srv lookup)) (srvControl r lookup status records) effects s'
        .foreign := by
    unfold srvControl at hinv ⊢
    by_cases hdetached : (r.detached || !r.client) = true
    · rw [if_pos hdetached] at hinv
      rw [if_pos hdetached, if_pos hdetached]
      exact lookupFinish_chain (s := s.called (.srv lookup)) hlive hinv nowMs
    · rw [if_neg hdetached] at hinv
      rw [if_neg hdetached, if_neg hdetached]
      by_cases hanswer : (status = 0 && records.length > 0) = true
      · rw [if_pos hanswer] at hinv
        rw [if_pos hanswer, if_pos hanswer]
        exact srvLoop_chain hallocs nowMs (s := s.called (.srv lookup)) hlive records 0 0 hinv
      · rw [if_neg hanswer] at hinv
        rw [if_neg hanswer, if_neg hanswer]
        exact lookupFinish_chain (s := s.called (.srv lookup)) hlive hinv nowMs
  obtain ⟨s', effects, hcode, hchain⟩ := hbody
  have hinside := (srvControl_detaches r lookup status records).2.1
  refine ⟨s', _, ?_, .cons hmicro hchain (fun h => absurd h hinside)⟩
  unfold rDnsSrvCbFn
  simp only [howner]
  exact andThen_some hcode

theorem addrCb_chain {failed : Bool} {allocs : Nat → Bool}
    (hallocs : failed = false → ∀ i, allocs i = true) (nowMs : UInt64) {s : State}
    (h : Ok s .foreign) {lookup : LookupId} (hquery : .addrs lookup ∈ s.outstanding)
    (hmay : s.mayCall lookup) (status : Int) (addrs : List RAddr) :
    ∃ s' effects, rDnsAddrCbFn (s.called (.addrs lookup)) lookup status addrs allocs nowMs =
        some (s', effects) ∧ Chain failed nowMs s .foreign effects s' .foreign := by
  obtain ⟨r, hlive, l, hl, hid⟩ := h.owed hquery
  obtain rfl : l.id = lookup := hid
  have hmicro : Micro failed nowMs s .foreign [.addrAnswer r.id l.id status addrs]
      { s.called (.addrs l.id) with refreshes := [answered r l status addrs allocs] }
      (.finishing l.id) := .addrCall status addrs allocs hallocs hlive hquery hmay hl
  have hinv := (ok_live h hlive).addrCall hquery hmay status addrs allocs
  obtain ⟨s', effects, hcode, hchain⟩ := @lookupFinish_chain failed
    { s.called (.addrs l.id) with refreshes := [answered r l status addrs allocs] }
    (answered r l status addrs allocs) l.id rfl hinv nowMs
  refine ⟨s', _, ?_, .cons hmicro hchain (by simp)⟩
  unfold rDnsAddrCbFn
  simp only [owner?_single (s := s.called (.addrs l.id)) hlive hl,
    lookup?_of_mem (ok_live h hlive).nodup hl]
  rw [put_single (s := s.called (.addrs l.id)) hlive]
  · exact andThen_some hcode
  · exact (answered_same r l status addrs allocs).id

/-! ### Returns of the resolver -/

theorem Inv.call_lookup {s : State} {control : Control} {r : RDnsRefresh} (h : Inv s control r)
    {lookup : LookupId} (hcall : lookup ∈ calls s.stack) : ∃ l ∈ r.lookups, l.id = lookup := by
  obtain ⟨l, hl, hid, -⟩ := (h.called lookup).mp hcall
  exact ⟨l, hl, hid⟩

/-- Both scheduling functions behind the resolver call, up to
    `r_dns_refresh_maybe_complete`. -/
theorem resolverReturned_eq {s : State} {r : RDnsRefresh} {l : RDnsLookupCtx} {stack : List Frame}
    (hlive : s.refreshes = [r]) (hnodup : (r.lookups.map (·.id)).Nodup) (hl : l ∈ r.lookups)
    (rc : Int) (reqId nowMs : UInt64) :
    resolverReturned { s with stack := stack } r.id l.id rc reqId nowMs =
      Outcome.andThen
        (some ({ s with stack := stack, refreshes := [leaveResolver r l rc reqId]
                        outstanding := refuse s.outstanding l.id rc }, returnEffects r.id l rc))
        fun s' => rDnsRefreshMaybeComplete s' r.id nowMs := by
  unfold resolverReturned
  simp only [refresh?_single (s := { s with stack := stack }) hlive, lookup?_of_mem hnodup hl]
  rw [put_single (s := { s with stack := stack }) hlive (leaveResolver_fields r l rc reqId).1]

/-- The check behind `r_dns_schedule_srv_lookup` never finds anything to do: a
    refresh without lookups and calls is over by then. -/
theorem startRefreshReturned_nothing {s s' : State} {r : RDnsRefresh} {effects : List Effect}
    {c : DnsClient} (h : Inv s .settling r) (hlive : s.refreshes = [r])
    (hclient : s.client = some c) (hrefresh : c.dnsRefresh = some r.id)
    (hattached : r.detached = false) {nowMs : UInt64}
    (hsettle : rDnsRefreshMaybeComplete s r.id nowMs = some (s', effects)) (rc : Int) :
    startRefreshReturned s' r.id rc = some (s', []) := by
  unfold startRefreshReturned
  by_cases hrc : rc = 0
  · rw [if_pos hrc]
  rw [if_neg hrc]
  rcases maybeComplete_cases hlive h nowMs with
    ⟨hcounts, hcode⟩ | ⟨-, -, hdetached, -⟩ | ⟨c', -, -, -, -, hclient', hrefresh', hcode⟩
  · obtain ⟨rfl, -⟩ := Prod.mk.inj (Option.some.inj (hcode.symm.trans hsettle))
    simp only [hclient, hrefresh, ne_eq, not_true_eq_false, if_false, refresh?_single hlive]
    rw [if_neg]
    intro hzero
    simp only [Bool.and_eq_true, decide_eq_true_eq] at hzero
    rcases hcounts with hpending | hscheduling
    · exact hpending hzero.1
    · exact hscheduling hzero.2
  · exact absurd (hattached.symm.trans hdetached) (by simp)
  · obtain ⟨rfl, -⟩ := Prod.mk.inj (Option.some.inj (hcode.symm.trans hsettle))
    have hforgot : (installEndpoints c' r nowMs).dnsRefresh = none := if_pos hrefresh'
    simp [hforgot]

theorem leaveSrv_chain {failed : Bool} {s : State} (h : Ok s .foreign) {id : RefreshId}
    {lookup : LookupId} {stack : List Frame} (hstack : s.stack = .resolveSrv id lookup :: stack)
    (rc : Int) (reqId nowMs : UInt64) :
    ∃ s' effects,
      Outcome.andThen (resolverReturned { s with stack := stack } id lookup rc reqId nowMs)
        (fun s' => startRefreshReturned s' id rc) = some (s', effects) ∧
      Chain failed nowMs s .foreign effects s' .foreign := by
  cases h with
  | none _ hempty => exact absurd (hempty.symm.trans hstack) (by simp)
  | @live _ r hlive hinv =>
    obtain ⟨l, hl, rfl⟩ : ∃ l ∈ r.lookups, l.id = lookup :=
      hinv.call_lookup (by rw [hstack]; simp)
    obtain rfl : id = r.id :=
      hinv.phase.owned (.resolveSrv id l.id) (by rw [hstack]; exact List.mem_cons_self)
    have hattached : r.detached = false ∧ ∃ c, s.client = some c ∧ c.dnsRefresh = some r.id := by
      cases hinv.phase with
      | attached c hc hrefresh _ _ hdet => exact ⟨hdet, c, hc, hrefresh⟩
      | detaching _ _ _ _ _ _ hcontrol => exact absurd hcontrol (by simp)
      | cancelling _ _ _ _ _ _ _ _ _ _ hcancel =>
        exact absurd (List.cons.inj (hstack.symm.trans hcancel)).1 (by simp)
      | gone _ _ _ _ hidle => exact (hidle.no_srv hstack).elim
    obtain ⟨hdet, c, hclient, hrefresh⟩ := hattached
    obtain ⟨hid, -, hdet', -, -⟩ := leaveResolver_fields r l rc reqId
    have hleft := hinv.leaveSrv hl hstack rc reqId
    obtain ⟨s', effects, hsettle, hchain⟩ := @maybeComplete_chain failed _ _ rfl hleft nowMs
    have hnothing : startRefreshReturned s' r.id rc = some (s', []) := by
      rw [← hid]
      exact startRefreshReturned_nothing hleft rfl hclient (hid ▸ hrefresh) (hdet'.trans hdet)
        hsettle rc
    rw [hid] at hsettle
    refine ⟨s', _, ?_, .cons (.leaveSrv rc reqId hlive hl hstack) hchain (by simp)⟩
    rw [resolverReturned_eq hlive hinv.nodup hl, andThen_some hsettle, andThen_some hnothing,
      List.append_nil]

theorem leaveAddrs_chain {failed : Bool} {allocs : Nat → Bool}
    (hallocs : failed = false → ∀ i, allocs i = true) {s : State} (h : Ok s .foreign)
    {id : RefreshId} {lookup srv : LookupId} {rest : List RSrvRecord} {minTtlMs : UInt64}
    {stack : List Frame} (hstack : s.stack = .resolveAddrs id lookup srv rest minTtlMs :: stack)
    (rc : Int) (reqId nowMs : UInt64) :
    ∃ s' effects,
      Outcome.andThen (resolverReturned { s with stack := stack } id lookup rc reqId nowMs)
        (fun s' => srvLoop s' id srv allocs nowMs rest minTtlMs 0) = some (s', effects) ∧
      Chain failed nowMs s .foreign effects s' .foreign := by
  cases h with
  | none _ hempty => exact absurd (hempty.symm.trans hstack) (by simp)
  | @live _ r hlive hinv =>
    obtain ⟨l, hl, rfl⟩ : ∃ l ∈ r.lookups, l.id = lookup :=
      hinv.call_lookup (by rw [hstack]; simp)
    obtain rfl : id = r.id :=
      hinv.phase.owned (.resolveAddrs id l.id srv rest minTtlMs)
        (by rw [hstack]; exact List.mem_cons_self)
    obtain ⟨hid, -⟩ := leaveResolver_fields r l rc reqId
    have hleft := hinv.leaveAddrs hl hstack rc reqId
    -- the SRV lookup is unfinished, so the refresh goes on
    have hpending : (leaveResolver r l rc reqId).pending ≠ 0 := by
      rw [hleft.pending]
      simp [State.unfinished, Control.body]
    obtain ⟨s', effects, hcode, hchain⟩ :=
      srvLoop_chain hallocs nowMs rfl rest minTtlMs 0 hleft
    rw [hid] at hcode
    refine ⟨s', _, ?_, .cons (.leaveAddrs rc reqId hlive hl hstack) hchain (by simp)⟩
    have hsettle : rDnsRefreshMaybeComplete
        { s with stack := stack, refreshes := [leaveResolver r l rc reqId]
                 outstanding := refuse s.outstanding l.id rc } r.id nowMs =
          some ({ s with stack := stack, refreshes := [leaveResolver r l rc reqId]
                         outstanding := refuse s.outstanding l.id rc }, []) := by
      unfold rDnsRefreshMaybeComplete
      rw [← hid, refresh?_single rfl]
      simp [hpending]
    rw [resolverReturned_eq hlive hinv.nodup hl, andThen_some hsettle, andThen_some hcode,
      List.append_nil]

/-! ### Destruction -/

/-- The end of `r_dns_refresh_detach`; the refresh has already left the client, so
    freeing it and freeing the client commute. -/
theorem detachReturned_chain {failed : Bool} {s : State} {r : RDnsRefresh}
    (hlive : s.refreshes = [r]) (h : Inv s .detaching r) (nowMs : UInt64) :
    ∃ s' effects, detachReturned s r.id nowMs = some (s', effects) ∧
      Chain failed nowMs s .detaching effects s' .foreign := by
  obtain ⟨_, _, _, _, _, hdetached, _⟩ := h.detaching_client
  let left : RDnsRefresh := { r with scheduling := r.scheduling - 1, client := false }
  have hmicro : Micro failed nowMs s .detaching [] { s with refreshes := [left], client := none }
      .settling := .release hlive
  have hcode : detachReturned s r.id nowMs =
      Outcome.andThen (rDnsRefreshMaybeComplete { s with refreshes := [left] } left.id nowMs)
        fun s' => some ({ s' with client := none }, []) := by
    unfold detachReturned
    simp only [refresh?_single hlive]
    rw [put_single hlive]
    rfl
  rw [hcode]
  unfold rDnsRefreshMaybeComplete
  simp only [refresh?_single (s := { s with refreshes := [left] }) rfl]
  by_cases hcounts : left.pending ≠ 0 ∨ left.scheduling ≠ 0
  · rw [if_pos (by simpa using hcounts), andThen_some rfl]
    exact ⟨_, _, rfl, .cons hmicro (Micro.stay rfl hcounts).chain (by simp)⟩
  · rw [not_or, not_not, not_not] at hcounts
    rw [if_neg (by simp [hcounts]), if_pos (by simp [left]),
      free_single (s := { s with refreshes := [left] }) rfl, andThen_some rfl, List.append_nil]
    refine ⟨_, _, rfl, .cons hmicro ?_ (by simp)⟩
    exact (Micro.drop (s := { s with refreshes := [left], client := none }) rfl hcounts.1 hcounts.2
      hdetached).chain

/-- The loop of `r_dns_refresh_cancel_lookups` over a part of the list. -/
theorem cancelLookups_chain {failed : Bool} {s : State} {r : RDnsRefresh}
    (hlive : s.refreshes = [r]) (h : Inv s .detaching r) {pre lookups : List RDnsLookupCtx}
    (hlookups : r.lookups = pre ++ lookups) (nowMs : UInt64) :
    ∃ s' effects, rDnsRefreshCancelLookups s r.id lookups nowMs = some (s', effects) ∧
      Chain failed nowMs s .detaching effects s' .foreign := by
  unfold rDnsRefreshCancelLookups
  cases hdrop : lookups.dropWhile (!cancellable ·) with
  | nil => exact detachReturned_chain hlive h nowMs
  | cons l rest =>
    have hsplit : r.lookups = (pre ++ lookups.takeWhile (!cancellable ·)) ++ l :: rest := by
      rw [hlookups, List.append_assoc, ← hdrop, List.takeWhile_append_dropWhile]
    have hcancel : cancellable l = true := by
      have hne : lookups.dropWhile (!cancellable ·) ≠ [] := by simp [hdrop]
      simpa [hdrop] using List.head_dropWhile_not (!cancellable ·) hne
    exact ⟨_, _, rfl, (Micro.cancel hlive hsplit hcancel).chain⟩

theorem dropWhile_link {lookups : List RDnsLookupCtx} (lookup : LookupId) :
    ∃ pre, lookups = pre ++ lookups.dropWhile (·.id != lookup) :=
  ⟨lookups.takeWhile (·.id != lookup), List.takeWhile_append_dropWhile.symm⟩

theorem cancelReturned_chain {failed : Bool} {s : State} (h : Ok s .foreign) {id : RefreshId}
    {lookup : LookupId} {next : Option LookupId} {stack : List Frame}
    (hstack : s.stack = .cancel id lookup next :: stack) (nowMs : UInt64) :
    ∃ s' effects, cancelReturned { s with stack := stack } id next nowMs = some (s', effects) ∧
      Chain failed nowMs s .foreign effects s' .foreign := by
  cases h with
  | none _ hempty => exact absurd (hempty.symm.trans hstack) (by simp)
  | @live _ r hlive hinv =>
    obtain ⟨_, _, _, _, _, _, _, rfl, hnext⟩ := hinv.cancelling_client hstack
    have hdetaching := hinv.cancelled hstack
    have hmicro : Micro failed nowMs s .foreign [] { s with stack := stack } .detaching :=
      .cancelled hstack
    unfold cancelReturned
    cases next with
    | none =>
      obtain ⟨s', effects, hcode, hchain⟩ :=
        @detachReturned_chain failed { s with stack := stack } r hlive hdetaching nowMs
      exact ⟨s', effects, hcode, .cons hmicro hchain (by simp)⟩
    | some n =>
      have hlink : r.lookups.any (·.id == n) = true := by
        obtain ⟨x, hx, hxid⟩ := List.mem_map.mp (hnext n rfl)
        exact List.any_eq_true.mpr ⟨x, hx, by simpa using hxid⟩
      obtain ⟨pre, hpre⟩ := @dropWhile_link r.lookups n
      obtain ⟨s', effects, hcode, hchain⟩ :=
        @cancelLookups_chain failed { s with stack := stack } r hlive hdetaching pre _ hpre nowMs
      simp only [refresh?_single (s := { s with stack := stack }) hlive, hlink, if_true]
      exact ⟨s', effects, hcode, .cons hmicro hchain (by simp)⟩

theorem destroy_chain {failed : Bool} {s : State} (h : Ok s .foreign) {c : DnsClient}
    (hclient : s.client = some c) (hidle : s.idle) (nowMs : UInt64) :
    ∃ s' effects, rClientDestroy s nowMs = some (s', effects) ∧
      Chain failed nowMs s .foreign effects s' .foreign := by
  unfold rClientDestroy
  simp only [hclient]
  cases hrefresh : c.dnsRefresh with
  | none => exact ⟨_, _, rfl, (Micro.destroy hclient hrefresh hidle).chain⟩
  | some id =>
    cases h with
    | none _ _ _ hunknown =>
      exact absurd ((hunknown c hclient).1.symm.trans hrefresh) (by simp)
    | @live _ r hlive hinv =>
      have hattached : id = r.id ∧ r.client = true := by
        cases hinv.phase with
        | attached c' hc' hrefresh' _ hset =>
          obtain rfl := Option.some.inj (hclient.symm.trans hc')
          exact ⟨Option.some.inj (hrefresh.symm.trans hrefresh'), hset⟩
        | detaching _ _ _ _ _ _ hcontrol => exact absurd hcontrol (by simp)
        | cancelling c' hc' hnone =>
          obtain rfl := Option.some.inj (hclient.symm.trans hc')
          exact absurd (hrefresh.symm.trans hnone) (by simp)
        | gone hnone => exact absurd (hclient.symm.trans hnone) (by simp)
      obtain ⟨rfl, hset⟩ := hattached
      have hdetaching := hinv.detach hclient hrefresh hidle
      have hmicro : Micro failed nowMs s .foreign []
          { s with
            refreshes := [{ r with detached := true, scheduling := r.scheduling + 1 }]
            client := some c.forgetRefresh } .detaching := .detach hlive hclient hrefresh hidle
      simp only [refresh?_single hlive]
      rw [if_pos hset, put_single hlive]
      · cases c.hasCancel with
        | true =>
          obtain ⟨s', effects, hcode, hchain⟩ :=
            @cancelLookups_chain failed _ _ rfl hdetaching [] r.lookups rfl nowMs
          exact ⟨s', effects, hcode, .cons hmicro hchain (by simp)⟩
        | false =>
          obtain ⟨s', effects, hcode, hchain⟩ :=
            @detachReturned_chain failed _ _ rfl hdetaching nowMs
          exact ⟨s', effects, hcode, .cons hmicro hchain (by simp)⟩
      · rfl

/-! ### Steps -/

theorem start_chain {failed : Bool} {nowMs : UInt64} {s : State} (h : Ok s .foreign) {c : DnsClient}
    (hclient : s.client = some c)
    (hdestroyed : ∀ frame ∈ s.stack, ∀ id lookup next, frame ≠ .cancel id lookup next)
    (allocRefresh allocLookup : Bool) :
    ∃ s' effects, rDnsStartRefresh s allocRefresh allocLookup = some (s', effects) ∧
      Chain failed nowMs s .foreign effects s' .foreign := by
  unfold rDnsStartRefresh
  simp only [hclient]
  cases hinflight : c.membership.dnsRefreshInflight with
  | true =>
    rw [if_pos rfl]
    exact ⟨s, [], rfl, .nil s .foreign⟩
  | false =>
    rw [if_neg (by simp)]
    have hnone : s.refreshes = [] := by
      cases h with
      | none hrefreshes => exact hrefreshes
      | live _ hinv =>
        cases hinv.phase with
        | attached c' hc' _ hinflight' =>
          obtain rfl := Option.some.inj (hclient.symm.trans hc')
          exact absurd (hinflight.symm.trans hinflight') (by simp)
        | detaching _ _ _ _ _ _ hcontrol => exact absurd hcontrol (by simp)
        | cancelling _ _ _ _ _ _ _ _ _ _ hcancel =>
          exact absurd rfl (hdestroyed _ (hcancel ▸ List.mem_cons_self) _ _ _)
        | gone hgone => exact absurd (hclient.symm.trans hgone) (by simp)
    split
    · exact ⟨s, [], rfl, .nil s .foreign⟩
    split
    · exact ⟨_, _, rfl, (Micro.spare hclient hinflight hnone).chain⟩
    · rw [hnone]
      exact ⟨_, _, rfl, (Micro.start hclient hinflight hnone).chain⟩

/-- **Every permitted step goes through**, piece by piece. -/
theorem step_chain {failed : Bool} {s : State} (h : Ok s .foreign) {input : Input}
    (hallocs : failed = false → ∀ i, input.allocs i = true) (hpermitted : Permitted s input) :
    ∃ s' effects, step s input = some (s', effects) ∧
      Chain failed input.nowMs s .foreign effects s' .foreign := by
  unfold step
  unfold Permitted at hpermitted
  cases hevent : input.event with
  | attempt allocRefresh allocLookup =>
    simp only [hevent] at hpermitted
    obtain ⟨c, hclient⟩ := Option.isSome_iff_exists.mp hpermitted.1
    exact start_chain h hclient hpermitted.2 allocRefresh allocLookup
  | resolverReturn rc reqId =>
    simp only [hevent] at hpermitted
    obtain ⟨frame, stack, hstack, hframe⟩ := hpermitted
    simp only [hstack]
    cases frame with
    | resolveSrv id lookup => exact leaveSrv_chain h hstack rc reqId input.nowMs
    | resolveAddrs id lookup srv rest minTtlMs =>
      exact leaveAddrs_chain hallocs h hstack rc reqId input.nowMs
    | cancel id lookup next => exact absurd rfl (hframe id lookup next)
  | srvCallback lookup status records =>
    simp only [hevent] at hpermitted
    exact srvCb_chain hallocs input.nowMs h hpermitted.1 hpermitted.2 status records
  | addrCallback lookup status addrs =>
    simp only [hevent] at hpermitted
    exact addrCb_chain hallocs input.nowMs h hpermitted.1 hpermitted.2 status addrs
  | cancelReturn =>
    simp only [hevent] at hpermitted
    obtain ⟨id, lookup, next, stack, hstack⟩ := hpermitted
    simp only [hstack]
    exact cancelReturned_chain h hstack input.nowMs
  | destroy =>
    simp only [hevent] at hpermitted
    obtain ⟨c, hclient⟩ := Option.isSome_iff_exists.mp hpermitted.1
    exact destroy_chain h hclient hpermitted.2 input.nowMs

theorem ok_init (dnsName : Bytes) (hasCancel : Bool) : Ok (.init dnsName hasCancel) .foreign := by
  refine .none rfl rfl rfl ?_
  intro c hc
  obtain rfl := Option.some.inj hc
  exact ⟨rfl, rfl⟩

/-- **Every permitted run goes through**, and keeps what every step keeps. -/
theorem exec_rule {failed : Bool} {P : State → List Effect → Prop}
    (hkept : ∀ {s s' : State} {nowMs : UInt64} {trace effects : List Effect}, Ok s .foreign →
      P s trace → Chain failed nowMs s .foreign effects s' .foreign → P s' (trace ++ effects))
    {s : State} (h : Ok s .foreign) {trace : List Effect} (hstart : P s trace)
    {inputs : List Input}
    (hallocs : failed = false → ∀ input ∈ inputs, ∀ i, input.allocs i = true)
    (hcontract : Run.Along step s inputs Permitted) :
    ∃ s' effects, Run.exec step s inputs = some (s', effects) ∧ Ok s' .foreign ∧
      P s' (trace ++ effects) := by
  induction inputs generalizing s trace with
  | nil =>
    refine ⟨s, [], rfl, h, ?_⟩
    rwa [List.append_nil]
  | cons input inputs ih =>
    obtain ⟨hpermitted, hthen⟩ := Run.along_cons.mp hcontract
    obtain ⟨s₁, out, hstep, hfirst⟩ :=
      step_chain h (fun hfailed => hallocs hfailed input List.mem_cons_self) hpermitted
    obtain ⟨s', effects, hrun, hok, hend⟩ := ih (hfirst.ok h) (hkept h hstart hfirst)
      (fun hfailed input' hin => hallocs hfailed input' (List.mem_cons_of_mem _ hin))
      (hthen s₁ out hstep)
    refine ⟨s', out ++ effects, Run.exec_cons.mpr ⟨s₁, out, effects, hstep, hrun, rfl⟩, hok, ?_⟩
    rwa [← List.append_assoc]

end RlClient.Refresh
