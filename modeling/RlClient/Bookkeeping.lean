import RlClient.Microsteps

/-!
# The bookkeeping of a refresh

Every piece of a step keeps the invariant of `Microsteps`: the two counters say at
every point how many lookups of the refresh are unfinished and how many resolver
calls it has on the stack, and whatever the stack or the resolver refers to has
not been freed.
-/

namespace RlClient.Refresh

/-! ### Shapes of the stack -/

theorem Idle.no_srv {id : RefreshId} {stack rest : List Frame} (hidle : Idle id stack)
    {id' : RefreshId} {lookup : LookupId} (h : stack = .resolveSrv id' lookup :: rest) : False := by
  cases hidle with
  | empty => exact absurd h (by simp)
  | addrs => exact absurd h (by simp)

theorem Idle.no_cancel {id : RefreshId} {stack : List Frame} (hidle : Idle id stack)
    {id' : RefreshId} {lookup : LookupId} {next : Option LookupId} :
    Frame.cancel id' lookup next ∉ stack := by
  cases hidle with
  | empty => simp
  | addrs => simp

/-- `resolve_srv` is only ever called with an empty stack. -/
theorem Attached.under_srv {id : RefreshId} {stack rest : List Frame} (h : Attached id stack)
    {id' : RefreshId} {lookup : LookupId} (hstack : stack = .resolveSrv id' lookup :: rest) :
    rest = [] := by
  cases h with
  | idle hidle => exact (hidle.no_srv hstack).elim
  | srv lookup' hidle =>
    cases hidle with
    | empty => exact (List.cons.inj hstack).2.symm
    | addrs => exact absurd (List.cons.inj hstack).1 (by simp)

theorem Attached.no_cancel {id : RefreshId} {stack : List Frame} (h : Attached id stack)
    {id' : RefreshId} {lookup : LookupId} {next : Option LookupId} :
    Frame.cancel id' lookup next ∉ stack := by
  cases h with
  | idle hidle => exact hidle.no_cancel
  | srv lookup' hidle =>
    intro hmem
    rcases List.mem_append.mp hmem with hmem | hmem
    · exact hidle.no_cancel hmem
    · exact absurd (List.mem_singleton.mp hmem) (by simp)

/-- The SRV callback that waits for `resolve_addrs` is the only one on the stack. -/
theorem Attached.under_addrs {id : RefreshId} {stack rest : List Frame} (h : Attached id stack)
    {id' : RefreshId} {lookup srv : LookupId} {records : List RSrvRecord} {minTtlMs : UInt64}
    (hstack : stack = .resolveAddrs id' lookup srv records minTtlMs :: rest) :
    Attached id rest ∧ running rest = [] ∧ lookup ≠ srv := by
  cases h with
  | idle hidle =>
    cases hidle with
    | empty => exact absurd hstack (by simp)
    | addrs lookup' srv' _ _ hne =>
      obtain ⟨hhead, rfl⟩ := List.cons.inj hstack
      injection hhead with _ hlookup hsrv
      exact ⟨.idle .empty, rfl, by rw [← hlookup, ← hsrv]; exact hne⟩
  | srv lookup' hidle =>
    cases hidle with
    | empty => exact absurd (List.cons.inj hstack).1 (by simp)
    | addrs lookup'' srv' _ _ hne =>
      obtain ⟨hhead, rfl⟩ := List.cons.inj hstack
      injection hhead with _ hlookup hsrv
      exact ⟨.srv lookup' .empty, rfl, by rw [← hlookup, ← hsrv]; exact hne⟩

theorem Idle.under_addrs {id : RefreshId} {stack rest : List Frame} (h : Idle id stack)
    {id' : RefreshId} {lookup srv : LookupId} {records : List RSrvRecord} {minTtlMs : UInt64}
    (hstack : stack = .resolveAddrs id' lookup srv records minTtlMs :: rest) : rest = [] := by
  cases h with
  | empty => exact absurd hstack (by simp)
  | addrs => exact (List.cons.inj hstack).2.symm

/-- Without a waiting SRV callback one may be pushed. -/
theorem Attached.push {id : RefreshId} {stack : List Frame} (h : Attached id stack)
    (hrunning : running stack = []) {lookup srv : LookupId} (hne : lookup ≠ srv)
    (rest : List RSrvRecord) (minTtlMs : UInt64) :
    Attached id (.resolveAddrs id lookup srv rest minTtlMs :: stack) := by
  cases h with
  | idle hidle =>
    cases hidle with
    | empty => exact .idle (.addrs lookup srv rest minTtlMs hne)
    | addrs => exact absurd hrunning (by simp)
  | srv lookup' hidle =>
    cases hidle with
    | empty => exact .srv lookup' (.addrs lookup srv rest minTtlMs hne)
    | addrs => exact absurd hrunning (by simp)

/-- The host may destroy the client only outside its own functions. -/
theorem Attached.idle_of {s : State} {id : RefreshId} (h : Attached id s.stack) (hidle : s.idle) :
    Idle id s.stack := by
  generalize hstack : s.stack = stack at h
  cases h with
  | idle hidle => exact hidle
  | srv lookup _ =>
    obtain ⟨_, _, _, _, _, hframe⟩ := hidle (.resolveSrv id lookup) (by rw [hstack]; simp)
    exact absurd hframe (by simp)

theorem Idle.owned {id : RefreshId} {stack : List Frame} (h : Idle id stack) :
    ∀ frame ∈ stack, frame.refresh = id := by
  cases h with
  | empty => simp
  | addrs => simp [Frame.refresh]

theorem Phase.owned {s : State} {control : Control} {r : RDnsRefresh} (h : Phase s control r) :
    ∀ frame ∈ s.stack, frame.refresh = r.id := by
  cases h with
  | attached _ _ _ _ _ _ _ hstack =>
    generalize s.stack = stack at hstack
    cases hstack with
    | idle hidle => exact hidle.owned
    | srv lookup hidle =>
      intro frame hframe
      rcases List.mem_append.mp hframe with hframe | hframe
      · exact hidle.owned frame hframe
      · rw [List.mem_singleton.mp hframe]
        rfl
  | detaching _ _ _ _ _ _ _ hidle => exact hidle.owned
  | cancelling _ _ _ _ _ _ _ _ _ _ hstack hidle =>
    rw [hstack]
    intro frame hframe
    rcases List.mem_cons.mp hframe with rfl | hframe
    · rfl
    · exact hidle.owned frame hframe
  | gone _ _ _ _ hidle => exact hidle.owned

/-! ### Changes that the invariant does not see -/

/-- The fields of a refresh that the invariant is about. -/
structure SameRefresh (r r' : RDnsRefresh) : Prop where
  id : r'.id = r.id
  client : r'.client = r.client
  detached : r'.detached = r.detached
  pending : r'.pending = r.pending
  scheduling : r'.scheduling = r.scheduling
  lookups : r'.lookups = r.lookups

/-- The invariant reads from the control which lookup is executing, whether the
    refresh is being detached and whether the loop runs. -/
theorem Phase.congr {s s' : State} {control control' : Control} {r r' : RDnsRefresh}
    (h : Phase s control r) (hsame : SameRefresh r r') (hclient : s'.client = s.client)
    (hstack : s'.stack = s.stack) (hdetaching : control = .detaching ↔ control' = .detaching)
    (hloops : control.loops = 0 → r.detached = true → r.client = true → control'.loops = 0)
    (hbody : ∀ id lookup next stack, s.stack = .cancel id lookup next :: stack →
      ∀ i ∈ control'.body, i = lookup) : Phase s' control' r' := by
  obtain ⟨hid, hset, hdetached, -, -, hlookups⟩ := hsame
  cases h with
  | attached c hc hrefresh hinflight hset' hdet hcontrol hstack' =>
    exact .attached c (hclient.trans hc) (by rw [hid]; exact hrefresh) hinflight
      (hset.trans hset') (hdetached.trans hdet) (fun h => hcontrol (hdetaching.mpr h))
      (by rw [hid, hstack]; exact hstack')
  | detaching c hc hrefresh hinflight hset' hdet hcontrol hstack' =>
    exact .detaching c (hclient.trans hc) hrefresh hinflight (hset.trans hset')
      (hdetached.trans hdet) (hdetaching.mp hcontrol) (by rw [hid, hstack]; exact hstack')
  | cancelling c hc hrefresh hinflight hset' hdet hcontrol lookup next stack hstack' hidle hnext =>
    exact .cancelling c (hclient.trans hc) hrefresh hinflight (hset.trans hset')
      (hdetached.trans hdet)
      ⟨fun h => hcontrol.1 (hdetaching.mpr h), hloops hcontrol.2 hdet hset'⟩ lookup next stack
      (by rw [hstack, hid]; exact hstack') (by rw [hid]; exact hidle)
      (by rw [hlookups]; exact hnext) (hbody _ _ _ _ hstack')
  | gone hc hset' hdet hcontrol hstack' =>
    exact .gone (hclient.trans hc) (hset.trans hset') (hdetached.trans hdet)
      (fun h => hcontrol (hdetaching.mpr h)) (by rw [hid, hstack]; exact hstack')

/-- A change that keeps the lookups and, up to order, what is unfinished. -/
theorem Inv.move {s s' : State} {control control' : Control} {r r' : RDnsRefresh}
    (h : Inv s control r) (hid : r'.id = r.id) (hlookups : r'.lookups = r.lookups)
    (hpending : r'.pending = r.pending) (hnext : s'.nextId = s.nextId)
    (hcalls : calls s'.stack = calls s.stack)
    (hperm : (s'.unfinished control').Perm (s.unfinished control))
    (hsingle : s'.srvCount control' ≤ s.srvCount control)
    (hscheduling : r'.scheduling = s'.stack.length + control'.detaches)
    (hphase : Phase s' control' r')
    (halive : control' = .foreign → r'.pending ≠ 0 ∨ r'.scheduling ≠ 0) : Inv s' control' r' where
  nodup := by rw [hlookups]; exact h.nodup
  fresh := by rw [hid, hnext]; exact h.fresh
  bound := by rw [hlookups, hnext]; exact h.bound
  scheduling := hscheduling
  pending := by rw [hpending, hperm.length_eq]; exact h.pending
  once := hperm.nodup_iff.mpr h.once
  opened := by
    intro i
    rw [hperm.mem_iff, hlookups]
    exact h.opened i
  called := by rw [hcalls, hlookups]; exact h.called
  separate := by rw [hcalls]; exact h.separate
  kept := by rw [hlookups]; exact h.kept
  unnamed := by rw [hlookups]; exact h.unnamed
  single := Nat.le_trans hsingle h.single
  phase := hphase
  alive := halive

theorem Inv.congr {s s' : State} {control control' : Control} {r r' : RDnsRefresh}
    (h : Inv s control r) (hsame : SameRefresh r r') (hstack : s'.stack = s.stack)
    (hnext : s'.nextId = s.nextId) (hdetaches : control'.detaches = control.detaches)
    (hperm : (s'.unfinished control').Perm (s.unfinished control))
    (hsingle : s'.srvCount control' ≤ s.srvCount control) (hphase : Phase s' control' r')
    (halive : control' = .foreign → r.pending ≠ 0 ∨ r.scheduling ≠ 0) : Inv s' control' r' := by
  refine h.move hsame.id hsame.lookups hsame.pending hnext (by rw [hstack]) hperm hsingle ?_ hphase
    ?_
  · rw [hsame.scheduling, hstack, hdetaches]
    exact h.scheduling
  · intro hforeign
    rw [hsame.pending, hsame.scheduling]
    exact halive hforeign

theorem SameRefresh.refl (r : RDnsRefresh) : SameRefresh r r := ⟨rfl, rfl, rfl, rfl, rfl, rfl⟩

theorem answered_same (r : RDnsRefresh) (l : RDnsLookupCtx) (status : Int) (addrs : List RAddr)
    (allocs : Nat → Bool) : SameRefresh r (answered r l status addrs allocs) := by
  obtain ⟨endpoints, cap, heq⟩ := answered_frame r l status addrs allocs
  rw [heq]
  exact ⟨rfl, rfl, rfl, rfl, rfl, rfl⟩

/-- A callback that is executing was owed before. -/
theorem unfinished_called {s : State} {query : Query} (hquery : query ∈ s.outstanding)
    {control : Control} (hbody : control.body = [query.lookup]) :
    ((s.called query).unfinished control).Perm (s.unfinished .foreign) := by
  have houtstanding : (s.outstanding.map (·.lookup)).Perm
      (query.lookup :: (s.outstanding.erase query).map (·.lookup)) :=
    (List.perm_cons_erase hquery).map (·.lookup)
  have hcalled : (s.called query).unfinished control =
      query.lookup :: (running s.stack ++ (s.outstanding.erase query).map (·.lookup)) := by
    simp [State.unfinished, State.called, hbody]
  have howed : s.unfinished .foreign = running s.stack ++ s.outstanding.map (·.lookup) := rfl
  rw [hcalled, howed]
  exact List.perm_middle.symm.trans (houtstanding.symm.append_left _)

theorem countP_erase_of_mem {s : State} {query : Query} (hquery : query ∈ s.outstanding) :
    s.outstanding.countP Query.isSrv =
      (s.outstanding.erase query).countP Query.isSrv + (if query.isSrv then 1 else 0) := by
  rw [(List.perm_cons_erase hquery).countP_eq, List.countP_cons]

/-! ### Callbacks -/

theorem ok_live {s : State} {control : Control} {r : RDnsRefresh} (h : Ok s control)
    (hlive : s.refreshes = [r]) : Inv s control r := by
  cases h with
  | none hnone => exact absurd (hlive.symm.trans hnone) (by simp)
  | live hrefreshes hinv =>
    obtain ⟨rfl, -⟩ := List.cons.inj (hrefreshes.symm.trans hlive)
    exact hinv

theorem srvControl_body (r : RDnsRefresh) (lookup : LookupId) (status : Int)
    (records : List RSrvRecord) : (srvControl r lookup status records).body = [lookup] := by
  unfold srvControl
  split
  · rfl
  · split
    · rfl
    · rfl

theorem srvControl_detaches (r : RDnsRefresh) (lookup : LookupId) (status : Int)
    (records : List RSrvRecord) :
    (srvControl r lookup status records).detaches = 0 ∧
      srvControl r lookup status records ≠ .foreign ∧
      srvControl r lookup status records ≠ .detaching ∧
      (srvControl r lookup status records).loops ≤ 1 ∧
      (r.detached = true → (srvControl r lookup status records).loops = 0) := by
  unfold srvControl
  by_cases hdetached : (r.detached || !r.client) = true
  · rw [if_pos hdetached]
    exact ⟨rfl, by simp, by simp, Nat.zero_le _, fun _ => rfl⟩
  · rw [if_neg hdetached]
    have hattached : ¬ r.detached = true := by
      intro h
      exact hdetached (by simp [h])
    split
    · exact ⟨rfl, by simp, by simp, Nat.le_refl _, fun h => absurd h hattached⟩
    · exact ⟨rfl, by simp, by simp, Nat.zero_le _, fun _ => rfl⟩

/-- The callback that is executing inside `cancel` is that of the cancelled lookup. -/
theorem mayCall_cancel {s : State} {lookup : LookupId} (hmay : s.mayCall lookup)
    {control : Control} (hbody : control.body = [lookup]) :
    ∀ id cancelled next stack, s.stack = .cancel id cancelled next :: stack →
      ∀ i ∈ control.body, i = cancelled := by
  intro id cancelled next stack hstack i hi
  unfold State.mayCall at hmay
  rw [hstack] at hmay
  rw [hbody, List.mem_singleton] at hi
  exact hi.trans hmay.symm

theorem Inv.srvCall {s : State} {r : RDnsRefresh} (h : Inv s .foreign r) {lookup : LookupId}
    (hquery : .srv lookup ∈ s.outstanding) (hmay : s.mayCall lookup) (status : Int)
    (records : List RSrvRecord) :
    Inv (s.called (.srv lookup)) (srvControl r lookup status records) r := by
  have hbody := srvControl_body r lookup status records
  obtain ⟨hdetaches, hforeign, hdetaching, hloops, hloops'⟩ :=
    srvControl_detaches r lookup status records
  refine h.congr (.refl r) rfl rfl hdetaches (unfinished_called hquery hbody) ?_ ?_
    (fun hcontrol => absurd hcontrol hforeign)
  · have hcount := countP_erase_of_mem hquery
    have hsrv : (Query.srv lookup).isSrv = true := rfl
    have hcontrol : Control.foreign.loops = 0 := rfl
    rw [if_pos hsrv] at hcount
    simp only [State.srvCount, State.called]
    omega
  · exact h.phase.congr (.refl r) rfl rfl
      (iff_of_false (by simp) hdetaching) (fun _ hdetached _ => hloops' hdetached)
      (mayCall_cancel hmay hbody)

theorem Inv.addrCall {s : State} {r : RDnsRefresh} (h : Inv s .foreign r) {l : RDnsLookupCtx}
    (hquery : .addrs l.id ∈ s.outstanding) (hmay : s.mayCall l.id) (status : Int)
    (addrs : List RAddr) (allocs : Nat → Bool) :
    Inv { s.called (.addrs l.id) with refreshes := [answered r l status addrs allocs] }
      (.finishing l.id) (answered r l status addrs allocs) := by
  refine h.congr (answered_same r l status addrs allocs) rfl rfl rfl
    (unfinished_called hquery rfl) ?_ ?_ (by simp)
  · have hcount := countP_erase_of_mem hquery
    have hcontrol : (Control.finishing l.id).loops = Control.foreign.loops := rfl
    rw [if_neg (by simp [Query.isSrv])] at hcount
    simp only [State.srvCount, State.called]
    omega
  · exact h.phase.congr (answered_same r l status addrs allocs) rfl rfl (by simp)
      (fun _ _ _ => rfl) (mayCall_cancel hmay rfl)

/-! ### Entering the resolver -/

theorem enterResolver_single {s : State} {r : RDnsRefresh} (hlive : s.refreshes = [r])
    (l : RDnsLookupCtx) (query : Query) (frame : Frame) :
    enterResolver s r l query frame =
      { s with
        refreshes := [{ r with lookups := l :: r.lookups, pending := r.pending + 1,
                               scheduling := r.scheduling + 1 }]
        stack := frame :: s.stack
        outstanding := query :: s.outstanding
        nextId := l.id + 1 } := by
  unfold enterResolver
  rw [put_single hlive]
  rfl

/-- A lookup under a new address joins the list, the stack and what is owed. -/
theorem Inv.enter {s : State} {r : RDnsRefresh} {srv : LookupId} {record : RSrvRecord}
    {rest : List RSrvRecord} {minTtlMs : UInt64}
    (h : Inv s (.srvLoop srv (record :: rest) minTtlMs) r)
    (hattached : r.detached = false) (l : RDnsLookupCtx) (hid : l.id = s.nextId)
    (hopen : l.completed = false) (hcall : l.inResolverCall = true) (hunnamed : l.hasReqId = false)
    (minTtlMs' : UInt64) :
    Inv { s with
          refreshes := [{ r with lookups := l :: r.lookups, pending := r.pending + 1,
                                 scheduling := r.scheduling + 1 }]
          stack := .resolveAddrs r.id l.id srv rest minTtlMs' :: s.stack
          outstanding := .addrs l.id :: s.outstanding
          nextId := l.id + 1 } .foreign
      { r with lookups := l :: r.lookups, pending := r.pending + 1,
               scheduling := r.scheduling + 1 } := by
  have hnew : ∀ x ∈ r.lookups, x.id ≠ l.id := by
    intro x hx
    rw [hid]
    exact Nat.ne_of_lt (h.bound x hx)
  have hbody : srv ∈ s.unfinished (.srvLoop srv (record :: rest) minTtlMs) := by
    simp [State.unfinished, Control.body]
  have hfresh : l.id ∉ s.unfinished (.srvLoop srv (record :: rest) minTtlMs) := by
    intro hmem
    obtain ⟨x, hx, hxid, -⟩ := (h.opened _).mp hmem
    exact hnew x hx hxid
  have hnot : l.id ∉ calls s.stack := by
    intro hmem
    obtain ⟨x, hx, hxid, -⟩ := (h.called _).mp hmem
    exact hnew x hx hxid
  have hperm : (srv :: (running s.stack ++ l.id :: s.outstanding.map (·.lookup))).Perm
      (l.id :: s.unfinished (.srvLoop srv (record :: rest) minTtlMs)) :=
    @List.perm_middle _ l.id (srv :: running s.stack) _
  have hrunning : running s.stack = [] := by
    have hcount := h.single
    have hloops : (Control.srvLoop srv (record :: rest) minTtlMs).loops = 1 := rfl
    simp only [State.srvCount, hloops] at hcount
    exact List.eq_nil_of_length_eq_zero (by omega)
  constructor
  case nodup =>
    rw [List.map_cons, List.nodup_cons]
    refine ⟨?_, h.nodup⟩
    intro hmem
    obtain ⟨x, hx, hxid⟩ := List.mem_map.mp hmem
    exact hnew x hx hxid
  case fresh =>
    change r.id < l.id + 1
    rw [hid]
    exact Nat.lt_succ_of_lt h.fresh
  case bound =>
    intro x hx
    change x.id < l.id + 1
    rcases List.mem_cons.mp hx with rfl | hx
    · exact Nat.lt_succ_self _
    · rw [hid]
      exact Nat.lt_succ_of_lt (h.bound x hx)
  case scheduling =>
    have hsched := h.scheduling
    simp only [Control.detaches, List.length_cons, Nat.add_zero] at hsched ⊢
    rw [hsched]
  case pending =>
    change r.pending + 1 = (srv :: (running s.stack ++ l.id :: s.outstanding.map (·.lookup))).length
    rw [hperm.length_eq, List.length_cons, h.pending]
  case once =>
    change (srv :: (running s.stack ++ l.id :: s.outstanding.map (·.lookup))).Nodup
    rw [hperm.nodup_iff, List.nodup_cons]
    exact ⟨hfresh, h.once⟩
  case opened =>
    intro i
    change i ∈ srv :: (running s.stack ++ l.id :: s.outstanding.map (·.lookup)) ↔ _
    rw [hperm.mem_iff, List.mem_cons, h.opened i]
    constructor
    · rintro (rfl | ⟨x, hx, hxid, hxopen⟩)
      · exact ⟨l, List.mem_cons_self, rfl, hopen⟩
      · exact ⟨x, List.mem_cons_of_mem _ hx, hxid, hxopen⟩
    · rintro ⟨x, hx, hxid, hxopen⟩
      rcases List.mem_cons.mp hx with rfl | hx
      · exact .inl hxid.symm
      · exact .inr ⟨x, hx, hxid, hxopen⟩
  case called =>
    intro i
    change i ∈ l.id :: calls s.stack ↔ _
    rw [List.mem_cons, h.called i]
    constructor
    · rintro (rfl | ⟨x, hx, hxid, hxcall⟩)
      · exact ⟨l, List.mem_cons_self, rfl, hcall⟩
      · exact ⟨x, List.mem_cons_of_mem _ hx, hxid, hxcall⟩
    · rintro ⟨x, hx, hxid, hxcall⟩
      rcases List.mem_cons.mp hx with rfl | hx
      · exact .inl hxid.symm
      · exact .inr ⟨x, hx, hxid, hxcall⟩
  case separate =>
    change (l.id :: calls s.stack).Nodup
    rw [List.nodup_cons]
    exact ⟨hnot, h.separate⟩
  case kept =>
    intro x hx hxcompleted
    rcases List.mem_cons.mp hx with rfl | hx
    · exact hcall
    · exact h.kept x hx hxcompleted
  case unnamed =>
    intro x hx hxcall
    rcases List.mem_cons.mp hx with rfl | hx
    · exact hunnamed
    · exact h.unnamed x hx hxcall
  case single =>
    have hcount := h.single
    have hloops : (Control.srvLoop srv (record :: rest) minTtlMs).loops = 1 := rfl
    have hquery : ¬ (Query.addrs l.id).isSrv = true := by simp [Query.isSrv]
    have hforeign : Control.foreign.loops = 0 := rfl
    simp only [State.srvCount, hloops] at hcount
    simp only [State.srvCount, hforeign, running_addrs, List.length_cons,
      List.countP_cons_of_neg hquery]
    omega
  case phase =>
    cases h.phase with
    | attached c hc hrefresh hinflight hset hdet _ hstack =>
      refine .attached c hc hrefresh hinflight hset hdet (by simp) ?_
      refine hstack.push hrunning ?_ rest minTtlMs'
      intro heq
      exact hfresh (heq ▸ hbody)
    | detaching _ _ _ _ _ hdet => exact absurd (hattached.symm.trans hdet) (by simp)
    | cancelling _ _ _ _ _ hdet => exact absurd (hattached.symm.trans hdet) (by simp)
    | gone _ _ hdet => exact absurd (hattached.symm.trans hdet) (by simp)
  case alive =>
    intro _
    exact .inl (by simp)

/-! ### Completing a lookup -/

/-- The lookups after one of them was completed: the flag is set, or it is gone. -/
theorem mem_completeLookup {r : RDnsRefresh} (hnodup : (r.lookups.map (·.id)).Nodup)
    {l : RDnsLookupCtx} (hlookup : l ∈ r.lookups) {x : RDnsLookupCtx} :
    x ∈ (completeLookup r l).lookups ↔
      x ∈ r.lookups ∧ x.id ≠ l.id ∨ l.inResolverCall = true ∧ x = { l with completed := true } := by
  unfold completeLookup
  simp only
  by_cases hcall : l.inResolverCall = true
  · rw [if_pos hcall]
    have hmem : l.id ∈ r.lookups.map (·.id) := List.mem_map_of_mem hlookup
    have hreplace :=
      @Keyed.mem_replace _ _ _ RDnsLookupCtx.id r.lookups { l with completed := true } hmem x
    constructor
    · intro hx
      rcases hreplace.mp hx with heq | hother
      · exact .inr ⟨hcall, heq⟩
      · exact .inl hother
    · rintro (hother | ⟨-, heq⟩)
      · exact hreplace.mpr (.inr hother)
      · exact hreplace.mpr (.inl heq)
  · rw [if_neg hcall]
    have herase := Keyed.mem_eraseP (k := l.id) hnodup (b := x)
    constructor
    · intro hx
      exact .inl (herase.mp hx)
    · rintro (hother | ⟨htrue, -⟩)
      · exact herase.mpr hother
      · exact absurd htrue hcall

theorem completeLookup_fields (r : RDnsRefresh) (l : RDnsLookupCtx) :
    (completeLookup r l).id = r.id ∧ (completeLookup r l).client = r.client ∧
      (completeLookup r l).detached = r.detached ∧
      (completeLookup r l).pending = r.pending - 1 ∧
      (completeLookup r l).scheduling = r.scheduling := by
  unfold completeLookup
  simp only
  split
  · exact ⟨rfl, rfl, rfl, rfl, rfl⟩
  · exact ⟨rfl, rfl, rfl, rfl, rfl⟩

theorem completeLookup_nodup {r : RDnsRefresh} (hnodup : (r.lookups.map (·.id)).Nodup)
    (l : RDnsLookupCtx) : ((completeLookup r l).lookups.map (·.id)).Nodup := by
  unfold completeLookup
  simp only
  split
  · have hsame :=
      @Keyed.map_key_replace _ _ _ RDnsLookupCtx.id r.lookups { l with completed := true }
    exact hsame ▸ hnodup
  · exact Keyed.nodup_eraseP hnodup

theorem Inv.complete {s : State} {r : RDnsRefresh} {l : RDnsLookupCtx}
    (h : Inv s (.finishing l.id) r) (hlookup : l ∈ r.lookups) :
    Inv { s with refreshes := [completeLookup r l] } .settling (completeLookup r l) := by
  obtain ⟨hid, hset, hdetached, hpending, hscheduling⟩ := completeLookup_fields r l
  have hmem := fun x => mem_completeLookup h.nodup hlookup (x := x)
  have hunfinished : s.unfinished (.finishing l.id) = l.id :: s.unfinished .settling := rfl
  have honce := h.once
  rw [hunfinished, List.nodup_cons] at honce
  constructor
  case nodup => exact completeLookup_nodup h.nodup l
  case fresh =>
    rw [hid]
    exact h.fresh
  case bound =>
    intro x hx
    rcases (hmem x).mp hx with ⟨hx, -⟩ | ⟨-, rfl⟩
    · exact h.bound x hx
    · exact h.bound l hlookup
  case scheduling =>
    rw [hscheduling]
    exact h.scheduling
  case pending =>
    rw [hpending, h.pending, hunfinished]
    rfl
  case once => exact honce.2
  case opened =>
    intro i
    have hold := h.opened i
    rw [hunfinished, List.mem_cons] at hold
    change i ∈ s.unfinished .settling ↔ _
    constructor
    · intro hi
      obtain ⟨x, hx, hxid, hxopen⟩ := hold.mp (.inr hi)
      refine ⟨x, (hmem x).mpr (.inl ⟨hx, ?_⟩), hxid, hxopen⟩
      rw [hxid]
      rintro rfl
      exact honce.1 hi
    · rintro ⟨x, hx, hxid, hxopen⟩
      rcases (hmem x).mp hx with ⟨hx, hne⟩ | ⟨-, rfl⟩
      · rcases hold.mpr ⟨x, hx, hxid, hxopen⟩ with heq | hi
        · exact absurd (hxid.trans heq) hne
        · exact hi
      · exact absurd hxopen (by simp)
  case called =>
    intro i
    change i ∈ calls s.stack ↔ _
    rw [h.called i]
    constructor
    · rintro ⟨x, hx, hxid, hxcall⟩
      by_cases heq : x.id = l.id
      · have hsame : x = l := Keyed.eq_of_key h.nodup hx hlookup heq
        subst hsame
        exact ⟨_, (hmem _).mpr (.inr ⟨hxcall, rfl⟩), hxid, hxcall⟩
      · exact ⟨x, (hmem x).mpr (.inl ⟨hx, heq⟩), hxid, hxcall⟩
    · rintro ⟨x, hx, hxid, hxcall⟩
      rcases (hmem x).mp hx with ⟨hx, -⟩ | ⟨-, rfl⟩
      · exact ⟨x, hx, hxid, hxcall⟩
      · exact ⟨l, hlookup, hxid, hxcall⟩
  case separate => exact h.separate
  case kept =>
    intro x hx hxcompleted
    rcases (hmem x).mp hx with ⟨hx, -⟩ | ⟨hcall, rfl⟩
    · exact h.kept x hx hxcompleted
    · exact hcall
  case unnamed =>
    intro x hx hxcall
    rcases (hmem x).mp hx with ⟨hx, -⟩ | ⟨-, rfl⟩
    · exact h.unnamed x hx hxcall
    · exact h.unnamed l hlookup hxcall
  case single => exact h.single
  case phase =>
    cases h.phase with
    | attached c hc hrefresh hinflight hset' hdet _ hstack =>
      exact .attached c hc (by rw [hid]; exact hrefresh) hinflight (hset.trans hset')
        (hdetached.trans hdet) (by simp) (by rw [hid]; exact hstack)
    | detaching _ _ _ _ _ _ hcontrol => exact absurd hcontrol (by simp)
    | cancelling c hc hrefresh hinflight hset' hdet _ lookup next stack hstack hidle hnext hbody =>
      refine .cancelling c hc hrefresh hinflight (hset.trans hset') (hdetached.trans hdet)
        ⟨by simp, rfl⟩ lookup next stack (by rw [hid]; exact hstack) (by rw [hid]; exact hidle) ?_
        (by simp [Control.body])
      -- the link that the loop has kept is to another lookup
      intro n hn
      obtain ⟨hne, hin⟩ := hnext n hn
      obtain ⟨x, hx, hxid⟩ := List.mem_map.mp hin
      have hlookup' : l.id = lookup := hbody l.id (by simp [Control.body])
      refine ⟨hne, List.mem_map.mpr ⟨x, (hmem x).mpr (.inl ⟨hx, ?_⟩), hxid⟩⟩
      rw [hxid, hlookup']
      exact hne
    | gone hc hset' hdet _ hstack =>
      exact .gone hc (hset.trans hset') (hdetached.trans hdet) (by simp)
        (by rw [hid]; exact hstack)
  case alive => exact fun hcontrol => absurd hcontrol (by simp)

/-! ### Leaving the resolver -/

/-- A lookup that goes on after its resolver call has returned. -/
def keptLookup (l : RDnsLookupCtx) (reqId : UInt64) : RDnsLookupCtx :=
  { l with
    reqId := if reqId = 0 then l.reqId else reqId
    hasReqId := if reqId = 0 then l.hasReqId else true
    inResolverCall := false }

theorem leaveResolver_keep (r : RDnsRefresh) {l : RDnsLookupCtx} (hopen : l.completed = false)
    (reqId : UInt64) :
    leaveResolver r l 0 reqId =
      { r with scheduling := r.scheduling - 1 }.putLookup (keptLookup l reqId) := by
  unfold leaveResolver keptLookup
  by_cases hreq : reqId = 0
  · simp [hopen, hreq]
  · simp [hopen, hreq]

theorem leaveResolver_unlink (r : RDnsRefresh) {l : RDnsLookupCtx} {rc : Int}
    (hover : rc ≠ 0 ∨ l.completed = true) (reqId : UInt64) :
    leaveResolver r l rc reqId =
      rDnsLookupUnlink
        { r with pending := if l.completed then r.pending else r.pending - 1
                 scheduling := r.scheduling - 1 } l.id := by
  unfold leaveResolver
  cases hcompleted : l.completed with
  | true => simp [hcompleted]
  | false =>
    have hrc : rc ≠ 0 := by
      rcases hover with hrc | htrue
      · exact hrc
      · exact absurd (hcompleted.symm.trans htrue) (by simp)
    simp [hcompleted, hrc]

/-- The lookup goes on, or it is over because it was refused or called back. -/
theorem leave_cases (l : RDnsLookupCtx) (rc : Int) :
    rc = 0 ∧ l.completed = false ∨ (rc ≠ 0 ∨ l.completed = true) := by
  by_cases hrc : rc = 0
  · cases hcompleted : l.completed with
    | true => exact .inr (.inr rfl)
    | false => exact .inl ⟨hrc, rfl⟩
  · exact .inr (.inl hrc)

theorem leaveResolver_fields (r : RDnsRefresh) (l : RDnsLookupCtx) (rc : Int) (reqId : UInt64) :
    (leaveResolver r l rc reqId).id = r.id ∧ (leaveResolver r l rc reqId).client = r.client ∧
      (leaveResolver r l rc reqId).detached = r.detached ∧
      (leaveResolver r l rc reqId).pending =
        (if rc ≠ 0 ∧ l.completed = false then r.pending - 1 else r.pending) ∧
      (leaveResolver r l rc reqId).scheduling = r.scheduling - 1 := by
  rcases leave_cases l rc with ⟨rfl, hopen⟩ | hover
  · rw [leaveResolver_keep r hopen, if_neg (by simp)]
    exact ⟨rfl, rfl, rfl, rfl, rfl⟩
  · rw [leaveResolver_unlink r hover]
    refine ⟨rfl, rfl, rfl, ?_, rfl⟩
    simp only [rDnsLookupUnlink]
    cases hcompleted : l.completed with
    | true => simp
    | false =>
      rw [hcompleted] at hover
      have hrc : rc ≠ 0 := by simpa using hover
      simp [hrc]

theorem mem_leaveResolver {r : RDnsRefresh} (hnodup : (r.lookups.map (·.id)).Nodup)
    {l : RDnsLookupCtx} (hlookup : l ∈ r.lookups) (rc : Int) (reqId : UInt64) {x : RDnsLookupCtx} :
    x ∈ (leaveResolver r l rc reqId).lookups ↔
      x ∈ r.lookups ∧ x.id ≠ l.id ∨
        rc = 0 ∧ l.completed = false ∧ x = keptLookup l reqId := by
  rcases leave_cases l rc with ⟨rfl, hopen⟩ | hover
  · rw [leaveResolver_keep r hopen]
    have hmem : l.id ∈ r.lookups.map (·.id) := List.mem_map_of_mem hlookup
    have hreplace :=
      @Keyed.mem_replace _ _ _ RDnsLookupCtx.id r.lookups (keptLookup l reqId) hmem x
    constructor
    · intro hx
      rcases hreplace.mp hx with heq | hother
      · exact .inr ⟨rfl, hopen, heq⟩
      · exact .inl hother
    · rintro (hother | ⟨-, -, heq⟩)
      · exact hreplace.mpr (.inr hother)
      · exact hreplace.mpr (.inl heq)
  · rw [leaveResolver_unlink r hover]
    have herase := @Keyed.mem_eraseP _ _ _ RDnsLookupCtx.id r.lookups l.id hnodup x
    constructor
    · intro hx
      exact .inl (herase.mp hx)
    · rintro (hother | ⟨hrc, hopen, -⟩)
      · exact herase.mpr hother
      · rcases hover with hne | hcompleted
        · exact absurd hrc hne
        · exact absurd (hopen.symm.trans hcompleted) (by simp)

theorem leaveResolver_nodup {r : RDnsRefresh} (hnodup : (r.lookups.map (·.id)).Nodup)
    (l : RDnsLookupCtx) (rc : Int) (reqId : UInt64) :
    ((leaveResolver r l rc reqId).lookups.map (·.id)).Nodup := by
  rcases leave_cases l rc with ⟨rfl, hopen⟩ | hover
  · rw [leaveResolver_keep r hopen]
    have hsame := @Keyed.map_key_replace _ _ _ RDnsLookupCtx.id r.lookups (keptLookup l reqId)
    exact hsame ▸ hnodup
  · rw [leaveResolver_unlink r hover]
    exact Keyed.nodup_eraseP hnodup

/-- What is unfinished after a resolver call has returned: all that was, without
    the lookup if the resolver refused it. -/
theorem unfinished_refuse {body : List LookupId} {outstanding : List Query} {lookup : LookupId}
    (hnot : lookup ∉ body) (rc : Int) :
    body ++ (refuse outstanding lookup rc).map (·.lookup) =
      if rc = 0 then body ++ outstanding.map (·.lookup)
      else (body ++ outstanding.map (·.lookup)).filter (· != lookup) := by
  unfold refuse
  by_cases hrc : rc = 0
  · rw [if_pos hrc, if_pos hrc]
  · rw [if_neg hrc, if_neg hrc, List.filter_append, List.filter_map]
    have hself : body.filter (· != lookup) = body := by
      apply List.filter_eq_self.mpr
      intro i hi
      simp only [bne_iff_ne, ne_eq]
      rintro rfl
      exact hnot hi
    rw [hself]
    rfl

theorem Inv.leave {s : State} {r : RDnsRefresh} {l : RDnsLookupCtx} (h : Inv s .foreign r)
    (hlookup : l ∈ r.lookups) {stack : List Frame} {control : Control}
    (hcalls : calls s.stack = l.id :: calls stack) (hlength : s.stack.length = stack.length + 1)
    (hcontrol : control.detaches = 0 ∧ control ≠ .foreign)
    (hperm : ((control.body ++ running stack) ++ s.outstanding.map (·.lookup)).Perm
      (s.unfinished .foreign))
    (hnot : l.id ∉ control.body ++ running stack)
    (hsingle : control.loops + (running stack).length ≤ (running s.stack).length) (rc : Int)
    (reqId : UInt64) {s' : State} (hstack : s'.stack = stack)
    (houtstanding : s'.outstanding = refuse s.outstanding l.id rc) (hnext : s'.nextId = s.nextId)
    (hphase : Phase s' control (leaveResolver r l rc reqId)) :
    Inv s' control (leaveResolver r l rc reqId) := by
  obtain ⟨hid, -, -, hpending, hscheduling⟩ := leaveResolver_fields r l rc reqId
  have hmem := fun x => @mem_leaveResolver r h.nodup l hlookup rc reqId x
  have honce := hperm.nodup_iff.mpr h.once
  have hopened : ∀ i, i ∈ (control.body ++ running stack) ++ s.outstanding.map (·.lookup) ↔
      ∃ x ∈ r.lookups, x.id = i ∧ x.completed = false := by
    intro i
    rw [hperm.mem_iff]
    exact h.opened i
  have hunfinished : s'.unfinished control =
      if rc = 0 then (control.body ++ running stack) ++ s.outstanding.map (·.lookup)
      else
        ((control.body ++ running stack) ++ s.outstanding.map (·.lookup)).filter (· != l.id) := by
    rw [← unfinished_refuse hnot rc]
    simp only [State.unfinished, hstack, houtstanding, List.append_assoc]
  generalize hU : (control.body ++ running stack) ++ s.outstanding.map (·.lookup) = unfinished
    at hperm honce hopened hunfinished
  have hin : ∀ i, i ∈ s'.unfinished control ↔ i ∈ unfinished ∧ (rc = 0 ∨ i ≠ l.id) := by
    intro i
    rw [hunfinished]
    by_cases hrc : rc = 0
    · simp [hrc]
    · simp [hrc]
  have hsole : ∀ x ∈ r.lookups, x.id = l.id → x = l := fun x hx =>
    Keyed.eq_of_key h.nodup hx hlookup
  constructor
  case nodup => exact leaveResolver_nodup h.nodup l rc reqId
  case fresh =>
    rw [hid, hnext]
    exact h.fresh
  case bound =>
    intro x hx
    rw [hnext]
    rcases (hmem x).mp hx with ⟨hx, -⟩ | ⟨-, -, rfl⟩
    · exact h.bound x hx
    · exact h.bound l hlookup
  case scheduling =>
    have hold := h.scheduling
    have hforeign : Control.foreign.detaches = 0 := rfl
    rw [hscheduling, hstack, hcontrol.1]
    omega
  case pending =>
    have hlen : r.pending = unfinished.length := by rw [h.pending, hperm.length_eq]
    rw [hpending, hunfinished, hlen]
    by_cases hrc : rc = 0
    · rw [if_pos hrc, if_neg (fun hrefused => hrefused.1 hrc)]
    · rw [if_neg hrc, ← honce.erase_eq_filter]
      cases hcompleted : l.completed with
      | false =>
        have hmem' : l.id ∈ unfinished := (hopened l.id).mpr ⟨l, hlookup, rfl, hcompleted⟩
        rw [if_pos ⟨hrc, rfl⟩, List.length_erase_of_mem hmem']
      | true =>
        have hnone : l.id ∉ unfinished := by
          intro hmem'
          obtain ⟨x, hx, hxid, hxopen⟩ := (hopened l.id).mp hmem'
          rw [hsole x hx hxid, hcompleted] at hxopen
          exact absurd hxopen (by simp)
        rw [if_neg (by simp), List.erase_of_not_mem hnone]
  case once =>
    rw [hunfinished]
    split
    · exact honce
    · exact honce.filter _
  case opened =>
    intro i
    rw [hin, hopened]
    constructor
    · rintro ⟨⟨x, hx, hxid, hxopen⟩, hstill⟩
      by_cases hxl : x.id = l.id
      · obtain rfl := hsole x hx hxl
        rcases hstill with hrc | hne
        · exact ⟨keptLookup x reqId, (hmem _).mpr (.inr ⟨hrc, hxopen, rfl⟩), hxid, hxopen⟩
        · exact absurd hxid.symm hne
      · exact ⟨x, (hmem x).mpr (.inl ⟨hx, hxl⟩), hxid, hxopen⟩
    · rintro ⟨x, hx, hxid, hxopen⟩
      rcases (hmem x).mp hx with ⟨hx, hne⟩ | ⟨hrc, hopen, rfl⟩
      · exact ⟨⟨x, hx, hxid, hxopen⟩, .inr (hxid ▸ hne)⟩
      · exact ⟨⟨l, hlookup, hxid, hopen⟩, .inl hrc⟩
  case called =>
    intro i
    have hold := h.called i
    have hseparate := h.separate
    rw [hcalls, List.mem_cons] at hold
    rw [hcalls, List.nodup_cons] at hseparate
    rw [hstack]
    constructor
    · intro hi
      obtain ⟨x, hx, hxid, hxcall⟩ := hold.mp (.inr hi)
      refine ⟨x, (hmem x).mpr (.inl ⟨hx, ?_⟩), hxid, hxcall⟩
      rw [hxid]
      rintro rfl
      exact hseparate.1 hi
    · rintro ⟨x, hx, hxid, hxcall⟩
      rcases (hmem x).mp hx with ⟨hx, hne⟩ | ⟨-, -, rfl⟩
      · rcases hold.mpr ⟨x, hx, hxid, hxcall⟩ with heq | hi
        · exact absurd (hxid.trans heq) hne
        · exact hi
      · exact absurd hxcall (by simp [keptLookup])
  case separate =>
    have hseparate := h.separate
    rw [hcalls, List.nodup_cons] at hseparate
    rw [hstack]
    exact hseparate.2
  case kept =>
    intro x hx hxcompleted
    rcases (hmem x).mp hx with ⟨hx, -⟩ | ⟨-, hopen, rfl⟩
    · exact h.kept x hx hxcompleted
    · exact absurd (hopen.symm.trans hxcompleted) (by simp)
  case unnamed =>
    intro x hx hxcall
    rcases (hmem x).mp hx with ⟨hx, -⟩ | ⟨-, -, rfl⟩
    · exact h.unnamed x hx hxcall
    · exact absurd hxcall (by simp [keptLookup])
  case single =>
    have hold := h.single
    have hforeign : Control.foreign.loops = 0 := rfl
    have hfewer : (refuse s.outstanding l.id rc).countP Query.isSrv ≤
        s.outstanding.countP Query.isSrv := by
      unfold refuse
      split
      · exact Nat.le_refl _
      · exact List.filter_sublist.countP_le
    simp only [State.srvCount, hstack, houtstanding] at hold ⊢
    omega
  case phase => exact hphase
  case alive => exact fun hforeign => absurd hforeign hcontrol.2

theorem Inv.leaveSrv {s : State} {r : RDnsRefresh} {l : RDnsLookupCtx} (h : Inv s .foreign r)
    (hlookup : l ∈ r.lookups) {stack : List Frame}
    (hstack : s.stack = .resolveSrv r.id l.id :: stack) (rc : Int) (reqId : UInt64) :
    Inv { s with stack := stack, refreshes := [leaveResolver r l rc reqId]
                 outstanding := refuse s.outstanding l.id rc } .settling
      (leaveResolver r l rc reqId) := by
  obtain ⟨hid, hset, hdetached, -, -⟩ := leaveResolver_fields r l rc reqId
  cases h.phase with
  | attached c hc hrefresh hinflight hset' hdet _ hattached =>
    obtain rfl := hattached.under_srv hstack
    refine h.leave hlookup (by rw [hstack]; rfl) (by rw [hstack]; rfl) ⟨rfl, by simp⟩ ?_
      (by simp [Control.body]) (by simp [Control.loops]) rc reqId rfl rfl rfl ?_
    · simp [State.unfinished, hstack, Control.body]
    · exact .attached c hc (by rw [hid]; exact hrefresh) hinflight (hset.trans hset')
        (hdetached.trans hdet) (by simp) (.idle .empty)
  | detaching _ _ _ _ _ _ hcontrol => exact absurd hcontrol (by simp)
  | cancelling _ _ _ _ _ _ _ _ _ _ hcancel =>
    exact absurd (List.cons.inj (hstack.symm.trans hcancel)).1 (by simp)
  | gone _ _ _ _ hidle => exact (hidle.no_srv hstack).elim

theorem Inv.leaveAddrs {s : State} {r : RDnsRefresh} {l : RDnsLookupCtx} (h : Inv s .foreign r)
    (hlookup : l ∈ r.lookups) {stack : List Frame} {srv : LookupId} {rest : List RSrvRecord}
    {minTtlMs : UInt64} (hstack : s.stack = .resolveAddrs r.id l.id srv rest minTtlMs :: stack)
    (rc : Int) (reqId : UInt64) :
    Inv { s with stack := stack, refreshes := [leaveResolver r l rc reqId]
                 outstanding := refuse s.outstanding l.id rc } (.srvLoop srv rest minTtlMs)
      (leaveResolver r l rc reqId) := by
  obtain ⟨hid, hset, hdetached, -, -⟩ := leaveResolver_fields r l rc reqId
  have hleave : running stack = [] → l.id ≠ srv →
      Phase { s with stack := stack, refreshes := [leaveResolver r l rc reqId]
                     outstanding := refuse s.outstanding l.id rc } (.srvLoop srv rest minTtlMs)
        (leaveResolver r l rc reqId) →
      Inv { s with stack := stack, refreshes := [leaveResolver r l rc reqId]
                   outstanding := refuse s.outstanding l.id rc } (.srvLoop srv rest minTtlMs)
        (leaveResolver r l rc reqId) := by
    intro hrunning hne hphase
    refine h.leave hlookup (by rw [hstack]; rfl) (by rw [hstack]; rfl) ⟨rfl, by simp⟩ ?_
      (by simp [Control.body, hrunning, hne]) (by rw [hstack]; simp [Control.loops, hrunning])
      rc reqId rfl rfl rfl hphase
    rw [State.unfinished, hstack]
    simp [Control.body]
  cases h.phase with
  | attached c hc hrefresh hinflight hset' hdet _ hattached =>
    obtain ⟨hunder, hrunning, hne⟩ := hattached.under_addrs hstack
    exact hleave hrunning hne (.attached c hc (by rw [hid]; exact hrefresh) hinflight
      (hset.trans hset') (hdetached.trans hdet) (by simp) (by rw [hid]; exact hunder))
  | detaching _ _ _ _ _ _ hcontrol => exact absurd hcontrol (by simp)
  | cancelling _ _ _ _ _ _ _ _ _ _ hcancel =>
    exact absurd (List.cons.inj (hstack.symm.trans hcancel)).1 (by simp)
  | gone hc hset' hdet _ hidle =>
    obtain ⟨-, hrunning, hne⟩ := (Attached.idle hidle).under_addrs hstack
    obtain rfl := hidle.under_addrs hstack
    exact hleave hrunning hne (.gone hc (hset.trans hset') (hdetached.trans hdet) (by simp) .empty)

/-! ### The start and the end of a refresh -/

theorem ok_start {s : State} (h : Ok s .foreign) {c : DnsClient} (hnone : s.refreshes = []) :
    Ok (enterResolver
        { s with
          client := some
            { c with
              membership := { c.membership with dnsRefreshInflight := true }
              dnsRefresh := some s.nextId }
          refreshes := [newRefresh s.nextId] }
        (newRefresh s.nextId) (newLookup (s.nextId + 1) 0 0 false) (.srv (s.nextId + 1))
        (.resolveSrv s.nextId (s.nextId + 1))) .foreign := by
  cases h with
  | live hlive => exact absurd (hlive.symm.trans hnone) (by simp)
  | none _ hstack houtstanding _ =>
    rw [enterResolver_single rfl]
    refine .live rfl ?_
    constructor
    case phase =>
      refine .attached _ rfl rfl rfl rfl rfl (by simp) ?_
      rw [hstack]
      exact .srv (s.nextId + 1) .empty
    case fresh => exact Nat.lt_succ_of_lt (Nat.lt_succ_self _)
    case opened =>
      intro i
      simp only [State.unfinished, Control.body, Query.lookup, newRefresh, newLookup, hstack,
        houtstanding, running_srv, running_nil, List.map_cons, List.map_nil, List.nil_append,
        List.mem_singleton, exists_eq_left, and_true]
      exact eq_comm
    case called =>
      intro i
      simp only [newRefresh, newLookup, hstack, calls_srv, calls_nil, List.mem_singleton,
        exists_eq_left, and_true]
      exact eq_comm
    all_goals simp [State.unfinished, State.srvCount, Control.body, Control.loops,
      Control.detaches, Query.lookup, Query.isSrv, newRefresh, newLookup, hstack, houtstanding]

/-- With both counters at zero nothing refers to the refresh any more. -/
theorem Inv.quiet {s : State} {r : RDnsRefresh} (h : Inv s .settling r) (hpending : r.pending = 0)
    (hscheduling : r.scheduling = 0) : s.stack = [] ∧ s.outstanding = [] := by
  have hstack := h.scheduling
  have hunfinished := h.pending
  rw [hscheduling] at hstack
  rw [hpending] at hunfinished
  constructor
  · exact List.eq_nil_of_length_eq_zero (by omega)
  · have hnil := List.eq_nil_of_length_eq_zero hunfinished.symm
    exact List.map_eq_nil_iff.mp (List.append_eq_nil_iff.mp (List.append_eq_nil_iff.mp hnil).2).2

theorem Inv.install {s : State} {r : RDnsRefresh} (h : Inv s .settling r) (hpending : r.pending = 0)
    (hscheduling : r.scheduling = 0) (hattached : r.detached = false) {c : DnsClient}
    (hclient : s.client = some c) (nowMs : UInt64) :
    Ok { s with refreshes := [], client := some (installEndpoints c r nowMs) } .foreign := by
  obtain ⟨hstack, houtstanding⟩ := h.quiet hpending hscheduling
  refine .none rfl hstack houtstanding ?_
  intro c' hc'
  obtain rfl := Option.some.inj hc'
  cases h.phase with
  | attached c' hc' hrefresh =>
    obtain rfl := Option.some.inj (hclient.symm.trans hc')
    exact ⟨if_pos hrefresh, rfl⟩
  | detaching _ _ _ _ _ hdet => exact absurd (hattached.symm.trans hdet) (by simp)
  | cancelling _ _ _ _ _ hdet => exact absurd (hattached.symm.trans hdet) (by simp)
  | gone _ _ hdet => exact absurd (hattached.symm.trans hdet) (by simp)

theorem Inv.drop {s : State} {r : RDnsRefresh} (h : Inv s .settling r) (hpending : r.pending = 0)
    (hscheduling : r.scheduling = 0) (hdetached : r.detached = true) :
    Ok { s with refreshes := [] } .foreign := by
  obtain ⟨hstack, houtstanding⟩ := h.quiet hpending hscheduling
  refine .none rfl hstack houtstanding ?_
  intro c hc
  cases h.phase with
  | attached _ _ _ _ _ hdet => exact absurd (hdetached.symm.trans hdet) (by simp)
  | detaching _ _ _ _ _ _ hcontrol => exact absurd hcontrol (by simp)
  | cancelling _ _ _ _ _ _ _ _ _ _ hcancel => exact absurd (hstack.symm.trans hcancel) (by simp)
  | gone hnone => exact absurd (hnone.symm.trans hc) (by simp)

/-! ### Destruction -/

theorem Inv.detach {s : State} {r : RDnsRefresh} (h : Inv s .foreign r) {c : DnsClient}
    (hclient : s.client = some c) (hrefresh : c.dnsRefresh = some r.id) (hidle : s.idle) :
    Inv { s with
          refreshes := [{ r with detached := true, scheduling := r.scheduling + 1 }]
          client := some c.forgetRefresh } .detaching
      { r with detached := true, scheduling := r.scheduling + 1 } := by
  have hphase : r.client = true ∧ Idle r.id s.stack := by
    cases h.phase with
    | attached _ _ _ _ hset _ _ hattached => exact ⟨hset, hattached.idle_of hidle⟩
    | detaching _ _ _ _ _ _ hcontrol => exact absurd hcontrol (by simp)
    | cancelling c' hc' hnone =>
      obtain rfl := Option.some.inj (hclient.symm.trans hc')
      exact absurd (hrefresh.symm.trans hnone) (by simp)
    | gone hnone => exact absurd (hclient.symm.trans hnone) (by simp)
  refine h.move rfl rfl rfl rfl rfl (.refl _) (Nat.le_refl _) ?_
    (.detaching _ rfl rfl rfl hphase.1 rfl rfl hphase.2) (by simp)
  have hold := h.scheduling
  simp only [Control.detaches, Nat.add_zero] at hold ⊢
  rw [hold]

/-- Inside `r_dns_refresh_detach` the client is still there and knows no refresh. -/
theorem Inv.detaching_client {s : State} {r : RDnsRefresh} (h : Inv s .detaching r) :
    ∃ c, s.client = some c ∧ c.dnsRefresh = none ∧ c.membership.dnsRefreshInflight = false ∧
      r.client = true ∧ r.detached = true ∧ Idle r.id s.stack := by
  cases h.phase with
  | attached _ _ _ _ _ _ hcontrol => exact absurd rfl hcontrol
  | detaching c hc hrefresh hinflight hset hdet _ hidle =>
    exact ⟨c, hc, hrefresh, hinflight, hset, hdet, hidle⟩
  | cancelling _ _ _ _ _ _ hcontrol => exact absurd rfl hcontrol.1
  | gone _ _ _ hcontrol => exact absurd rfl hcontrol

theorem Inv.cancel {s : State} {r : RDnsRefresh} (h : Inv s .detaching r)
    {pre rest : List RDnsLookupCtx} {l : RDnsLookupCtx} (hlookups : r.lookups = pre ++ l :: rest) :
    Inv { s with stack := .cancel r.id l.id (rest.head?.map (·.id)) :: s.stack } .foreign r := by
  obtain ⟨c, hc, hrefresh, hinflight, hset, hdet, hidle⟩ := h.detaching_client
  have hscheduling := h.scheduling
  simp only [Control.detaches] at hscheduling
  refine h.move rfl rfl rfl rfl rfl (.refl _) (Nat.le_refl _)
    (by simpa [Control.detaches] using hscheduling) ?_ (fun _ => .inr (by omega))
  refine .cancelling c hc hrefresh hinflight hset hdet ⟨by simp, rfl⟩ l.id _ s.stack rfl hidle ?_
    (by simp [Control.body])
  intro n hn
  obtain ⟨x, hx, hxid⟩ := Option.map_eq_some_iff.mp hn
  have hxrest : x ∈ rest := List.mem_of_head? hx
  have hnodup := h.nodup
  rw [hlookups, List.map_append, List.map_cons] at hnodup
  have htail := (List.nodup_cons.mp (List.nodup_append.mp hnodup).2.1).1
  rw [← hxid]
  constructor
  · intro heq
    exact htail (heq ▸ List.mem_map_of_mem hxrest)
  · rw [hlookups]
    exact List.mem_map_of_mem (List.mem_append_right _ (List.mem_cons_of_mem _ hxrest))

/-- What is known while `cancel` is on the stack. -/
theorem Inv.cancelling_client {s : State} {control : Control} {r : RDnsRefresh}
    (h : Inv s control r) {id : RefreshId} {lookup : LookupId} {next : Option LookupId}
    {stack : List Frame} (hstack : s.stack = .cancel id lookup next :: stack) :
    ∃ c, s.client = some c ∧ c.dnsRefresh = none ∧ c.membership.dnsRefreshInflight = false ∧
      r.client = true ∧ r.detached = true ∧ Idle r.id stack ∧ id = r.id ∧
      ∀ n, next = some n → n ∈ r.lookups.map (·.id) := by
  have hmem : Frame.cancel id lookup next ∈ s.stack := by
    rw [hstack]
    exact List.mem_cons_self
  cases h.phase with
  | attached _ _ _ _ _ _ _ hattached => exact absurd hmem hattached.no_cancel
  | detaching _ _ _ _ _ _ _ hidle => exact absurd hmem hidle.no_cancel
  | cancelling c hc hrefresh hinflight hset hdet _ lookup' next' stack' hstack' hidle hnext =>
    obtain ⟨hframe, rfl⟩ := List.cons.inj (hstack.symm.trans hstack')
    injection hframe with hid _ hlink
    subst hlink
    exact ⟨c, hc, hrefresh, hinflight, hset, hdet, hidle, hid, fun n hn => (hnext n hn).2⟩
  | gone _ _ _ _ hidle => exact absurd hmem hidle.no_cancel

theorem Inv.cancelled {s : State} {r : RDnsRefresh} (h : Inv s .foreign r) {id : RefreshId}
    {lookup : LookupId} {next : Option LookupId} {stack : List Frame}
    (hstack : s.stack = .cancel id lookup next :: stack) :
    Inv { s with stack := stack } .detaching r := by
  obtain ⟨c, hc, hrefresh, hinflight, hset, hdet, hidle, -, -⟩ := h.cancelling_client hstack
  refine h.move rfl rfl rfl rfl (by rw [hstack]; rfl) ?_ ?_ ?_
    (.detaching c hc hrefresh hinflight hset hdet rfl hidle) (by simp)
  · simp [State.unfinished, hstack, Control.body]
  · simp [State.srvCount, hstack, Control.loops]
  · have hold := h.scheduling
    rw [hstack] at hold
    simpa [Control.detaches] using hold

theorem Inv.release {s : State} {r : RDnsRefresh} (h : Inv s .detaching r) :
    Inv { s with
          refreshes := [{ r with scheduling := r.scheduling - 1, client := false }]
          client := none } .settling
      { r with scheduling := r.scheduling - 1, client := false } := by
  obtain ⟨_, _, _, _, _, hdet, hidle⟩ := h.detaching_client
  refine h.move rfl rfl rfl rfl rfl (.refl _) (Nat.le_refl _) ?_
    (.gone rfl rfl hdet (by simp) hidle) (by simp)
  have hold := h.scheduling
  simp only [Control.detaches] at hold ⊢
  omega

/-! ### Every piece keeps the invariant -/

/-- The loop of `r_dns_srv_cb_fn` goes on, or ends. -/
theorem Inv.loop {s s' : State} {r r' : RDnsRefresh} {lookup : LookupId} {rest : List RSrvRecord}
    {minTtlMs : UInt64} {control : Control} (h : Inv s (.srvLoop lookup rest minTtlMs) r)
    (hsame : SameRefresh r r') (hclient : s'.client = s.client) (hstack : s'.stack = s.stack)
    (houtstanding : s'.outstanding = s.outstanding) (hnext : s'.nextId = s.nextId)
    (hbody : control.body = [lookup]) (hloops : control.loops ≤ 1)
    (hdetaches : control.detaches = 0)
    (hcontrol : control ≠ .foreign ∧ control ≠ .detaching) : Inv s' control r' := by
  refine h.congr hsame hstack hnext hdetaches ?_ ?_ ?_ (fun hforeign => absurd hforeign hcontrol.1)
  · simp only [State.unfinished, hstack, houtstanding, hbody]
    exact .refl _
  · simp only [State.srvCount, hstack, houtstanding]
    have hold : (Control.srvLoop lookup rest minTtlMs).loops = 1 := rfl
    omega
  · refine h.phase.congr hsame hclient hstack (iff_of_false (by simp) hcontrol.2)
      (fun hzero => absurd hzero (by simp [Control.loops])) ?_
    intro id cancelled next stack hcancel
    cases h.phase with
    | cancelling _ _ _ _ _ _ hcontrol' => exact absurd hcontrol'.2 (by simp [Control.loops])
    | attached _ _ _ _ _ _ _ hattached =>
      exact absurd (hcancel ▸ List.mem_cons_self) hattached.no_cancel
    | detaching _ _ _ _ _ _ hcontrol' => exact absurd hcontrol' (by simp)
    | gone _ _ _ _ hidle => exact absurd (hcancel ▸ List.mem_cons_self) hidle.no_cancel

theorem Micro.ok {failed : Bool} {nowMs : UInt64} {s s' : State} {control control' : Control}
    {effects : List Effect} (h : Ok s control)
    (hmicro : Micro failed nowMs s control effects s' control') : Ok s' control' := by
  cases hmicro with
  | start _ _ hnone => exact ok_start h hnone
  | spare hclient _ hnone =>
    cases h with
    | live hlive => exact absurd (hlive.symm.trans hnone) (by simp)
    | none _ hstack houtstanding _ =>
      refine .none hnone hstack houtstanding ?_
      intro c hc
      obtain rfl := Option.some.inj hc
      exact ⟨rfl, rfl⟩
  | srvCall status records hlive hquery hmay =>
    exact .live hlive ((ok_live h hlive).srvCall hquery hmay status records)
  | addrCall status addrs allocs _ hlive hquery hmay _ =>
    exact .live rfl ((ok_live h hlive).addrCall hquery hmay status addrs allocs)
  | skip =>
    cases h with
    | live hlive hinv =>
      exact .live hlive (hinv.loop (.refl _) rfl rfl rfl rfl rfl (Nat.le_refl _) rfl (by simp))
  | pass hlive =>
    exact .live hlive ((ok_live h hlive).loop (.refl _) rfl rfl rfl rfl rfl (Nat.le_refl _) rfl
      (by simp))
  | enter _ hlive hattached =>
    rw [enterResolver_single hlive]
    exact .live rfl ((ok_live h hlive).enter hattached _ rfl rfl rfl rfl _)
  | endLoop hlive =>
    exact .live rfl ((ok_live h hlive).loop ⟨rfl, rfl, rfl, rfl, rfl, rfl⟩ rfl rfl rfl rfl rfl
      (Nat.zero_le _) rfl (by simp))
  | complete hlive hlookup => exact .live rfl ((ok_live h hlive).complete hlookup)
  | leaveSrv rc reqId hlive hlookup hstack =>
    exact .live rfl ((ok_live h hlive).leaveSrv hlookup hstack rc reqId)
  | leaveAddrs rc reqId hlive hlookup hstack =>
    exact .live rfl ((ok_live h hlive).leaveAddrs hlookup hstack rc reqId)
  | stay hlive hcounts =>
    have hinv := ok_live h hlive
    refine .live hlive (hinv.congr (.refl _) rfl rfl rfl (.refl _) (Nat.le_refl _) ?_
      (fun _ => hcounts))
    exact hinv.phase.congr (.refl _) rfl rfl (iff_of_false (by simp) (by simp)) (fun _ _ _ => rfl)
      (by simp [Control.body])
  | install hlive hpending hscheduling hattached _ hclient =>
    exact (ok_live h hlive).install hpending hscheduling hattached hclient nowMs
  | drop hlive hpending hscheduling hdetached =>
    exact (ok_live h hlive).drop hpending hscheduling hdetached
  | detach hlive hclient hrefresh hidle =>
    exact .live rfl ((ok_live h hlive).detach hclient hrefresh hidle)
  | cancel hlive hlookups => exact .live hlive ((ok_live h hlive).cancel hlookups)
  | cancelled hstack =>
    cases h with
    | none _ hempty => exact absurd (hempty.symm.trans hstack) (by simp)
    | live hlive hinv => exact .live hlive (hinv.cancelled hstack)
  | release hlive => exact .live rfl (ok_live h hlive).release
  | destroy hclient hrefresh hidle =>
    cases h with
    | none hrefreshes hstack houtstanding _ => exact .none hrefreshes hstack houtstanding (by simp)
    | live hlive hinv =>
      -- a refresh that the client does not know is being detached or has been
      exfalso
      cases hinv.phase with
      | attached c hc hknown =>
        obtain rfl := Option.some.inj (hclient.symm.trans hc)
        exact absurd (hknown.symm.trans hrefresh) (by simp)
      | detaching _ _ _ _ _ _ hcontrol => exact absurd hcontrol (by simp)
      | cancelling _ _ _ _ _ _ _ _ _ _ hcancel =>
        obtain ⟨_, _, _, _, _, hframe⟩ := hidle _ (hcancel ▸ List.mem_cons_self)
        exact absurd hframe (by simp)
      | gone hnone => exact absurd (hclient.symm.trans hnone) (by simp)

end RlClient.Refresh
