import RlClient.RefreshChains

/-!
# The counters of a refresh

What a run says about a refresh is compared with the counters the code keeps: the
trace lists the lookups that were handed to the resolver and the points at which
one is completed or a refresh is freed. A piece of a step extends this ledger in
one of the ways of `Entry`; the ledger then agrees with the refresh in every state
of every run.
-/

namespace RlClient.Refresh

/-! ### The ledger -/

def scheduledLookups (id : RefreshId) (trace : List Effect) : List LookupId :=
  trace.filterMap fun
    | .resolveSrv refresh lookup => if refresh = id then some lookup else none
    | .resolveAddrs refresh lookup _ => if refresh = id then some lookup else none
    | _ => none

def completedLookups (id : RefreshId) (trace : List Effect) : List LookupId :=
  trace.filterMap fun
    | .completed refresh lookup => if refresh = id then some lookup else none
    | _ => none

def openLookups (id : RefreshId) (trace : List Effect) : List LookupId :=
  (scheduledLookups id trace).filter (· ∉ completedLookups id trace)

def NothingAfterFree (trace : List Effect) : Prop :=
  trace.Pairwise fun first later => ∀ r, first = .freed r → later.refresh ≠ r.id

/-- A lookup that the refresh still waits for. -/
def RDnsRefresh.Waits (r : RDnsRefresh) (i : LookupId) : Prop :=
  ∃ l ∈ r.lookups, l.id = i ∧ l.completed = false

/-- What one piece writes into the ledger. -/
inductive Entry (s s' : State) : List Effect → Prop
  | nothing (hnone : s.refreshes = []) (hnone' : s'.refreshes = []) : Entry s s' []
  | spare (hnone : s.refreshes = []) (hnone' : s'.refreshes = []) (hnext : s.nextId < s'.nextId) :
      Entry s s' [.freed (newRefresh s.nextId)]
  | started {r' : RDnsRefresh} {lookup : LookupId} (hnone : s.refreshes = [])
      (hlive' : s'.refreshes = [r']) (hid : r'.id = s.nextId) (hfresh : s.nextId ≤ lookup)
      (hnew : lookup < s'.nextId) (hwaits : ∀ i, r'.Waits i ↔ i = lookup) :
      Entry s s' [.resolveSrv s.nextId lookup]
  | noted {r r' : RDnsRefresh} {effects : List Effect} (hlive : s.refreshes = [r])
      (hlive' : s'.refreshes = [r']) (hid : r'.id = r.id) (hwaits : ∀ i, r'.Waits i ↔ r.Waits i)
      (hrefresh : ∀ e ∈ effects, e.refresh = r.id) (hfreed : ∀ r₁, .freed r₁ ∉ effects)
      (hscheduled : ∀ id, scheduledLookups id effects = [])
      (hcompleted : ∀ id, completedLookups id effects = []) : Entry s s' effects
  | scheduled {r r' : RDnsRefresh} {lookup : LookupId} {record : RSrvRecord}
      (hlive : s.refreshes = [r]) (hlive' : s'.refreshes = [r']) (hid : r'.id = r.id)
      (hfresh : s.nextId ≤ lookup) (hnew : lookup < s'.nextId)
      (hwaits : ∀ i, r'.Waits i ↔ i = lookup ∨ r.Waits i) :
      Entry s s' [.resolveAddrs r.id lookup record]
  | completed {r r' : RDnsRefresh} {lookup : LookupId} (hlive : s.refreshes = [r])
      (hlive' : s'.refreshes = [r']) (hid : r'.id = r.id) (hopen : r.Waits lookup)
      (hwaits : ∀ i, r'.Waits i ↔ r.Waits i ∧ i ≠ lookup) :
      Entry s s' [.completed r.id lookup]
  | freed {r : RDnsRefresh} (hlive : s.refreshes = [r]) (hnone' : s'.refreshes = [])
      (hpending : r.pending = 0) (hscheduling : r.scheduling = 0) : Entry s s' [.freed r]

/-- The ledger agrees with the state. -/
structure Ledger (s : State) (trace : List Effect) : Prop where
  known : ∀ e ∈ trace, e.refresh < s.nextId
  fresh : ∀ id, ∀ i ∈ scheduledLookups id trace, i < s.nextId
  once : ∀ id, (scheduledLookups id trace).Nodup
  sound : ∀ id, ∀ i ∈ completedLookups id trace, i ∈ scheduledLookups id trace
  waits : ∀ r ∈ s.refreshes, ∀ i, r.Waits i ↔ i ∈ openLookups r.id trace
  settled : ∀ r, .freed r ∈ trace →
    r.pending = 0 ∧ r.scheduling = 0 ∧ ∀ r' ∈ s.refreshes, r'.id ≠ r.id
  order : NothingAfterFree trace
  accounted : ∀ id lookup, .resolveSrv id lookup ∈ trace →
    (∃ r ∈ s.refreshes, r.id = id) ∨ ∃ r, .freed r ∈ trace ∧ r.id = id

theorem scheduledLookups_append (id : RefreshId) (trace effects : List Effect) :
    scheduledLookups id (trace ++ effects) =
      scheduledLookups id trace ++ scheduledLookups id effects :=
  List.filterMap_append

theorem completedLookups_append (id : RefreshId) (trace effects : List Effect) :
    completedLookups id (trace ++ effects) =
      completedLookups id trace ++ completedLookups id effects :=
  List.filterMap_append

theorem scheduledLookups_srv (id refresh : RefreshId) (lookup : LookupId) :
    scheduledLookups id [.resolveSrv refresh lookup] = if refresh = id then [lookup] else [] := by
  by_cases hid : refresh = id <;> simp [scheduledLookups, hid]

theorem scheduledLookups_addrs (id refresh : RefreshId) (lookup : LookupId) (record : RSrvRecord) :
    scheduledLookups id [.resolveAddrs refresh lookup record] =
      if refresh = id then [lookup] else [] := by
  by_cases hid : refresh = id <;> simp [scheduledLookups, hid]

theorem completedLookups_completed (id refresh : RefreshId) (lookup : LookupId) :
    completedLookups id [.completed refresh lookup] = if refresh = id then [lookup] else [] := by
  by_cases hid : refresh = id <;> simp [completedLookups, hid]

theorem mem_openLookups {id : RefreshId} {trace : List Effect} {i : LookupId} :
    i ∈ openLookups id trace ↔ i ∈ scheduledLookups id trace ∧ i ∉ completedLookups id trace := by
  simp [openLookups]

/-- A lookup that the trace mentions as scheduled or completed belongs to an effect
    of that refresh. -/
theorem scheduledLookups_eq_nil {id : RefreshId} {trace : List Effect}
    (hnone : ∀ e ∈ trace, e.refresh ≠ id) : scheduledLookups id trace = [] := by
  unfold scheduledLookups
  rw [List.filterMap_eq_nil_iff]
  intro e he
  have hne := hnone e he
  cases e with
  | resolveSrv refresh lookup => exact if_neg hne
  | resolveAddrs refresh lookup record => exact if_neg hne
  | _ => rfl

theorem completedLookups_eq_nil {id : RefreshId} {trace : List Effect}
    (hnone : ∀ e ∈ trace, e.refresh ≠ id) : completedLookups id trace = [] := by
  unfold completedLookups
  rw [List.filterMap_eq_nil_iff]
  intro e he
  have hne := hnone e he
  cases e with
  | completed refresh lookup => exact if_neg hne
  | _ => rfl

/-! ### A piece extends the ledger -/

/-- The effects of an entry are about the live refresh or about a new one. -/
theorem Entry.refresh {s s' : State} {effects : List Effect} (h : Entry s s' effects) :
    ∀ e ∈ effects, (∃ r ∈ s.refreshes, e.refresh = r.id) ∨
      e.refresh = s.nextId ∧ s.nextId < s'.nextId := by
  intro e he
  cases h with
  | nothing => exact absurd he List.not_mem_nil
  | spare _ _ hnext =>
    obtain rfl := List.mem_singleton.mp he
    exact .inr ⟨rfl, hnext⟩
  | started _ _ _ hfresh hnew =>
    obtain rfl := List.mem_singleton.mp he
    exact .inr ⟨rfl, Nat.lt_of_le_of_lt hfresh hnew⟩
  | noted hlive _ _ _ hrefresh =>
    exact .inl ⟨_, by rw [hlive]; exact List.mem_cons_self, hrefresh e he⟩
  | scheduled hlive =>
    obtain rfl := List.mem_singleton.mp he
    exact .inl ⟨_, by rw [hlive]; exact List.mem_cons_self, rfl⟩
  | completed hlive =>
    obtain rfl := List.mem_singleton.mp he
    exact .inl ⟨_, by rw [hlive]; exact List.mem_cons_self, rfl⟩
  | freed hlive =>
    obtain rfl := List.mem_singleton.mp he
    exact .inl ⟨_, by rw [hlive]; exact List.mem_cons_self, rfl⟩

/-- Within one entry nothing follows a `freed`. -/
theorem Entry.order {s s' : State} {effects : List Effect} (h : Entry s s' effects) :
    NothingAfterFree effects := by
  unfold NothingAfterFree
  cases h with
  | nothing => exact .nil
  | noted _ _ _ _ _ hfreed =>
    refine List.pairwise_of_forall_mem_list ?_
    rintro first hfirst later _ r rfl
    exact absurd hfirst (hfreed r)
  | _ => exact List.pairwise_singleton _ _

/-- The lookups that an entry schedules are new. -/
theorem Entry.scheduled_new {s s' : State} {effects : List Effect} (h : Entry s s' effects)
    (id : RefreshId) :
    (scheduledLookups id effects).Nodup ∧
      ∀ i ∈ scheduledLookups id effects, s.nextId ≤ i ∧ i < s'.nextId := by
  have hsingle : ∀ {refresh : RefreshId} {lookup : LookupId}, s.nextId ≤ lookup →
      lookup < s'.nextId → (if refresh = id then [lookup] else []).Nodup ∧
        ∀ i ∈ (if refresh = id then [lookup] else []), s.nextId ≤ i ∧ i < s'.nextId := by
    intro refresh lookup hfresh hnew
    split
    · refine ⟨List.nodup_singleton lookup, ?_⟩
      intro i hi
      obtain rfl := List.mem_singleton.mp hi
      exact ⟨hfresh, hnew⟩
    · exact ⟨.nil, by simp⟩
  cases h with
  | noted _ _ _ _ _ _ hscheduled => rw [hscheduled]; exact ⟨.nil, by simp⟩
  | started _ _ _ hfresh hnew =>
    rw [scheduledLookups_srv]
    exact hsingle hfresh hnew
  | scheduled _ _ _ hfresh hnew =>
    rw [scheduledLookups_addrs]
    exact hsingle hfresh hnew
  | _ => exact ⟨.nil, by simp [scheduledLookups]⟩

/-- A live refresh was there before or is the new one. -/
theorem Entry.kept {s s' : State} {effects : List Effect} (h : Entry s s' effects) :
    ∀ r' ∈ s'.refreshes, (∃ r ∈ s.refreshes, r'.id = r.id) ∨ r'.id = s.nextId := by
  intro r' hr'
  cases h with
  | nothing _ hnone' => exact absurd hr' (by simp [hnone'])
  | spare _ hnone' => exact absurd hr' (by simp [hnone'])
  | freed _ hnone' => exact absurd hr' (by simp [hnone'])
  | started _ hlive' hid =>
    rw [hlive'] at hr'
    obtain rfl := List.mem_singleton.mp hr'
    exact .inr hid
  | noted hlive hlive' hid | scheduled hlive hlive' hid | completed hlive hlive' hid =>
    rw [hlive'] at hr'
    obtain rfl := List.mem_singleton.mp hr'
    exact .inl ⟨_, by rw [hlive]; exact List.mem_cons_self, hid⟩

/-- A refresh stays live until it is freed. -/
theorem Entry.lost {s s' : State} {effects : List Effect} (h : Entry s s' effects) :
    ∀ r ∈ s.refreshes, (∃ r' ∈ s'.refreshes, r'.id = r.id) ∨ .freed r ∈ effects := by
  intro r hr
  cases h with
  | nothing hnone | spare hnone | started hnone => exact absurd hr (by simp [hnone])
  | freed hlive =>
    rw [hlive] at hr
    obtain rfl := List.mem_singleton.mp hr
    exact .inr List.mem_cons_self
  | noted hlive hlive' hid | scheduled hlive hlive' hid | completed hlive hlive' hid =>
    rw [hlive] at hr
    obtain rfl := List.mem_singleton.mp hr
    exact .inl ⟨_, by rw [hlive']; exact List.mem_cons_self, hid⟩

/-- An entry agrees with the ledger on what the refresh waits for. -/
theorem Ledger.waits_entry {s s' : State} {trace effects : List Effect} (h : Ledger s trace)
    (hentry : Entry s s' effects) :
    ∀ r' ∈ s'.refreshes, ∀ i, r'.Waits i ↔ i ∈ openLookups r'.id (trace ++ effects) := by
  intro r' hr' i
  rw [mem_openLookups, scheduledLookups_append, completedLookups_append]
  cases hentry with
  | nothing _ hnone' => exact absurd hr' (by simp [hnone'])
  | spare _ hnone' => exact absurd hr' (by simp [hnone'])
  | freed _ hnone' => exact absurd hr' (by simp [hnone'])
  | started _ hlive' hid _ _ hwaits =>
    rw [hlive'] at hr'
    obtain rfl := List.mem_singleton.mp hr'
    -- the trace does not know the new refresh
    have hunknown : ∀ e ∈ trace, e.refresh ≠ r'.id := by
      intro e he
      exact Nat.ne_of_lt (hid ▸ h.known e he)
    rw [hwaits, scheduledLookups_eq_nil hunknown, completedLookups_eq_nil hunknown,
      scheduledLookups_srv, if_pos hid.symm]
    simp [completedLookups]
  | @noted r _ _ hlive hlive' hid hwaits _ _ hscheduled hcompleted =>
    rw [hlive'] at hr'
    obtain rfl := List.mem_singleton.mp hr'
    rw [hwaits, hscheduled, hcompleted, List.append_nil, List.append_nil, hid,
      h.waits r (by simp [hlive]), mem_openLookups]
  | @scheduled r _ lookup record hlive hlive' hid hfresh hnew hwaits =>
    rw [hlive'] at hr'
    obtain rfl := List.mem_singleton.mp hr'
    have hnot : lookup ∉ scheduledLookups r.id trace := by
      intro hmem
      exact absurd (h.fresh r.id lookup hmem) (Nat.not_lt.mpr hfresh)
    rw [hwaits, h.waits r (by simp [hlive]), mem_openLookups, hid, scheduledLookups_addrs,
      if_pos rfl]
    simp only [completedLookups, List.filterMap_cons, List.filterMap_nil, List.append_nil,
      List.mem_append, List.mem_singleton]
    constructor
    · rintro (rfl | ⟨hold, hopen⟩)
      · exact ⟨.inr rfl, fun hdone => hnot (h.sound r.id _ hdone)⟩
      · exact ⟨.inl hold, hopen⟩
    · rintro ⟨hold | hnewest, hopen⟩
      · exact .inr ⟨hold, hopen⟩
      · exact .inl hnewest
  | @completed r _ lookup hlive hlive' hid _ hwaits =>
    rw [hlive'] at hr'
    obtain rfl := List.mem_singleton.mp hr'
    rw [hwaits, h.waits r (by simp [hlive]), mem_openLookups, hid, completedLookups_completed,
      if_pos rfl]
    simp [scheduledLookups, and_assoc]

/-- **A piece keeps the ledger.** -/
theorem Ledger.entry {s s' : State} {trace effects : List Effect} (h : Ledger s trace)
    (hentry : Entry s s' effects) (hnext : s.nextId ≤ s'.nextId)
    (hbound : ∀ r ∈ s.refreshes, r.id < s.nextId) : Ledger s' (trace ++ effects) where
  known := by
    intro e he
    rcases List.mem_append.mp he with hold | hnew
    · exact Nat.lt_of_lt_of_le (h.known e hold) hnext
    · rcases hentry.refresh e hnew with ⟨r, hr, hid⟩ | ⟨hid, hlt⟩
      · exact hid ▸ Nat.lt_of_lt_of_le (hbound r hr) hnext
      · exact hid ▸ hlt
  fresh := by
    intro id i hi
    rw [scheduledLookups_append] at hi
    rcases List.mem_append.mp hi with hold | hnew
    · exact Nat.lt_of_lt_of_le (h.fresh id i hold) hnext
    · exact ((hentry.scheduled_new id).2 i hnew).2
  once := by
    intro id
    rw [scheduledLookups_append]
    refine List.nodup_append.mpr ⟨h.once id, (hentry.scheduled_new id).1, ?_⟩
    intro i hi j hj
    exact Nat.ne_of_lt (Nat.lt_of_lt_of_le (h.fresh id i hi) ((hentry.scheduled_new id).2 j hj).1)
  sound := by
    intro id i hi
    rw [completedLookups_append] at hi
    rw [scheduledLookups_append]
    refine List.mem_append_left _ ?_
    rcases List.mem_append.mp hi with hold | hnew
    · exact h.sound id i hold
    · cases hentry with
      | noted _ _ _ _ _ _ _ hcompleted => exact absurd hnew (by simp [hcompleted])
      | @completed r _ lookup hlive _ _ hopen =>
        rw [completedLookups_completed] at hnew
        split at hnew
        · rename_i hid
          obtain rfl := List.mem_singleton.mp hnew
          exact hid ▸ (mem_openLookups.mp ((h.waits r (by simp [hlive]) i).mp hopen)).1
        · exact absurd hnew List.not_mem_nil
      | _ => exact absurd hnew (by simp [completedLookups])
  waits := h.waits_entry hentry
  settled := by
    intro r hr
    rcases List.mem_append.mp hr with hold | hnew
    · obtain ⟨hpending, hscheduling, hgone⟩ := h.settled r hold
      refine ⟨hpending, hscheduling, ?_⟩
      intro r₁ hr₁
      rcases hentry.kept r₁ hr₁ with ⟨r₂, hr₂, hid⟩ | hid
      · exact hid ▸ hgone r₂ hr₂
      · exact hid ▸ (Nat.ne_of_lt (h.known _ hold)).symm
    · cases hentry with
      | nothing => exact absurd hnew List.not_mem_nil
      | noted _ _ _ _ _ hfreed => exact absurd hnew (hfreed r)
      | spare _ hnone' =>
        obtain rfl := Effect.freed.inj (List.mem_singleton.mp hnew)
        exact ⟨rfl, rfl, by simp [hnone']⟩
      | freed _ hnone' hpending hscheduling =>
        obtain rfl := Effect.freed.inj (List.mem_singleton.mp hnew)
        exact ⟨hpending, hscheduling, by simp [hnone']⟩
      | _ => exact absurd (List.mem_singleton.mp hnew) (by simp)
  order := by
    refine List.pairwise_append.mpr ⟨h.order, hentry.order, ?_⟩
    rintro first hfirst later hlater r rfl
    rcases hentry.refresh later hlater with ⟨r₁, hr₁, hid⟩ | ⟨hid, -⟩
    · exact hid ▸ (h.settled r hfirst).2.2 r₁ hr₁
    · exact hid ▸ (Nat.ne_of_lt (h.known _ hfirst)).symm
  accounted := by
    intro id lookup hsrv
    rcases List.mem_append.mp hsrv with hold | hnew
    · rcases h.accounted id lookup hold with ⟨r, hr, rfl⟩ | ⟨r, hr, hid⟩
      · rcases hentry.lost r hr with hlive' | hfreed
        · exact .inl hlive'
        · exact .inr ⟨r, List.mem_append_right _ hfreed, rfl⟩
      · exact .inr ⟨r, List.mem_append_left _ hr, hid⟩
    · cases hentry with
      | nothing => exact absurd hnew List.not_mem_nil
      | noted _ _ _ _ _ _ hscheduled =>
        have hmem : lookup ∈ scheduledLookups id effects :=
          List.mem_filterMap.mpr ⟨_, hnew, if_pos rfl⟩
        exact absurd hmem (by simp [hscheduled])
      | started _ hlive' hid =>
        obtain ⟨rfl, rfl⟩ := Effect.resolveSrv.inj (List.mem_singleton.mp hnew)
        exact .inl ⟨_, by rw [hlive']; exact List.mem_cons_self, hid⟩
      | _ => exact absurd (List.mem_singleton.mp hnew) (by simp)

/-! ### The entries of the pieces -/

theorem waits_congr {r r' : RDnsRefresh} (h : r'.lookups = r.lookups) (i : LookupId) :
    r'.Waits i ↔ r.Waits i := by
  unfold RDnsRefresh.Waits
  rw [h]

theorem waits_cons {r r' : RDnsRefresh} {l : RDnsLookupCtx} (h : r'.lookups = l :: r.lookups)
    (hopen : l.completed = false) (i : LookupId) : r'.Waits i ↔ i = l.id ∨ r.Waits i := by
  unfold RDnsRefresh.Waits
  rw [h]
  constructor
  · rintro ⟨x, hx, rfl, hxopen⟩
    rcases List.mem_cons.mp hx with rfl | hold
    · exact .inl rfl
    · exact .inr ⟨x, hold, rfl, hxopen⟩
  · rintro (rfl | ⟨x, hx, hid, hxopen⟩)
    · exact ⟨l, List.mem_cons_self, rfl, hopen⟩
    · exact ⟨x, List.mem_cons_of_mem l hx, hid, hxopen⟩

theorem waits_complete {r : RDnsRefresh} (hnodup : (r.lookups.map (·.id)).Nodup)
    {l : RDnsLookupCtx} (hlookup : l ∈ r.lookups) (i : LookupId) :
    (completeLookup r l).Waits i ↔ r.Waits i ∧ i ≠ l.id := by
  constructor
  · rintro ⟨x, hx, rfl, hopen⟩
    rcases (mem_completeLookup hnodup hlookup).mp hx with ⟨hold, hne⟩ | ⟨-, rfl⟩
    · exact ⟨⟨x, hold, rfl, hopen⟩, hne⟩
    · exact absurd hopen (by simp)
  · rintro ⟨⟨x, hx, rfl, hopen⟩, hne⟩
    exact ⟨x, (mem_completeLookup hnodup hlookup).mpr (.inl ⟨hx, hne⟩), rfl, hopen⟩

/-- Behind a resolver call the refresh waits for what it did, without the lookup if
    the resolver refused it. -/
theorem waits_leave {r : RDnsRefresh} (hnodup : (r.lookups.map (·.id)).Nodup)
    {l : RDnsLookupCtx} (hlookup : l ∈ r.lookups) (rc : Int) (reqId : UInt64) (i : LookupId) :
    (leaveResolver r l rc reqId).Waits i ↔
      r.Waits i ∧ ¬ (rc ≠ 0 ∧ l.completed = false ∧ i = l.id) := by
  constructor
  · rintro ⟨x, hx, rfl, hopen⟩
    rcases (mem_leaveResolver hnodup hlookup rc reqId).mp hx with ⟨hold, hne⟩ | ⟨hrc, hlopen, rfl⟩
    · exact ⟨⟨x, hold, rfl, hopen⟩, fun h => hne h.2.2⟩
    · exact ⟨⟨l, hlookup, rfl, hlopen⟩, fun h => h.1 hrc⟩
  · rintro ⟨⟨x, hx, rfl, hopen⟩, hnot⟩
    by_cases hid : x.id = l.id
    · obtain rfl := Keyed.eq_of_key hnodup hx hlookup hid
      have hrc : rc = 0 := by
        by_contra hne
        exact hnot ⟨hne, hopen, rfl⟩
      exact ⟨keptLookup x reqId,
        (mem_leaveResolver hnodup hlookup rc reqId).mpr (.inr ⟨hrc, hopen, rfl⟩), rfl, hopen⟩
    · exact ⟨x, (mem_leaveResolver hnodup hlookup rc reqId).mpr (.inl ⟨hx, hid⟩), rfl, hopen⟩

/-- A resolver call that returned completes its lookup or leaves no trace. -/
theorem entry_leave {s s' : State} {r : RDnsRefresh} (hlive : s.refreshes = [r])
    (hnodup : (r.lookups.map (·.id)).Nodup) {l : RDnsLookupCtx} (hlookup : l ∈ r.lookups)
    (rc : Int) (reqId : UInt64) (hlive' : s'.refreshes = [leaveResolver r l rc reqId]) :
    Entry s s' (returnEffects r.id l rc) := by
  have hid := (leaveResolver_fields r l rc reqId).1
  have hwaits := waits_leave hnodup hlookup rc reqId
  unfold returnEffects
  by_cases hrefused : rc ≠ 0 ∧ l.completed = false
  · rw [if_pos (by simpa using hrefused)]
    refine .completed hlive hlive' hid ⟨l, hlookup, rfl, hrefused.2⟩ ?_
    intro i
    rw [hwaits]
    simp [hrefused]
  · rw [if_neg (by simpa using hrefused)]
    refine .noted hlive hlive' hid ?_ (by simp) (by simp) (fun _ => rfl) (fun _ => rfl)
    intro i
    rw [hwaits]
    exact and_iff_left (fun h => hrefused ⟨h.1, h.2.1⟩)

theorem entry_same {s s' : State} {r r' : RDnsRefresh} (hlive : s.refreshes = [r])
    (hlive' : s'.refreshes = [r']) (hid : r'.id = r.id) (hlookups : r'.lookups = r.lookups) :
    Entry s s' [] :=
  .noted hlive hlive' hid (waits_congr hlookups) (by simp) (by simp) (fun _ => rfl) (fun _ => rfl)

theorem entry_note {s s' : State} {r r' : RDnsRefresh} (hlive : s.refreshes = [r])
    (hlive' : s'.refreshes = [r']) (hid : r'.id = r.id) (hlookups : r'.lookups = r.lookups)
    {e : Effect} (hrefresh : e.refresh = r.id) (hfreed : ∀ r₁, .freed r₁ ≠ e)
    (hscheduled : ∀ id, scheduledLookups id [e] = [])
    (hcompleted : ∀ id, completedLookups id [e] = []) : Entry s s' [e] := by
  refine .noted hlive hlive' hid (waits_congr hlookups) ?_ ?_ hscheduled hcompleted
  · intro e' he'
    obtain rfl := List.mem_singleton.mp he'
    exact hrefresh
  · intro r₁ hr₁
    exact hfreed r₁ (List.mem_singleton.mp hr₁)

/-- **Every piece is an entry.** -/
theorem Micro.entry {failed : Bool} {nowMs : UInt64} {s s' : State} {control control' : Control}
    {effects : List Effect} (h : Ok s control)
    (hmicro : Micro failed nowMs s control effects s' control') :
    Entry s s' effects ∧ s.nextId ≤ s'.nextId := by
  cases hmicro with
  | start _ _ hnone =>
    refine ⟨?_, Nat.le_trans (Nat.le_succ _) (Nat.le_succ _)⟩
    rw [enterResolver_single rfl]
    refine .started hnone rfl ?_ (Nat.le_succ _) ?_ ?_
    · rfl
    · exact Nat.lt_succ_self (s.nextId + 1)
    · intro i
      rw [@waits_cons (newRefresh s.nextId) _ (newLookup (s.nextId + 1) 0 0 false) rfl rfl]
      simp [RDnsRefresh.Waits, newRefresh, newLookup]
  | spare _ _ hnone =>
    exact ⟨.spare hnone hnone (Nat.lt_succ_self _), Nat.le_succ _⟩
  | @srvCall r lookup status records hlive =>
    refine ⟨?_, Nat.le_refl _⟩
    have hlive' : (s.called (.srv lookup)).refreshes = [r] := hlive
    exact entry_note hlive hlive' rfl rfl rfl (by simp) (fun _ => rfl) (fun _ => rfl)
  | @addrCall r l status addrs allocs _ hlive =>
    have hsame := answered_same r l status addrs allocs
    exact ⟨entry_note hlive rfl hsame.id hsame.lookups rfl (by simp) (fun _ => rfl) (fun _ => rfl),
      Nat.le_refl _⟩
  | skip =>
    cases h with
    | live hlive => exact ⟨entry_same hlive hlive rfl rfl, Nat.le_refl _⟩
  | pass hlive => exact ⟨entry_same hlive hlive rfl rfl, Nat.le_refl _⟩
  | @enter r _ record _ _ serverId _ hlive =>
    refine ⟨?_, Nat.le_succ _⟩
    rw [enterResolver_single hlive]
    refine .scheduled hlive rfl rfl (Nat.le_refl _) (Nat.lt_succ_self _) ?_
    exact @waits_cons r _ (newLookup s.nextId record.port serverId true) rfl rfl
  | endLoop hlive => exact ⟨entry_same hlive rfl rfl rfl, Nat.le_refl _⟩
  | @complete r l hlive hlookup =>
    have hinv := ok_live h hlive
    refine ⟨.completed hlive rfl (completeLookup_fields r l).1 ?_
      (waits_complete hinv.nodup hlookup), Nat.le_refl _⟩
    exact (hinv.opened l.id).mp (List.mem_append_left _ (List.mem_singleton.mpr rfl))
  | leaveSrv rc reqId hlive hlookup =>
    exact ⟨entry_leave hlive (ok_live h hlive).nodup hlookup rc reqId rfl, Nat.le_refl _⟩
  | leaveAddrs rc reqId hlive hlookup =>
    exact ⟨entry_leave hlive (ok_live h hlive).nodup hlookup rc reqId rfl, Nat.le_refl _⟩
  | stay hlive => exact ⟨entry_same hlive hlive rfl rfl, Nat.le_refl _⟩
  | install hlive hpending hscheduling =>
    exact ⟨.freed hlive rfl hpending hscheduling, Nat.le_refl _⟩
  | drop hlive hpending hscheduling =>
    exact ⟨.freed hlive rfl hpending hscheduling, Nat.le_refl _⟩
  | detach hlive => exact ⟨entry_same hlive rfl rfl rfl, Nat.le_refl _⟩
  | cancel hlive =>
    refine ⟨?_, Nat.le_refl _⟩
    refine entry_note hlive ?_ rfl rfl rfl (by simp) (fun _ => rfl) (fun _ => rfl)
    exact hlive
  | cancelled =>
    refine ⟨?_, Nat.le_refl _⟩
    cases h with
    | none hnone => exact .nothing hnone hnone
    | live hlive => exact entry_same hlive hlive rfl rfl
  | release hlive => exact ⟨entry_same hlive rfl rfl rfl, Nat.le_refl _⟩
  | destroy =>
    refine ⟨?_, Nat.le_refl _⟩
    cases h with
    | none hnone => exact .nothing hnone hnone
    | live hlive => exact entry_same hlive hlive rfl rfl

/-! ### Runs -/

theorem Ok.bound {s : State} {control : Control} (h : Ok s control) :
    ∀ r ∈ s.refreshes, r.id < s.nextId := by
  intro r hr
  cases h with
  | none hnone => exact absurd hr (by simp [hnone])
  | live hlive hinv =>
    rw [hlive] at hr
    obtain rfl := List.mem_singleton.mp hr
    exact hinv.fresh

theorem Chain.ledger {failed : Bool} {nowMs : UInt64} {s s' : State} {control control' : Control}
    {effects : List Effect} (hchain : Chain failed nowMs s control effects s' control')
    (h : Ok s control) {trace : List Effect} (hledger : Ledger s trace) :
    Ledger s' (trace ++ effects) := by
  induction hchain generalizing trace with
  | nil => rwa [List.append_nil]
  | cons hmicro _ _ ih =>
    obtain ⟨hentry, hnext⟩ := hmicro.entry h
    rw [← List.append_assoc]
    exact ih (hmicro.ok h) (hledger.entry hentry hnext h.bound)

theorem ledger_init (dnsName : Bytes) (hasCancel : Bool) : Ledger (.init dnsName hasCancel) [] where
  known := by simp
  fresh := by simp [scheduledLookups]
  once := fun _ => .nil
  sound := by simp [completedLookups]
  waits := by simp [State.init]
  settled := by simp
  order := .nil
  accounted := by simp

theorem Micro.destroyed {failed : Bool} {nowMs : UInt64} {s s' : State} {control control' : Control}
    {effects : List Effect} (hmicro : Micro failed nowMs s control effects s' control')
    (hnone : s.client = none) : s'.client = none := by
  cases hmicro with
  | start hclient | spare hclient | detach _ hclient | install _ _ _ _ _ hclient =>
    exact absurd (hclient.symm.trans hnone) (by simp)
  | enter _ hlive =>
    rw [enterResolver_single hlive]
    exact hnone
  | release | destroy => rfl
  | _ => exact hnone

theorem Chain.destroyed {failed : Bool} {nowMs : UInt64} {s s' : State} {control control' : Control}
    {effects : List Effect} (hchain : Chain failed nowMs s control effects s' control')
    (hnone : s.client = none) : s'.client = none := by
  induction hchain with
  | nil => exact hnone
  | cons hmicro _ _ ih => exact ih (hmicro.destroyed hnone)

theorem Inv.counters {s : State} {r : RDnsRefresh} (h : Inv s .foreign r) {trace : List Effect}
    (hlive : s.refreshes = [r]) (hledger : Ledger s trace) :
    r.pending = (openLookups r.id trace).length ∧
      r.scheduling = s.stack.countP (·.refresh == r.id) ∧ (r.pending ≠ 0 ∨ r.scheduling ≠ 0) := by
  refine ⟨?_, ?_, h.alive rfl⟩
  · have hperm : (s.unfinished .foreign).Perm (openLookups r.id trace) := by
      refine (List.perm_ext_iff_of_nodup h.once ((hledger.once r.id).filter _)).mpr ?_
      intro i
      exact (h.opened i).trans (hledger.waits r (by simp [hlive]) i)
    rw [h.pending, hperm.length_eq]
  · have hall : s.stack.countP (·.refresh == r.id) = s.stack.length := by
      rw [List.countP_eq_length]
      intro frame hframe
      simpa using h.phase.owned frame hframe
    rw [hall, h.scheduling]
    rfl

/-- How the client and the live refreshes know each other between two steps. -/
theorem ok_attachment {s : State} (h : Ok s .foreign) {c : DnsClient}
    (hclient : s.client = some c) :
    (c.membership.dnsRefreshInflight = true ↔ c.dnsRefresh ≠ none) ∧
      ∀ id, c.dnsRefresh = some id ↔
        ∃ r ∈ s.refreshes, r.id = id ∧ r.client = true ∧ r.detached = false := by
  cases h with
  | none hnone _ _ hunknown =>
    obtain ⟨hrefresh, hinflight⟩ := hunknown c hclient
    simp [hrefresh, hinflight, hnone]
  | @live _ r hlive hinv =>
    rw [hlive]
    cases hinv.phase with
    | attached c' hc' hrefresh hinflight hset hattached =>
      obtain rfl := Option.some.inj (hclient.symm.trans hc')
      simp [hrefresh, hinflight, hset, hattached]
    | detaching _ _ _ _ _ _ hcontrol => exact absurd hcontrol (by simp)
    | cancelling c' hc' hrefresh hinflight _ hdetached =>
      obtain rfl := Option.some.inj (hclient.symm.trans hc')
      simp [hrefresh, hinflight, hdetached]
    | gone hgone => exact absurd (hclient.symm.trans hgone) (by simp)

theorem Ok.length_le_one {s : State} {control : Control} (h : Ok s control) :
    s.refreshes.length ≤ 1 := by
  cases h with
  | none hnone => simp [hnone]
  | live hlive => simp [hlive]

/-- A refresh that outlives the client has let go of it. -/
theorem ok_released {s : State} (h : Ok s .foreign) (hnone : s.client = none) :
    ∀ r ∈ s.refreshes, r.client = false ∧ r.detached = true := by
  intro r hr
  cases h with
  | none hempty => exact absurd hr (by simp [hempty])
  | live hlive hinv =>
    rw [hlive] at hr
    obtain rfl := List.mem_singleton.mp hr
    cases hinv.phase with
    | attached c hclient => exact absurd (hclient.symm.trans hnone) (by simp)
    | detaching c hclient => exact absurd (hclient.symm.trans hnone) (by simp)
    | cancelling c hclient => exact absurd (hclient.symm.trans hnone) (by simp)
    | gone _ hset hdetached => exact ⟨hset, hdetached⟩

/-- **The bookkeeping of refreshes.** Whatever the resolver and the host do within
    the contract, the run goes through, so no freed refresh, lookup or client is
    ever used. The two counters of a live refresh count its open lookups and its
    frames on the stack and are not both zero; the client knows the one refresh that
    is attached to it; a refresh is freed with both counters at zero, and nothing of
    it happens afterwards; a client that was destroyed is out of reach. -/
theorem refresh_bookkeeping (dnsName : Bytes) (hasCancel : Bool) (inputs : List Input)
    (hcontract : Contract dnsName hasCancel inputs) :
    ∃ s trace, run dnsName hasCancel inputs = some (s, trace) ∧
      (∀ r ∈ s.refreshes,
        r.pending = (openLookups r.id trace).length ∧
        r.scheduling = s.stack.countP (·.refresh == r.id) ∧
        (r.pending ≠ 0 ∨ r.scheduling ≠ 0)) ∧
      (∀ c, s.client = some c →
        (c.membership.dnsRefreshInflight = true ↔ c.dnsRefresh ≠ none) ∧
        ∀ id, c.dnsRefresh = some id ↔
          ∃ r ∈ s.refreshes, r.id = id ∧ r.client = true ∧ r.detached = false) ∧
      s.refreshes.length ≤ 1 ∧
      (∀ r, .freed r ∈ trace →
        r.pending = 0 ∧ r.scheduling = 0 ∧ ∀ r' ∈ s.refreshes, r'.id ≠ r.id) ∧
      NothingAfterFree trace ∧
      (∀ id lookup, .resolveSrv id lookup ∈ trace →
        (∃ r ∈ s.refreshes, r.id = id) ∨ ∃ r, .freed r ∈ trace ∧ r.id = id) ∧
      (s.client = none → ∀ r ∈ s.refreshes, r.client = false ∧ r.detached = true) ∧
      ∀ before after s₁ trace₁, inputs = before ++ after →
        run dnsName hasCancel before = some (s₁, trace₁) → s₁.client = none → s.client = none := by
  have hinit := ok_init dnsName hasCancel
  obtain ⟨s, trace, hrun, hok, hledger⟩ :=
    @exec_rule true Ledger (fun hok hledger hchain => hchain.ledger hok hledger) _ hinit []
      (ledger_init dnsName hasCancel) inputs (by simp) hcontract
  rw [List.nil_append] at hledger
  refine ⟨s, trace, hrun, ?_, fun c hc => ok_attachment hok hc, hok.length_le_one, hledger.settled,
    hledger.order, hledger.accounted, ok_released hok, ?_⟩
  · intro r hr
    cases hok with
    | none hnone => exact absurd hr (by simp [hnone])
    | live hlive hinv =>
      rw [hlive] at hr
      obtain rfl := List.mem_singleton.mp hr
      exact hinv.counters hlive hledger
  · -- the rest of the run starts from a client that is gone
    intro before after s₁ trace₁ hsplit hbefore hgone
    subst hsplit
    obtain ⟨s₂, _, hrun₂, hok₂, -⟩ := @exec_rule true (fun _ _ => True) (fun _ _ _ => trivial) _
      hinit [] trivial before (by simp) hcontract.left
    obtain ⟨rfl, -⟩ := Prod.mk.inj (Option.some.inj (hbefore.symm.trans hrun₂))
    obtain ⟨s₃, _, hrun₃, -, hend⟩ := @exec_rule true (fun s _ => s.client = none)
      (fun _ hnone hchain => hchain.destroyed hnone) _ hok₂ [] hgone after (by simp)
      (hcontract.suffix hbefore)
    have hwhole := Run.exec_append.mpr ⟨s₁, _, _, hbefore, hrun₃, rfl⟩
    obtain ⟨rfl, -⟩ := Prod.mk.inj (Option.some.inj (hrun.symm.trans hwhole))
    exact hend

def sampleRecord : RSrvRecord := { target := [115, 45, 55, 46, 120], port := 39, ttlMs := 60000 }

def sampleInput (event : Event) : Input := { event := event, nowMs := 5, allocs := fun _ => true }

/-- The SRV answer comes while `resolve_srv` is running and leads to one address
    lookup, which is open when the client is destroyed: `cancel` calls it back. -/
def sampleInputs : List Input :=
  [.attempt true true, .srvCallback 1 0 [sampleRecord], .resolverReturn 0 9, .resolverReturn 0 8,
   .destroy, .addrCallback 2 (-1) [], .cancelReturn].map sampleInput

theorem refresh_bookkeeping_cancelled :
    Contract [120] true sampleInputs ∧
      ∃ trace, run [120] true sampleInputs =
          some ({ client := none, refreshes := [], stack := [], outstanding := [], nextId := 3 },
            trace) ∧ NothingAfterFree trace ∧ trace.length = 8 := by
  have hcontract : Contract [120] true sampleInputs := by decide +kernel
  obtain ⟨s, trace, hrun, -, -, -, -, horder, -⟩ :=
    refresh_bookkeeping [120] true sampleInputs hcontract
  obtain ⟨⟨s', trace'⟩, hrun', hstate⟩ := Option.map_eq_some_iff.mp
    (show (run [120] true sampleInputs).map (fun outcome => (outcome.1, outcome.2.length)) =
      some ({ client := none, refreshes := [], stack := [], outstanding := [], nextId := 3 }, 8) by
      decide +kernel)
  obtain ⟨rfl, rfl⟩ := Prod.mk.inj (Option.some.inj (hrun.symm.trans hrun'))
  obtain ⟨rfl, hlength⟩ := Prod.mk.inj hstate
  exact ⟨hcontract, trace, hrun, horder, hlength⟩

end RlClient.Refresh
