import RlClient.Simulation
import RlClient.Since

/-!
# Pacing of discovery

When a client looks up its servers. A submission or a report may start a periodic
refresh, and a forced one when no server is known; a refresh ends while its lookup
is still on the stack or later. The log of these events along a run shows that
lookups never overlap, and that after a successful refresh the next one keeps the
interval: a forced refresh cannot come in between, because a client that has once
found a server always has one.
-/

namespace RlClient

/-! ### The log -/

/-- What happens to the discovery of a client, with the clock readings. -/
inductive DnsEvent where
  -- `r_dns_maybe_refresh` reads the clock
  | decided (nowMs : UInt64)
  -- an SRV lookup starts, on that reading
  | lookup (nowMs : UInt64)
  -- `r_dns_refresh_finish`, which reads the clock only when it found an endpoint
  | finished (discovery : Discovery) (finishMs : UInt64)

def DnsEvent.reading? : DnsEvent → Option UInt64
  | .decided nowMs => some nowMs
  | .lookup nowMs => some nowMs
  | .finished discovery finishMs =>
      if discovery.endpoints.length > 0 then some finishMs else none

/-- The events of `r_dns_start_refresh`. -/
def startEvents (membership : RMembership) (dnsName : Bytes) (io : RefreshIo) : List DnsEvent :=
  if membership.dnsRefreshInflight then []
  else if 18 + dnsName.length ≥ 512 then []
  else
    .lookup io.nowMs :: match io.progress with
      | .pending => []
      | .finished discovery finishMs => [.finished discovery finishMs]

/-- The events of `r_dns_maybe_refresh`. -/
def maybeRefreshEvents (membership : RMembership) (policy : RDnsRefreshPolicy) (dnsName : Bytes)
    (force : Bool) (io : RefreshIo) : List DnsEvent :=
  .decided io.nowMs ::
    if refreshDue membership policy force io then startEvents membership dnsName io else []

/-- The events of a submission or a report that comes to its refresh: a periodic one,
    and a forced one when no server is known then. -/
def refreshEvents (c : RClient) (refresh forcedRefresh : RefreshIo) : List DnsEvent :=
  let refreshed := rDnsMaybeRefresh c.membership c.dnsRefresh c.dnsName false refresh
  maybeRefreshEvents c.membership c.dnsRefresh c.dnsName false refresh ++
    if refreshed.servers.length = 0 then
      maybeRefreshEvents refreshed c.dnsRefresh c.dnsName true forcedRefresh
    else []

/-- The events of `r_client_check_rate_limit_async_impl`, which refreshes once its checks
    have passed. -/
def submitEvents (c : RClient) (args : SubmitArgs) (io : SubmitIo) : List DnsEvent :=
  match checkSubmission c args with
  | .passed => refreshEvents c io.refresh io.forcedRefresh
  | _ => []

/-- The events of `r_client_report_latency`. -/
def reportEvents (c : RClient) (reports : CArray RServiceLatencyReport) (io : ReportIo) :
    List DnsEvent :=
  if reports.isNull || reports.count = 0 then []
  else if !c.udpSend then []
  else refreshEvents c io.refresh io.forcedRefresh

def Call.dnsEvents (c : RClient) : Call → List DnsEvent
  | .submit args io => submitEvents c args io
  | .report reports io => reportEvents c reports io
  | .refreshFinish discovery nowMs => [.finished discovery nowMs]
  | _ => []

/-- A step of the machine that logs what happens to the discovery. -/
def dnsStep (gcm : Gcm) (m : Machine) (call : Call) : Option (Machine × List DnsEvent) :=
  (step gcm m call).map fun s => (s.1, call.dnsEvents m.client)

/-- The refresh inside `r_client_create`. -/
def createEvents (args : CreateArgs) (c : RClient) : List DnsEvent :=
  maybeRefreshEvents .empty c.dnsRefresh c.dnsName true args.refresh

def TimedLog (log : List DnsEvent) : Prop :=
  (log.filterMap DnsEvent.reading?).Pairwise (· ≤ ·) ∧ ∀ r ∈ log.filterMap DnsEvent.reading?, r ≠ 0

theorem TimedLog.left {l r : List DnsEvent} (h : TimedLog (l ++ r)) : TimedLog l := by
  unfold TimedLog at h
  rw [List.filterMap_append] at h
  exact ⟨(List.pairwise_append.mp h.1).1, fun t ht => h.2 t (List.mem_append_left _ ht)⟩

theorem TimedLog.le {l r : List DnsEvent} (h : TimedLog (l ++ r)) {a b : DnsEvent} (ha : a ∈ l)
    (hb : b ∈ r) {s t : UInt64} (hs : a.reading? = some s) (ht : b.reading? = some t) : s ≤ t := by
  have hpairs := h.1
  rw [List.filterMap_append] at hpairs
  exact (List.pairwise_append.mp hpairs).2.2 s (List.mem_filterMap.mpr ⟨a, ha, hs⟩) t
    (List.mem_filterMap.mpr ⟨b, hb, ht⟩)

theorem TimedLog.pos {log : List DnsEvent} (h : TimedLog log) {e : DnsEvent} (he : e ∈ log)
    {t : UInt64} (ht : e.reading? = some t) : t ≠ 0 :=
  h.2 t (List.mem_filterMap.mpr ⟨e, he, ht⟩)

/-! ### The invariant -/

/-- The interval that a successful refresh asks for: the configured one, lowered to
    the least TTL of its records. -/
def intervalAfter (policy : RDnsRefreshPolicy) (discovery : Discovery) : UInt64 :=
  let configured := if policy.refreshIntervalMs = 0 then 300000 else policy.refreshIntervalMs
  if discovery.minTtlMs > 0 && discovery.minTtlMs < configured then discovery.minTtlMs
  else configured

def Spaced (policy : RDnsRefreshPolicy) (log : List DnsEvent) : Prop :=
  ∀ pre discovery finishMs post nowMs, log = pre ++ .finished discovery finishMs :: post →
    0 < discovery.endpoints.length → DnsEvent.lookup nowMs ∈ post →
      finishMs.toNat + (intervalAfter policy discovery).toNat ≤ nowMs.toNat

def Exclusive (log : List DnsEvent) : Prop :=
  ∀ pre first mid second post, log = pre ++ .lookup first :: (mid ++ .lookup second :: post) →
    ∃ discovery finishMs, DnsEvent.finished discovery finishMs ∈ mid

/-- What the membership of a client says about its log. -/
structure Paced (policy : RDnsRefreshPolicy) (membership : RMembership) (log : List DnsEvent) :
    Prop where
  synced : membership.servers ≠ [] ↔ membership.lastDnsRefreshMs ≠ 0
  logged : membership.lastDnsRefreshMs ≠ 0 → ∃ discovery, 0 < discovery.endpoints.length ∧
    DnsEvent.finished discovery membership.lastDnsRefreshMs ∈ log
  -- a successful refresh is the one the membership comes from, or a lookup followed it
  latest : ∀ pre discovery finishMs post, log = pre ++ .finished discovery finishMs :: post →
    0 < discovery.endpoints.length →
      (membership.lastDnsRefreshMs = finishMs ∧ membership.dnsRefreshTtlMs = discovery.minTtlMs) ∨
        ∃ nowMs, DnsEvent.lookup nowMs ∈ post
  running : membership.dnsRefreshInflight = true →
    ∀ pre discovery finishMs post, log = pre ++ .finished discovery finishMs :: post →
      ∃ nowMs, DnsEvent.lookup nowMs ∈ post
  resting : membership.dnsRefreshInflight = false →
    ∀ pre nowMs post, log = pre ++ .lookup nowMs :: post →
      ∃ discovery finishMs, DnsEvent.finished discovery finishMs ∈ post
  spaced : Spaced policy log
  exclusive : Exclusive log

theorem Paced.empty (policy : RDnsRefreshPolicy) : Paced policy .empty [] where
  synced := by simp [RMembership.empty]
  logged := fun h => absurd rfl h
  latest := fun _ _ _ _ h => absurd h (by simp)
  running := fun h => absurd h (by simp [RMembership.empty])
  resting := fun _ _ _ _ h => absurd h (by simp)
  spaced := fun _ _ _ _ _ h => absurd h (by simp)
  exclusive := fun _ _ _ _ _ h => absurd h (by simp)

section

variable {policy : RDnsRefreshPolicy} {membership : RMembership} {log : List DnsEvent}

theorem Paced.decided (h : Paced policy membership log) (nowMs : UInt64) :
    Paced policy membership (log ++ [.decided nowMs]) where
  synced := h.synced
  logged := by
    intro hlast
    obtain ⟨discovery, hfound, hmem⟩ := h.logged hlast
    exact ⟨discovery, hfound, List.mem_append_left _ hmem⟩
  latest := by
    intro pre discovery finishMs post heq hfound
    rcases snoc_eq_append_cons.mp heq with ⟨-, hsame, -⟩ | ⟨post', rfl, rfl⟩
    · exact absurd hsame (by simp)
    · refine (h.latest pre discovery finishMs post' rfl hfound).imp_right ?_
      rintro ⟨startMs, hstart⟩
      exact ⟨startMs, List.mem_append_left _ hstart⟩
  running := by
    intro hinflight pre discovery finishMs post heq
    rcases snoc_eq_append_cons.mp heq with ⟨-, hsame, -⟩ | ⟨post', rfl, rfl⟩
    · exact absurd hsame (by simp)
    · obtain ⟨startMs, hstart⟩ := h.running hinflight pre discovery finishMs post' rfl
      exact ⟨startMs, List.mem_append_left _ hstart⟩
  resting := by
    intro hinflight pre startMs post heq
    rcases snoc_eq_append_cons.mp heq with ⟨-, hsame, -⟩ | ⟨post', rfl, rfl⟩
    · exact absurd hsame (by simp)
    · obtain ⟨discovery, finishMs, hmem⟩ := h.resting hinflight pre startMs post' rfl
      exact ⟨discovery, finishMs, List.mem_append_left _ hmem⟩
  spaced := by
    intro pre discovery finishMs post startMs heq hfound hstart
    rcases snoc_eq_append_cons.mp heq with ⟨-, hsame, -⟩ | ⟨post', rfl, rfl⟩
    · exact absurd hsame (by simp)
    · rcases List.mem_append.mp hstart with hstart | hstart
      · exact h.spaced pre discovery finishMs post' startMs rfl hfound hstart
      · exact absurd hstart (by simp)
  exclusive := by
    intro pre first mid second post heq
    rcases snoc_eq_append_cons.mp heq with ⟨-, hsame, -⟩ | ⟨rest, hrest, rfl⟩
    · exact absurd hsame (by simp)
    · rcases snoc_eq_append_cons.mp hrest.symm with ⟨-, hsame, -⟩ | ⟨post', rfl, rfl⟩
      · exact absurd hsame (by simp)
      · exact h.exclusive pre first mid second post' rfl

/-- A lookup that starts while no refresh is running, and in time. -/
theorem Paced.lookup (h : Paced policy membership log)
    (hinflight : membership.dnsRefreshInflight = false) {nowMs : UInt64}
    (hclock : TimedLog (log ++ [.lookup nowMs]))
    (hdue : ∀ discovery, 0 < discovery.endpoints.length →
      DnsEvent.finished discovery membership.lastDnsRefreshMs ∈ log →
      membership.dnsRefreshTtlMs = discovery.minTtlMs →
      membership.lastDnsRefreshMs.toNat + (intervalAfter policy discovery).toNat ≤ nowMs.toNat) :
    Paced policy { membership with dnsRefreshInflight := true } (log ++ [.lookup nowMs]) where
  synced := h.synced
  logged := by
    intro hlast
    obtain ⟨discovery, hfound, hmem⟩ := h.logged hlast
    exact ⟨discovery, hfound, List.mem_append_left _ hmem⟩
  latest := by
    intro pre discovery finishMs post heq hfound
    rcases snoc_eq_append_cons.mp heq with ⟨-, hsame, -⟩ | ⟨post', rfl, rfl⟩
    · exact absurd hsame (by simp)
    · exact .inr ⟨nowMs, List.mem_append_right _ List.mem_cons_self⟩
  running := by
    intro _ pre discovery finishMs post heq
    rcases snoc_eq_append_cons.mp heq with ⟨-, hsame, -⟩ | ⟨post', rfl, rfl⟩
    · exact absurd hsame (by simp)
    · exact ⟨nowMs, List.mem_append_right _ List.mem_cons_self⟩
  resting := fun hrest => absurd hrest (by simp)
  spaced := by
    intro pre discovery finishMs post startMs heq hfound hstart
    rcases snoc_eq_append_cons.mp heq with ⟨-, hsame, -⟩ | ⟨post', rfl, rfl⟩
    · exact absurd hsame (by simp)
    have hold := h.spaced pre discovery finishMs post'
    rcases List.mem_append.mp hstart with hstart | hstart
    · exact hold startMs rfl hfound hstart
    · obtain rfl := DnsEvent.lookup.inj (List.mem_singleton.mp hstart)
      rcases h.latest pre discovery finishMs post' rfl hfound with ⟨rfl, httl⟩ | ⟨earlier, hmem⟩
      · exact hdue discovery hfound (List.mem_append_right _ List.mem_cons_self) httl
      · -- an earlier lookup has kept the interval already
        have hle : earlier ≤ startMs :=
          hclock.le (List.mem_append_right _ (List.mem_cons_of_mem _ hmem)) List.mem_cons_self rfl
            rfl
        exact Nat.le_trans (hold earlier rfl hfound hmem) (UInt64.le_iff_toNat_le.mp hle)
  exclusive := by
    intro pre first mid second post heq
    rcases snoc_eq_append_cons.mp heq with ⟨-, -, hnil⟩ | ⟨rest, hrest, rfl⟩
    · exact absurd hnil (by simp)
    · rcases snoc_eq_append_cons.mp hrest.symm with ⟨rfl, -, -⟩ | ⟨post', rfl, rfl⟩
      · exact h.resting hinflight pre first _ rfl
      · exact h.exclusive pre first mid second post' rfl

theorem Paced.finished (h : Paced policy membership log)
    (hinflight : membership.dnsRefreshInflight = true) {discovery : Discovery} {finishMs : UInt64}
    (hclock : TimedLog (log ++ [.finished discovery finishMs])) :
    Paced policy (rDnsRefreshFinish membership discovery finishMs)
      (log ++ [.finished discovery finishMs]) where
  synced := by
    unfold rDnsRefreshFinish
    split
    · rename_i hfound
      have hreading : (DnsEvent.finished discovery finishMs).reading? = some finishMs :=
        if_pos hfound
      have hpos := hclock.pos (List.mem_append_right _ List.mem_cons_self) hreading
      exact iff_of_true (List.length_pos_iff.mp hfound) hpos
    · exact h.synced
  logged := by
    unfold rDnsRefreshFinish
    split
    · rename_i hfound
      exact fun _ => ⟨discovery, hfound, List.mem_append_right _ List.mem_cons_self⟩
    · intro hlast
      obtain ⟨found, hfound, hmem⟩ := h.logged hlast
      exact ⟨found, hfound, List.mem_append_left _ hmem⟩
  latest := by
    intro pre found foundMs post heq hfound
    rcases snoc_eq_append_cons.mp heq with ⟨rfl, hsame, -⟩ | ⟨post', rfl, rfl⟩
    · obtain ⟨rfl, rfl⟩ := DnsEvent.finished.inj hsame
      left
      unfold rDnsRefreshFinish
      rw [if_pos hfound]
      exact ⟨rfl, rfl⟩
    · obtain ⟨startMs, hstart⟩ := h.running hinflight pre found foundMs post' rfl
      exact .inr ⟨startMs, List.mem_append_left _ hstart⟩
  running := by
    unfold rDnsRefreshFinish
    split <;> exact fun hrunning => absurd hrunning (by simp)
  resting := by
    intro _ pre startMs post heq
    rcases snoc_eq_append_cons.mp heq with ⟨-, hsame, -⟩ | ⟨post', rfl, rfl⟩
    · exact absurd hsame (by simp)
    · exact ⟨discovery, finishMs, List.mem_append_right _ List.mem_cons_self⟩
  spaced := by
    intro pre found foundMs post startMs heq hfound hstart
    rcases snoc_eq_append_cons.mp heq with ⟨-, -, rfl⟩ | ⟨post', rfl, rfl⟩
    · exact absurd hstart List.not_mem_nil
    · rcases List.mem_append.mp hstart with hstart | hstart
      · exact h.spaced pre found foundMs post' startMs rfl hfound hstart
      · exact absurd hstart (by simp)
  exclusive := by
    intro pre first mid second post heq
    rcases snoc_eq_append_cons.mp heq with ⟨-, -, hnil⟩ | ⟨rest, hrest, rfl⟩
    · exact absurd hnil (by simp)
    · rcases snoc_eq_append_cons.mp hrest.symm with ⟨-, hsame, -⟩ | ⟨post', rfl, rfl⟩
      · exact absurd hsame (by simp)
      · exact h.exclusive pre first mid second post' rfl

end

/-! ### One entry point -/

/-- A periodic refresh is due when the interval is over, read as plain numbers. -/
theorem refreshDue_periodic {membership : RMembership} {policy : RDnsRefreshPolicy} {io : RefreshIo}
    {discovery : Discovery} (hdue : refreshDue membership policy false io = true)
    (hlast : membership.lastDnsRefreshMs ≠ 0)
    (httl : membership.dnsRefreshTtlMs = discovery.minTtlMs)
    (hle : membership.lastDnsRefreshMs ≤ io.nowMs) :
    membership.lastDnsRefreshMs.toNat + (intervalAfter policy discovery).toNat ≤
      io.nowMs.toNat := by
  have hinterval : refreshIntervalMs membership policy = intervalAfter policy discovery := by
    unfold refreshIntervalMs intervalAfter
    rw [httl]
  simp only [refreshDue, Bool.not_false, if_true, Bool.or_eq_true, beq_iff_eq, hlast, false_or,
    decide_eq_true_eq, hinterval] at hdue
  have hpassed := UInt64.le_iff_toNat_le.mp hdue
  rw [UInt64.toNat_sub_of_le _ _ hle] at hpassed
  have hclock := UInt64.le_iff_toNat_le.mp hle
  omega

theorem Paced.attempt {policy : RDnsRefreshPolicy} {membership : RMembership}
    {log : List DnsEvent} {force : Bool} {io : RefreshIo} {dnsName : Bytes}
    (h : Paced policy membership log) (hforce : force = true → membership.servers = [])
    (hclock : TimedLog (log ++ maybeRefreshEvents membership policy dnsName force io)) :
    Paced policy (rDnsMaybeRefresh membership policy dnsName force io)
      (log ++ maybeRefreshEvents membership policy dnsName force io) := by
  unfold maybeRefreshEvents rDnsMaybeRefresh at *
  rw [List.append_cons] at hclock ⊢
  have hdecided := h.decided io.nowMs
  by_cases hdue : refreshDue membership policy force io = true
  · rw [if_pos hdue] at hclock ⊢
    rw [if_pos hdue]
    unfold startEvents rDnsStartRefresh at *
    by_cases hinflight : membership.dnsRefreshInflight = true
    · rw [if_pos hinflight, if_pos hinflight, List.append_nil]
      exact hdecided
    rw [if_neg hinflight] at hclock ⊢
    rw [if_neg hinflight]
    by_cases hlong : 18 + dnsName.length ≥ 512
    · rw [if_pos hlong, if_pos hlong, List.append_nil]
      exact hdecided
    rw [if_neg hlong] at hclock ⊢
    rw [if_neg hlong]
    rw [List.append_cons] at hclock ⊢
    have hstarted : Paced policy { membership with dnsRefreshInflight := true }
        (log ++ [.decided io.nowMs] ++ [.lookup io.nowMs]) := by
      refine hdecided.lookup (Bool.not_eq_true _ ▸ hinflight) hclock.left ?_
      intro discovery hfound hmem httl
      have hreading : (DnsEvent.finished discovery membership.lastDnsRefreshMs).reading? =
          some membership.lastDnsRefreshMs := if_pos hfound
      have hlast := hclock.left.left.pos hmem hreading
      have hle : membership.lastDnsRefreshMs ≤ io.nowMs :=
        hclock.left.le hmem List.mem_cons_self hreading rfl
      have hperiodic : force = false := by
        cases force with
        | false => rfl
        | true => exact absurd (hforce rfl) (h.synced.mpr hlast)
      rw [hperiodic] at hdue
      exact refreshDue_periodic hdue hlast httl hle
    cases hprogress : io.progress with
    | pending =>
      simp only [List.append_nil]
      exact hstarted
    | finished discovery finishMs =>
      rw [hprogress] at hclock
      have hended := hstarted.finished rfl hclock
      have hsame : rDnsRefreshFinish { membership with dnsRefreshInflight := true } discovery
          finishMs = rDnsRefreshFinish membership discovery finishMs := by
        unfold rDnsRefreshFinish
        split <;> rfl
      rw [hsame] at hended
      exact hended
  · rw [if_neg hdue, if_neg hdue, List.append_nil]
    exact hdecided

def refreshedMembership (c : RClient) (refresh forcedRefresh : RefreshIo) : RMembership :=
  let refreshed := rDnsMaybeRefresh c.membership c.dnsRefresh c.dnsName false refresh
  if refreshed.servers.length = 0 then
    rDnsMaybeRefresh refreshed c.dnsRefresh c.dnsName true forcedRefresh
  else refreshed

theorem Paced.refreshes {c : RClient} {log : List DnsEvent} {refresh forcedRefresh : RefreshIo}
    (h : Paced c.dnsRefresh c.membership log)
    (hclock : TimedLog (log ++ refreshEvents c refresh forcedRefresh)) :
    Paced c.dnsRefresh (refreshedMembership c refresh forcedRefresh)
      (log ++ refreshEvents c refresh forcedRefresh) := by
  unfold refreshEvents refreshedMembership at *
  rw [← List.append_assoc] at hclock ⊢
  have hperiodic : false = true → c.membership.servers = [] := fun hforce => absurd hforce (by simp)
  have hfirst := h.attempt hperiodic hclock.left
  simp only at hclock ⊢
  split
  · rename_i hnone
    rw [if_pos hnone] at hclock
    exact hfirst.attempt (fun _ => List.length_eq_zero_iff.mp hnone) hclock
  · rw [List.append_nil]
    exact hfirst

def Refreshes (c : RClient) (refresh forcedRefresh : RefreshIo) (events : List DnsEvent)
    (membership : RMembership) : Prop :=
  (events = [] ∧ membership = c.membership) ∨
    (events = refreshEvents c refresh forcedRefresh ∧
      membership = refreshedMembership c refresh forcedRefresh)

theorem submit_refreshes (gcm : Gcm) (c : RClient) (h : Handle) (args : SubmitArgs)
    (io : SubmitIo) :
    Refreshes c io.refresh io.forcedRefresh (submitEvents c args io)
      (rClientCheckRateLimitAsyncImpl gcm c h args io).client.membership := by
  have hstaged := staged (buildRequest gcm · h args io) c args io
  unfold submitEvents rClientCheckRateLimitAsyncImpl
  generalize stageSubmission (buildRequest gcm · h args io) c args io = stage at hstaged ⊢
  cases hstaged with
  | refused rc hcheck =>
    rw [hcheck]
    exact .inl ⟨rfl, rfl⟩
  | empty hcheck =>
    rw [hcheck]
    exact .inl ⟨rfl, rfl⟩
  | unserved hcheck hnone =>
    rw [hcheck]
    exact .inr ⟨rfl, (if_pos hnone).symm⟩
  | unbuilt rc hcheck hsome =>
    rw [hcheck]
    exact .inr ⟨rfl, (if_neg hsome).symm⟩
  | built req hcheck hsome =>
    rw [hcheck]
    refine .inr ⟨rfl, ?_⟩
    exact (launchRequest_steady _ _ io).membership.trans (if_neg hsome).symm

theorem report_refreshes (gcm : Gcm) (c : RClient) (reports : CArray RServiceLatencyReport)
    (io : ReportIo) :
    Refreshes c io.refresh io.forcedRefresh (reportEvents c reports io)
      (rClientReportLatency gcm c reports io).client.membership := by
  unfold reportEvents rClientReportLatency
  iterate 2
    split
    · exact .inl ⟨rfl, rfl⟩
  refine .inr ⟨rfl, ?_⟩
  unfold refreshedMembership
  simp only
  split
  · rfl
  · split
    · rfl
    · exact (Steady.of_count (sendReport_client _ _ io)).membership

theorem Refreshes.paced {c : RClient} {refresh forcedRefresh : RefreshIo}
    {events log : List DnsEvent}
    {membership : RMembership} (hrefreshes : Refreshes c refresh forcedRefresh events membership)
    (h : Paced c.dnsRefresh c.membership log) (hclock : TimedLog (log ++ events)) :
    Paced c.dnsRefresh membership (log ++ events) := by
  rcases hrefreshes with ⟨rfl, rfl⟩ | ⟨rfl, rfl⟩
  · rw [List.append_nil]
    exact h
  · exact h.refreshes hclock

theorem Paced.step {gcm : Gcm} {m m' : Machine} {call : Call} {log events : List DnsEvent}
    (h : Paced m.client.dnsRefresh m.client.membership log)
    (hstep : dnsStep gcm m call = some (m', events)) (hclock : TimedLog (log ++ events)) :
    Paced m.client.dnsRefresh m'.client.membership (log ++ events) := by
  obtain ⟨⟨m₁, effects⟩, hmachine, hpair⟩ := Option.map_eq_some_iff.mp hstep
  obtain ⟨rfl, rfl⟩ := Prod.mk.inj hpair
  have hquiet : Steady m.client m₁.client → call.dnsEvents m.client = [] →
      Paced m.client.dnsRefresh m₁.client.membership (log ++ call.dnsEvents m.client) := by
    intro hsteady hnone
    rw [hnone, List.append_nil, hsteady.membership]
    exact h
  cases stepped_of_step hmachine with
  | submit args io => exact (submit_refreshes gcm m.client m.nextHandle args io).paced h hclock
  | report reports io => exact (report_refreshes gcm m.client reports io).paced h hclock
  | datagram buf sender io => exact hquiet (rClientOnDatagram_steady gcm m.client buf sender io) rfl
  | timeout h nowMs io req => exact hquiet (rClientOnTimeout_steady m.client req nowMs io) rfl
  | cancel h => exact hquiet (rClientCancelRequest_steady m.client h) rfl
  | callbackReturn frame frames => exact hquiet (rCallbackReturned_steady m.client frame) rfl
  | refreshFinish discovery nowMs =>
    have hinflight : m.client.membership.dnsRefreshInflight = true := by
      by_contra hnot
      simp [RlClient.step, hnot] at hmachine
    exact h.finished hinflight hclock

/-! ### Servers are never lost -/

theorem rDnsRefreshFinish_servers {membership : RMembership} (h : membership.servers ≠ [])
    (discovery : Discovery) (finishMs : UInt64) :
    (rDnsRefreshFinish membership discovery finishMs).servers ≠ [] := by
  unfold rDnsRefreshFinish
  split
  · rename_i hfound
    exact List.length_pos_iff.mp hfound
  · exact h

theorem rDnsMaybeRefresh_servers {membership : RMembership} (h : membership.servers ≠ [])
    (policy : RDnsRefreshPolicy) (dnsName : Bytes) (force : Bool) (io : RefreshIo) :
    (rDnsMaybeRefresh membership policy dnsName force io).servers ≠ [] := by
  unfold rDnsMaybeRefresh rDnsStartRefresh
  split
  · split
    · exact h
    split
    · exact h
    cases io.progress with
    | pending => exact h
    | finished discovery finishMs => exact rDnsRefreshFinish_servers h discovery finishMs
  · exact h

theorem Refreshes.servers {c : RClient} {refresh forcedRefresh : RefreshIo} {events : List DnsEvent}
    {membership : RMembership} (hrefreshes : Refreshes c refresh forcedRefresh events membership)
    (h : c.membership.servers ≠ []) : membership.servers ≠ [] := by
  rcases hrefreshes with ⟨-, rfl⟩ | ⟨-, rfl⟩
  · exact h
  · have hperiodic := rDnsMaybeRefresh_servers h c.dnsRefresh c.dnsName false refresh
    unfold refreshedMembership
    simp only
    split
    · exact rDnsMaybeRefresh_servers hperiodic _ _ _ _
    · exact hperiodic

theorem step_servers {gcm : Gcm} {m m' : Machine} {call : Call} {effects : List Effect}
    (hstep : step gcm m call = some (m', effects)) (h : m.client.membership.servers ≠ []) :
    m'.client.membership.servers ≠ [] := by
  have hsteady : Steady m.client m'.client → m'.client.membership.servers ≠ [] := by
    intro hsame
    rw [hsame.membership]
    exact h
  cases stepped_of_step hstep with
  | submit args io => exact (submit_refreshes gcm m.client m.nextHandle args io).servers h
  | report reports io => exact (report_refreshes gcm m.client reports io).servers h
  | datagram buf sender io => exact hsteady (rClientOnDatagram_steady gcm m.client buf sender io)
  | timeout h nowMs io req => exact hsteady (rClientOnTimeout_steady m.client req nowMs io)
  | cancel h => exact hsteady (rClientCancelRequest_steady m.client h)
  | callbackReturn frame frames => exact hsteady (rCallbackReturned_steady m.client frame)
  | refreshFinish discovery nowMs => exact rDnsRefreshFinish_servers h discovery nowMs

/-! ### The least TTL -/

/-- The TTLs that count: those of conforming records, unless they are zero. -/
def countedTtls (records : List RSrvRecord) : List UInt64 :=
  (records.filter fun record =>
    (rParseServerIdFromTarget record.target).isSome && record.ttlMs != 0).map (·.ttlMs.toUInt64)

/-- `m` is the least of the TTLs, and zero when there are none. -/
def LeastTtl (ttls : List UInt64) (m : UInt64) : Prop :=
  (ttls = [] ∧ m = 0) ∨ (m ∈ ttls ∧ m ≠ 0 ∧ ∀ ttl ∈ ttls, m ≤ ttl)

theorem LeastTtl.snoc {ttls : List UInt64} {m ttl : UInt64} (h : LeastTtl ttls m) (hpos : ttl ≠ 0) :
    LeastTtl (ttls ++ [ttl]) (if m == 0 || decide (ttl < m) then ttl else m) := by
  right
  rcases h with ⟨rfl, rfl⟩ | ⟨hmem, hm, hleast⟩
  · simp [hpos]
  · by_cases hlt : ttl < m
    · have hle : ∀ t ∈ ttls ++ [ttl], ttl ≤ t := by
        intro t ht
        rcases List.mem_append.mp ht with ht | ht
        · exact UInt64.le_trans (UInt64.le_of_lt hlt) (hleast t ht)
        · rw [List.mem_singleton.mp ht]
          exact UInt64.le_refl _
      simpa [hlt, hpos] using hle
    · have hle : ∀ t ∈ ttls ++ [ttl], m ≤ t := by
        intro t ht
        rcases List.mem_append.mp ht with ht | ht
        · exact hleast t ht
        · rw [List.mem_singleton.mp ht]
          exact UInt64.not_lt.mp hlt
      rw [if_neg (by simp [hm, hlt])]
      exact ⟨List.mem_append_left _ hmem, hm, hle⟩

/-- The loop of `r_dns_srv_cb_fn` finds the least TTL. -/
theorem Discovery.minTtlMs_least (discovery : Discovery) :
    LeastTtl (countedTtls discovery.records) discovery.minTtlMs := by
  unfold Discovery.minTtlMs
  induction discovery.records using List.reverseRecOn with
  | nil => exact .inl ⟨rfl, rfl⟩
  | append_singleton records record ih =>
    rw [List.foldl_append, List.foldl_cons, List.foldl_nil]
    unfold countedTtls at ih ⊢
    rw [List.filter_append, List.map_append]
    unfold foldMinTtlMs at ih ⊢
    cases hid : rParseServerIdFromTarget record.target with
    | none => simpa [hid] using ih
    | some serverId =>
      by_cases hzero : record.ttlMs = 0
      · simpa [hid, hzero] using ih
      · have hpos : record.ttlMs.toUInt64 ≠ 0 := by
          intro heq
          exact hzero (UInt32.toNat_inj.mp (by simpa using congrArg UInt64.toNat heq))
        have hgt : record.ttlMs.toUInt64 > 0 := UInt64.pos_iff_ne_zero.mpr hpos
        have hnext := ih.snoc hpos
        simpa [hid, hzero, hgt] using hnext

/-! ### Runs -/

theorem dnsStep_dnsRefresh {gcm : Gcm} {m m' : Machine} {call : Call} {events : List DnsEvent}
    (hstep : dnsStep gcm m call = some (m', events)) :
    m'.client.dnsRefresh = m.client.dnsRefresh := by
  obtain ⟨⟨m₁, effects⟩, hmachine, hpair⟩ := Option.map_eq_some_iff.mp hstep
  obtain ⟨rfl, rfl⟩ := Prod.mk.inj hpair
  change m₁.client.static.dnsRefresh = m.client.static.dnsRefresh
  rw [(step_keeps hmachine).static]

theorem rClientCreate_membership {args : CreateArgs} {c : RClient}
    (hcreate : rClientCreate args = .ok c) :
    c.membership = rDnsMaybeRefresh .empty c.dnsRefresh c.dnsName true args.refresh := by
  unfold rClientCreate at hcreate
  split at hcreate
  · cases hcreate
  · obtain rfl := Except.ok.inj hcreate
    rfl

theorem run_paced {gcm : Gcm} {args : CreateArgs} {c : RClient}
    (hcreate : rClientCreate args = .ok c) {calls : List Call} {m : Machine} {log : List DnsEvent}
    (hrun : Run.exec (dnsStep gcm) (.init c) calls = some (m, log)) :
    m.client.dnsRefresh = c.dnsRefresh ∧ (TimedLog (createEvents args c ++ log) →
      Paced c.dnsRefresh m.client.membership (createEvents args c ++ log)) := by
  refine Run.exec_induction (P := fun _ m log => m.client.dnsRefresh = c.dnsRefresh ∧
    (TimedLog (createEvents args c ++ log) →
      Paced c.dnsRefresh m.client.membership (createEvents args c ++ log))) ?_ ?_ hrun
  · refine ⟨rfl, ?_⟩
    rw [List.append_nil]
    intro hclock
    have hforced : true = true → RMembership.empty.servers = [] := fun _ => rfl
    have hfirst := (Paced.empty c.dnsRefresh).attempt hforced hclock
    rw [← rClientCreate_membership hcreate] at hfirst
    exact hfirst
  · rintro calls m log call m' events - ⟨hpolicy, hpaced⟩ hstep
    refine ⟨(dnsStep_dnsRefresh hstep).trans hpolicy, ?_⟩
    rw [← List.append_assoc]
    intro hclock
    have hbefore := hpaced hclock.left
    rw [← hpolicy] at hbefore ⊢
    exact hbefore.step hstep hclock

theorem run_servers {gcm : Gcm} {m m' : Machine} {calls : List Call} {log : List DnsEvent}
    (hrun : Run.exec (dnsStep gcm) m calls = some (m', log))
    (h : m.client.membership.servers ≠ []) : m'.client.membership.servers ≠ [] := by
  refine Run.exec_induction (P := fun _ m' _ => m'.client.membership.servers ≠ []) h ?_ hrun
  intro calls m₁ log call m₂ events _ hservers hstep
  obtain ⟨⟨m₃, effects⟩, hmachine, hpair⟩ := Option.map_eq_some_iff.mp hstep
  obtain ⟨rfl, -⟩ := Prod.mk.inj hpair
  exact step_servers hmachine hservers

/-- **Discovery is paced.** In every run whose clock never goes back and is never
    zero: the client knows a server exactly when it has a time of its last refresh,
    and it never loses either; after a successful refresh no lookup starts before the
    interval that this refresh asks for is over; and between two lookups a refresh
    ends. The TTL a refresh goes by is the least that counts. -/
theorem discovery_paced {gcm : Gcm} {args : CreateArgs} {c : RClient}
    (hcreate : rClientCreate args = .ok c) {calls : List Call} {m : Machine} {log : List DnsEvent}
    (hrun : Run.exec (dnsStep gcm) (.init c) calls = some (m, log))
    (hclock : TimedLog (createEvents args c ++ log)) :
    (m.client.membership.servers ≠ [] ↔ m.client.membership.lastDnsRefreshMs ≠ 0) ∧
    (∀ more m' log', Run.exec (dnsStep gcm) m more = some (m', log') →
      TimedLog (createEvents args c ++ (log ++ log')) → m.client.membership.servers ≠ [] →
        m'.client.membership.servers ≠ [] ∧ m'.client.membership.lastDnsRefreshMs ≠ 0) ∧
    Spaced c.dnsRefresh (createEvents args c ++ log) ∧
    (∀ discovery : Discovery, LeastTtl (countedTtls discovery.records) discovery.minTtlMs) ∧
    Exclusive (createEvents args c ++ log) := by
  have hpaced := (run_paced hcreate hrun).2 hclock
  refine ⟨hpaced.synced, ?_, hpaced.spaced, Discovery.minTtlMs_least, hpaced.exclusive⟩
  intro more m' log' hmore hclock' hservers
  have hlater : Run.exec (dnsStep gcm) (.init c) (calls ++ more) = some (m', log ++ log') :=
    Run.exec_append.mpr ⟨m, log, log', hrun, hmore, rfl⟩
  have hkept := run_servers hmore hservers
  exact ⟨hkept, ((run_paced hcreate hlater).2 hclock').synced.mp hkept⟩

-- Decided over the readings: over all values of the type it would not end.
instance (log : List DnsEvent) : Decidable (TimedLog log) :=
  decidable_of_iff ((log.filterMap DnsEvent.reading?).Pairwise (· ≤ ·) ∧
    (log.filterMap DnsEvent.reading?).all (· != 0) = true)
    (and_congr_right fun _ => List.all_eq_true.trans (by simp only [bne_iff_ne]))

def DnsEvent.isLookup : DnsEvent → Bool
  | .lookup _ => true
  | _ => false

/-- The client of the sample deployment finds its servers at 50 and looks them up
    again when the default interval is over. -/
theorem discovery_paced_default :
    ∃ m log, Run.exec (dnsStep noGcm) (.init sampleClient)
        [sampleSubmit 1 100, sampleSubmit 2 300050, .refreshFinish sampleDiscovery 300060] =
        some (m, log) ∧
      log.countP DnsEvent.isLookup = 1 ∧ m.client.membership.servers ≠ [] ∧
      Spaced sampleClient.dnsRefresh (createEvents sampleArgs sampleClient ++ log) := by
  obtain ⟨⟨m, log⟩, hrun, hread⟩ := Option.map_eq_some_iff.mp
    (show (Run.exec (dnsStep noGcm) (.init sampleClient)
        [sampleSubmit 1 100, sampleSubmit 2 300050, .refreshFinish sampleDiscovery 300060]).map
      (fun s => (decide (TimedLog (createEvents sampleArgs sampleClient ++ s.2)),
        s.2.countP DnsEvent.isLookup, s.1.client.membership.servers.isEmpty)) =
      some (true, 1, false) by decide +kernel)
  obtain ⟨hclock, hread⟩ := Prod.mk.inj hread
  obtain ⟨hcount, hservers⟩ := Prod.mk.inj hread
  obtain ⟨-, -, hspaced, -⟩ :=
    discovery_paced sampleClient_created hrun (of_decide_eq_true hclock)
  exact ⟨m, log, hrun, hcount, by simpa using hservers, hspaced⟩

end RlClient
