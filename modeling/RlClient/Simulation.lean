import RlClient.Lifecycle

/-!
# Every step, seen from one request

`Life` is the state machine of a single request. Here it is shown to simulate
the whole machine: whatever the host calls and however callbacks nest, what
happens to a handle is a transition of `Life`. The run theorems about a request
are then inductions over its life.
-/

namespace RlClient

/-- Everything one step of the machine can do to the request with handle `h`. -/
inductive Life (gcm : Gcm) (c : RClient) (h : Handle) :
    Call → View → List Effect → View → Prop
  | idle (call : Call) (view : View) : Life gcm c h call view [] view
  -- the submissions that use up the handle
  | launched (args : SubmitArgs) (io : SubmitIo) (req : RClientReq) (gapUnits : UInt32)
      (built : Built gcm c h args io req)
      (hgap : rHaScheduleUnits c.policy.replayGap 0 false = .ok gapUnits)
      (hintime : io.roundMs < req.dedupDeadlineMs) (hpacket : req.packet ≠ [])
      (hudp : c.udpSend = true) :
      Life gcm c h (.submit args io) .unborn
        (firstSends c req gapUnits io ++ [.submitted h (firstRound c req gapUnits)])
        (.live (firstRound c req gapUnits))
  | sendFailed (args : SubmitArgs) (io : SubmitIo) (req : RClientReq) (gapUnits : UInt32)
      (status : RClientError) (sends : List Effect) (built : Built gcm c h args io req)
      (hstatus : status ≠ .ok) (hsends : sends = [] ∨ sends = firstSends c req gapUnits io) :
      Life gcm c h (.submit args io) .unborn (sends ++ [.submitFailed h status]) .gone
  | rejected (args : SubmitArgs) (io : SubmitIo) (status : RClientError)
      (hstatus : status ≠ .ok) :
      Life gcm c h (.submit args io) .unborn [.submitFailed h status] .gone
  | emptied (args : SubmitArgs) (io : SubmitIo) :
      Life gcm c h (.submit args io) .unborn [] .gone
  -- the request is in flight
  | treated (req : RClientReq) (call : Call) (effects : List Effect) (view : View)
      (hstep : ReqStep c h req call effects view) :
      Life gcm c h call (.live req) effects view
  | cancelled (req : RClientReq) : Life gcm c h (.cancel h) (.live req) [.cancelled h] .gone
  -- its callback returns
  | returned (req : RClientReq) : Life gcm c h .callbackReturn (.calling req) [] .gone

/-! ### The allocator's next handle -/

theorem Machine.Wf.fresh {c : RClient} {m : Machine} (hwf : m.Wf c) :
    m.nextHandle ∉ m.handles := fun hmem => Nat.lt_irrefl _ (hwf.bounded _ hmem)

theorem view_of_not_mem {m : Machine} {h : Handle} (hmem : h ∉ m.handles) :
    m.view h = if h < m.nextHandle then .gone else .unborn := by
  have hsplit := not_or.mp fun hor => hmem (List.mem_append.mpr hor)
  have hinflight : m.client.inflight.find? (·.handle == h) = none :=
    Keyed.find_eq_none.mpr hsplit.1
  have hrunning : m.running.find? (·.handle == h) = none := Keyed.find_eq_none.mpr hsplit.2
  unfold Machine.view
  rw [hinflight, hrunning]

theorem view_next {c : RClient} {m : Machine} (hwf : m.Wf c) : m.view m.nextHandle = .unborn := by
  rw [view_of_not_mem hwf.fresh, if_neg (Nat.lt_irrefl _)]

/-- A submission that links nothing uses up the handle and changes no other view. -/
theorem view_of_used {c : RClient} {m : Machine} (hwf : m.Wf c) (m' : Machine)
    (hinflight : m'.client.inflight = m.client.inflight) (hrunning : m'.running = m.running)
    (hnext : m'.nextHandle = m.nextHandle + 1) (h : Handle) :
    (h = m.nextHandle ∧ m.view h = .unborn ∧ m'.view h = .gone) ∨
      (h ≠ m.nextHandle ∧ m'.view h = m.view h) := by
  by_cases hh : h = m.nextHandle
  · subst hh
    have hmem : m.nextHandle ∉ m'.handles := by
      unfold Machine.handles
      rw [hinflight, hrunning]
      exact hwf.fresh
    refine .inl ⟨rfl, view_next hwf, ?_⟩
    rw [view_of_not_mem hmem, hnext, if_pos (Nat.lt_succ_self _)]
  · refine .inr ⟨hh, view_congr (by rw [hinflight]) (by rw [hrunning]) ?_⟩
    rw [hnext]
    exact ⟨fun hlt => Nat.lt_of_le_of_ne (Nat.le_of_lt_succ hlt) hh, Nat.lt_succ_of_lt⟩

/-! ### Well-formedness is kept -/

theorem Machine.Wf.of_perm {c : RClient} {m m' : Machine} (hwf : m.Wf c)
    (hkeeps : Keeps m.client m'.client) (hnext : m.nextHandle ≤ m'.nextHandle)
    {l : List Handle} (hperm : (m'.handles ++ l).Perm m.handles) : m'.Wf c := by
  have hnodup : (m'.handles ++ l).Nodup := hperm.nodup_iff.mpr hwf.nodup
  refine ⟨hnodup.of_append_left, ?_, hkeeps.static.trans hwf.static,
    hkeeps.identified hwf.identified⟩
  intro h hmem
  have hold : h ∈ m.handles := hperm.mem_iff.mp (List.mem_append_left l hmem)
  exact Nat.lt_of_lt_of_le (hwf.bounded h hold) hnext

theorem rNotifySteeringWhenDrained_inflight (c : RClient) :
    (rNotifySteeringWhenDrained c).1.inflight = c.inflight := by
  unfold rNotifySteeringWhenDrained
  simp only
  split <;> rfl

theorem rNotifySteeringWhenDrained_handle {c : RClient} {e : Effect}
    (he : e ∈ (rNotifySteeringWhenDrained c).2) : e.handle? = none := by
  simp only [rNotifySteeringWhenDrained] at he
  have hdrained :
      ∀ e ∈ (if c.inflight.isEmpty then [Effect.drained] else []), e.handle? = none := by
    intro e he
    split at he
    · rw [List.mem_singleton.mp he]
      rfl
    · exact absurd he List.not_mem_nil
  split at he
  · rcases List.mem_append.mp he with he | he
    · exact hdrained e he
    · rw [List.mem_singleton.mp he]
      rfl
  · exact hdrained e he

theorem rCallbackReturned_inflight (c : RClient) (frame : Frame) :
    (rCallbackReturned c frame).1.inflight = c.inflight := by
  cases frame with
  | completing req => exact rNotifySteeringWhenDrained_inflight c
  | emptyRequest => rfl

theorem rCallbackReturned_handle {c : RClient} {frame : Frame} {e : Effect}
    (he : e ∈ (rCallbackReturned c frame).2) : e.handle? = none := by
  cases frame with
  | completing req => exact rNotifySteeringWhenDrained_handle he
  | emptyRequest => exact absurd he List.not_mem_nil

theorem sendReport_quiet (c : RClient) (packet : Bytes) (io : ReportIo) :
    (sendReport c packet io).frame = none ∧
      ∀ e ∈ (sendReport c packet io).effects, e.handle? = none ∧ e.isSend = true := by
  constructor
  · unfold sendReport
    simp only
    split
    · rfl
    split <;> rfl
  · intro e he
    rw [sendReport_effects] at he
    obtain ⟨server, -, rfl⟩ := List.mem_map.mp he
    exact ⟨rfl, rfl⟩

/-- A latency report touches no request: it sends packets of its own. -/
theorem rClientReportLatency_quiet (gcm : Gcm) (c : RClient)
    (reports : CArray RServiceLatencyReport) (io : ReportIo) :
    let reply := rClientReportLatency gcm c reports io
    reply.client.inflight = c.inflight ∧
      reply.client.steeringRebindPending = c.steeringRebindPending ∧ reply.frame = none ∧
      ∀ e ∈ reply.effects, e.handle? = none ∧ e.isSend = true := by
  have hnone : ∀ e ∈ ([] : List Effect), e.handle? = none ∧ e.isSend = true :=
    fun e he => absurd he List.not_mem_nil
  unfold rClientReportLatency
  split
  · exact ⟨rfl, rfl, rfl, hnone⟩
  split
  · exact ⟨rfl, rfl, rfl, hnone⟩
  simp only
  split
  · exact ⟨rfl, rfl, rfl, hnone⟩
  split
  · exact ⟨rfl, rfl, rfl, hnone⟩
  · rename_i packet _
    obtain ⟨n, hclient⟩ := sendReport_client
      { c with membership := rDnsMaybeRefresh c.membership c.dnsRefresh c.dnsName false io.refresh }
      packet io
    have hquiet := sendReport_quiet
      { c with membership := rDnsMaybeRefresh c.membership c.dnsRefresh c.dnsName false io.refresh }
      packet io
    exact ⟨by rw [hclient], by rw [hclient], hquiet.1, hquiet.2⟩

/-! ### The cases of the simulation -/

theorem submit_step {gcm : Gcm} {c : RClient} {m : Machine} (hwf : m.Wf c) (args : SubmitArgs)
    (io : SubmitIo) :
    let reply := rClientCheckRateLimitAsyncImpl gcm m.client m.nextHandle args io
    let m' : Machine := { m.afterReply reply with nextHandle := m.nextHandle + 1 }
    m'.Wf c ∧ ∀ h, Life gcm c h (.submit args io) (m.view h) (about h reply.effects)
      (m'.view h) := by
  have hkeeps := rClientCheckRateLimitAsyncImpl_keeps gcm m.client m.nextHandle args io
  have houtcome := rClientCheckRateLimitAsyncImpl_outcome gcm m.client m.nextHandle args io
    hwf.identified
  have hpolicy := policy_of_static hwf.static
  generalize rClientCheckRateLimitAsyncImpl gcm m.client m.nextHandle args io = reply
    at hkeeps houtcome
  intro reply' m'
  -- the three outcomes that link no request differ only in their effects
  have hunlinked : reply.client.inflight = m.client.inflight →
      m'.running = m.running →
      (∀ h, h ≠ m.nextHandle → about h reply.effects = []) →
      Life gcm c m.nextHandle (.submit args io) .unborn (about m.nextHandle reply.effects) .gone →
      m'.Wf c ∧ ∀ h, Life gcm c h (.submit args io) (m.view h) (about h reply.effects)
        (m'.view h) := by
    intro hinflight hrunning hothers hown
    refine ⟨hwf.of_perm hkeeps (Nat.le_succ _) (l := []) ?_, ?_⟩
    · rw [List.append_nil]
      change (reply.client.inflight.map (·.handle) ++ m'.running.map (·.handle)).Perm m.handles
      rw [hinflight, hrunning]
      exact List.Perm.refl _
    · intro h
      rcases view_of_used hwf m' hinflight hrunning rfl h with
        ⟨rfl, hunborn, hgone⟩ | ⟨hne, hsame⟩
      · rw [hunborn, hgone]
        exact hown
      · rw [hsame, hothers h hne]
        exact .idle _ _
  cases houtcome with
  | rejected status c' hstatus hinflight hpending =>
    refine hunlinked hinflight rfl ?_ ?_
    · intro h hne
      refine about_cons_other ?_ []
      simpa [Effect.handle?] using Ne.symm hne
    · rw [Reply.done, about_cons_self rfl, about_nil]
      exact .rejected args io status hstatus
  | emptied =>
    have hquiet : ∀ h, about h (completeEmpty m.client).effects = [] := by
      intro h
      apply about_eq_nil
      intro e he
      simp only [completeEmpty] at he
      rcases List.mem_append.mp he with he | he
      · split at he
        · rw [List.mem_singleton.mp he]
          simp [Effect.handle?]
        · exact absurd he List.not_mem_nil
      · rw [List.mem_singleton.mp he]
        simp [Effect.handle?]
    refine hunlinked rfl rfl (fun h _ => hquiet h) ?_
    rw [hquiet]
    exact .emptied args io
  | sendFailed req gapUnits status sends c' built hstatus hsends hinflight hpending =>
    have built := built.ofStatic hwf.static
    have hhandle : req.handle = m.nextHandle := by
      rw [built.eq]
      rfl
    have hown : ∀ e ∈ sends ++ [.submitFailed m.nextHandle status],
        e.handle? = some m.nextHandle := by
      intro e he
      rcases List.mem_append.mp he with he | he
      · rcases hsends with rfl | rfl
        · exact absurd he List.not_mem_nil
        · rw [sendEffects_handle he]
          exact congrArg some hhandle
      · rw [List.mem_singleton.mp he]
        rfl
    refine hunlinked hinflight rfl ?_ ?_
    · intro h hne
      exact about_eq_nil fun e he heq =>
        hne (Option.some.inj ((hown e he).symm.trans heq)).symm
    · rw [Reply.done, about_eq_self hown]
      refine .sendFailed args io req gapUnits status sends built hstatus ?_
      unfold firstSends firstRound at hsends ⊢
      rw [← hpolicy]
      exact hsends
  | launched req gapUnits c' built hgap hintime hpacket hudp hinflight hpending =>
    have built := built.ofStatic hwf.static
    have hhandle : (firstRound m.client req gapUnits).handle = m.nextHandle := by
      rw [built.eq]
      rfl
    have hown : ∀ e ∈ firstSends m.client req gapUnits io ++
        [.submitted m.nextHandle (firstRound m.client req gapUnits)],
        e.handle? = some m.nextHandle := by
      intro e he
      rcases List.mem_append.mp he with he | he
      · rw [sendEffects_handle he]
        exact congrArg some hhandle
      · rw [List.mem_singleton.mp he]
        rfl
    have hinflight' : m'.client.inflight = firstRound m.client req gapUnits :: m.client.inflight :=
      hinflight
    refine ⟨⟨?_, ?_, hkeeps.static.trans hwf.static, hkeeps.identified hwf.identified⟩, ?_⟩
    · change (m'.client.inflight.map (·.handle) ++ m.running.map (·.handle)).Nodup
      rw [hinflight', List.map_cons, List.cons_append, List.nodup_cons, hhandle]
      exact ⟨hwf.fresh, hwf.nodup⟩
    · intro h hmem
      change h ∈ m'.client.inflight.map (·.handle) ++ m.running.map (·.handle) at hmem
      rw [hinflight', List.map_cons, List.cons_append, hhandle] at hmem
      rcases List.mem_cons.mp hmem with rfl | hmem
      · exact Nat.lt_succ_self _
      · exact Nat.lt_succ_of_lt (hwf.bounded h hmem)
    · intro h
      by_cases hh : h = m.nextHandle
      · subst hh
        have hlive : m'.view m.nextHandle = .live (firstRound m.client req gapUnits) := by
          rw [view_live_iff, hinflight']
          exact List.find?_cons_of_pos (by simpa using hhandle)
        rw [view_next hwf, hlive]
        change Life gcm c m.nextHandle _ _
          (about m.nextHandle (firstSends m.client req gapUnits io ++
          [.submitted m.nextHandle (firstRound m.client req gapUnits)])) _
        rw [about_eq_self hown]
        unfold firstSends firstRound
        rw [hpolicy] at hgap ⊢
        exact .launched args io req gapUnits built hgap hintime hpacket
          ((udpSend_of_static hwf.static).symm.trans hudp)
      · have hsame : m'.view h = m.view h := by
          refine view_congr ?_ rfl ?_
          · rw [hinflight']
            refine List.find?_cons_of_neg ?_
            rw [hhandle]
            simpa using Ne.symm hh
          · exact ⟨fun hlt => Nat.lt_of_le_of_ne (Nat.le_of_lt_succ hlt) hh, Nat.lt_succ_of_lt⟩
        change Life gcm c h _ _ (about h (firstSends m.client req gapUnits io ++
          [.submitted m.nextHandle (firstRound m.client req gapUnits)])) _
        rw [hsame, about_eq_nil fun e he heq =>
          hh (Option.some.inj ((hown e he).symm.trans heq)).symm]
        exact .idle _ _

/-- A step that leaves every lookup alone and makes no effect for a request. -/
theorem quiet_step {gcm : Gcm} {c : RClient} {m m' : Machine} (hwf : m.Wf c)
    (hkeeps : Keeps m.client m'.client) (hinflight : m'.client.inflight = m.client.inflight)
    (hframes : m'.frames = m.frames) (hnext : m'.nextHandle = m.nextHandle)
    {effects : List Effect} (heffects : ∀ e ∈ effects, e.handle? = none) (call : Call) :
    m'.Wf c ∧ ∀ h, Life gcm c h call (m.view h) (about h effects) (m'.view h) := by
  have hrunning : m'.running = m.running := by
    unfold Machine.running
    rw [hframes]
  refine ⟨hwf.of_perm hkeeps (Nat.le_of_eq hnext.symm) (l := []) ?_, ?_⟩
  · unfold Machine.handles
    rw [List.append_nil, hinflight, hrunning]
  · intro h
    rw [view_congr (by rw [hinflight]) (by rw [hrunning]) (by rw [hnext]),
      about_eq_nil fun e he => by simp [heffects e he]]
    exact .idle _ _

theorem treated_step {gcm : Gcm} {c : RClient} {m : Machine} (hwf : m.Wf c) {req : RClientReq}
    (hreq : m.view req.handle = .live req) {call : Call} {reply : Reply}
    (hkeeps : Keeps m.client reply.client) (htreated : Treated c m.client req call reply) :
    (m.afterReply reply).Wf c ∧
      ∀ h, Life gcm c h call (m.view h) (about h reply.effects) ((m.afterReply reply).view h) := by
  obtain ⟨view, hhandled, hstep⟩ := htreated
  have hmem : req.handle ∈ m.client.inflight.map (·.handle) :=
    List.mem_map_of_mem (List.mem_of_find?_eq_some (view_live_iff.mp hreq))
  have hother : ∀ h, h ≠ req.handle → about h reply.effects = [] := by
    intro h hne
    apply about_eq_nil
    intro e he heq
    rcases hhandled.effects e he with hown | hnone
    · exact hne (Option.some.inj (heq.symm.trans hown))
    · exact absurd (heq.symm.trans hnone) (by simp)
  rcases hhandled.outcome with ⟨req', rfl, hframe, hfind, hhandles⟩ |
    ⟨req', rfl, hhandle, hframe, hhandles⟩
  · have hrunning : (m.afterReply reply).running = m.running := by
      unfold Machine.running Machine.afterReply
      rw [hframe]
      rfl
    refine ⟨hwf.of_perm hkeeps (Nat.le_refl _) (l := []) ?_, ?_⟩
    · unfold Machine.handles
      rw [List.append_nil, hrunning]
      change (reply.client.inflight.map (·.handle) ++ _).Perm _
      rw [hhandles]
    · intro h
      by_cases hh : h = req.handle
      · subst hh
        have hlive : (m.afterReply reply).view req.handle = .live req' := view_live_iff.mpr hfind
        rw [hreq, hlive]
        exact .treated req call _ _ hstep
      · have hsame : (m.afterReply reply).view h = m.view h :=
          view_congr (hhandled.others h hh) (by rw [hrunning]) Iff.rfl
        rw [hsame, hother h hh]
        exact .idle _ _
  · have hrunning : (m.afterReply reply).running = req' :: m.running := by
      unfold Machine.running Machine.afterReply
      rw [hframe]
      rfl
    have hnodup : (m.client.inflight.map (·.handle)).Nodup := hwf.nodup.of_append_left
    refine ⟨hwf.of_perm hkeeps (Nat.le_refl _) (l := []) ?_, ?_⟩
    · unfold Machine.handles
      rw [List.append_nil, hrunning, List.map_cons, hhandle]
      change (reply.client.inflight.map (·.handle) ++ _).Perm _
      rw [hhandles]
      refine List.perm_middle.trans ?_
      exact (List.perm_cons_erase hmem).symm.append_right (m.running.map (·.handle))
    · intro h
      by_cases hh : h = req.handle
      · subst hh
        have hcalling : (m.afterReply reply).view req.handle = .calling req' := by
          rw [view_calling_iff, hrunning]
          refine ⟨Keyed.find_eq_none.mpr ?_, List.find?_cons_of_pos (by simpa using hhandle)⟩
          change req.handle ∉ reply.client.inflight.map (·.handle)
          rw [hhandles]
          exact hnodup.not_mem_erase
        rw [hreq, hcalling]
        exact .treated req call _ _ hstep
      · have hsame : (m.afterReply reply).view h = m.view h := by
          refine view_congr (hhandled.others h hh) ?_ Iff.rfl
          rw [hrunning]
          exact List.find?_cons_of_neg (by rw [hhandle]; simpa using Ne.symm hh)
        rw [hsame, hother h hh]
        exact .idle _ _

/-- The gate taken apart: every check that a datagram passes on its way to a
    request, and the response that is made of it. -/
theorem onDatagramGate_ok_iff {gcm : Gcm} {c : RClient} {buf : Bytes} {io : DatagramIo}
    {req : RClientReq} {response : RResponse} :
    onDatagramGate gcm c buf io = .ok (req, response) ↔
      ∃ tenant pos pdu parsed, rParseTenantHeader buf = .ok (tenant, pos) ∧
        c.inflight.find? (fun req => req.requestId == tenant.uniqueId) = some req ∧
        io.gateMs ≤ req.dedupDeadlineMs ∧ rAllowedServerId req tenant.keyId = true ∧
        rExtractPduData gcm c.credential buf pos R_MAX_PACKET_SIZE io.evpOk = .ok pdu ∧
        rParseRateResponseAlloc pdu io.allocResponse = .ok parsed ∧
        response =
          { serverId := tenant.keyId
            steeringByte := tenant.steeringFeedback
            success := parsed.success
            guards := parsed.guards
            resources := parsed.resources } := by
  unfold onDatagramGate
  constructor
  · intro h
    split at h
    · exact absurd h (by simp)
    split at h
    · exact absurd h (by simp)
    rename_i tenant pos hparsed
    split at h
    · exact absurd h (by simp)
    rename_i found hfind
    split at h
    · exact absurd h (by simp)
    rename_i hintime
    split at h
    · exact absurd h (by simp)
    rename_i hallowed
    split at h
    · exact absurd h (by simp)
    rename_i pdu hextract
    split at h
    · exact absurd h (by simp)
    rename_i parsed hresponse
    obtain ⟨rfl, rfl⟩ := Prod.mk.inj (Except.ok.inj h)
    exact ⟨tenant, pos, pdu, parsed, hparsed, hfind, UInt64.not_lt.mp hintime,
      by simpa using hallowed, hextract, hresponse, rfl⟩
  · rintro ⟨tenant, pos, pdu, parsed, hparsed, hfind, hintime, hallowed, hextract, hresponse, rfl⟩
    have hnonempty : ¬ buf.length = 0 := by
      rcases rParseTenantHeader_cases buf with ⟨-, hlow, hhigh, -⟩ | ⟨-, herror⟩
      · unfold R_TENANT_TLV_LEN at hlow
        omega
      · exact absurd (herror.symm.trans hparsed) (by simp)
    simp only [hnonempty, if_false, hparsed, hfind, gt_iff_lt, UInt64.not_lt.mpr hintime, hallowed,
      Bool.not_true, Bool.false_eq_true, hextract, hresponse]

theorem view_of_mem {c : RClient} {m : Machine} (hwf : m.Wf c) {req : RClientReq}
    (hmem : req ∈ m.client.inflight) : m.view req.handle = .live req :=
  view_live_iff.mpr (Keyed.find_of_mem hwf.nodup.of_append_left hmem)

theorem not_mem_of_calling {c : RClient} {m : Machine} (hwf : m.Wf c) {h : Handle}
    {req : RClientReq} (hview : m.view h = .calling req) :
    ∀ other ∈ m.client.inflight, other.handle ≠ h := by
  rintro other hmem rfl
  rw [view_of_mem hwf hmem] at hview
  exact absurd hview (by simp)

theorem view_of_running {c : RClient} {m : Machine} (hwf : m.Wf c) {req : RClientReq}
    (hmem : Frame.completing req ∈ m.frames) : m.view req.handle = .calling req := by
  have hrunning : req ∈ m.running := List.mem_filterMap.mpr ⟨_, hmem, rfl⟩
  have hdistinct := List.nodup_append.mp hwf.nodup
  refine view_calling_iff.mpr ⟨Keyed.find_eq_none.mpr ?_, Keyed.find_of_mem hdistinct.2.1 hrunning⟩
  intro hinflight
  exact hdistinct.2.2 _ hinflight _ (List.mem_map_of_mem hrunning) rfl

/-- A cancellation takes the request out of the list and concerns no other one. -/
theorem rClientCancelRequest_of_mem {c : RClient} {req : RClientReq} (hmem : req ∈ c.inflight) :
    (rClientCancelRequest c req.handle).1.inflight =
        c.inflight.eraseP (·.handle == req.handle) ∧
      about req.handle (rClientCancelRequest c req.handle).2 = [.cancelled req.handle] ∧
      ∀ h, h ≠ req.handle → about h (rClientCancelRequest c req.handle).2 = [] := by
  have hany : c.inflight.any (·.handle == req.handle) = true :=
    List.any_eq_true.mpr ⟨req, hmem, by simp⟩
  have hquiet : ∀ h, about h (rNotifySteeringWhenDrained (rRequestRemove c req.handle)).2 = [] :=
    fun h => about_eq_nil fun e he => by simp [rNotifySteeringWhenDrained_handle he]
  unfold rClientCancelRequest
  rw [if_pos hany]
  refine ⟨rNotifySteeringWhenDrained_inflight _, ?_, fun h hh => ?_⟩
  · rw [about_cons_self rfl, hquiet]
  · have hother : (Effect.cancelled req.handle).handle? ≠ some h :=
      fun heq => hh (Option.some.inj heq).symm
    rw [about_cons_other hother, hquiet]

/-- A handle that is not in the list: nothing happens. -/
theorem rClientCancelRequest_of_not_mem {c : RClient} {k : Handle}
    (hnot : ∀ req ∈ c.inflight, req.handle ≠ k) : rClientCancelRequest c k = (c, []) := by
  unfold rClientCancelRequest
  rw [if_neg]
  simpa using hnot

theorem cancel_step {gcm : Gcm} {c : RClient} {m : Machine} (hwf : m.Wf c) (k : Handle) :
    let m' : Machine := { m with client := (rClientCancelRequest m.client k).1 }
    m'.Wf c ∧ ∀ h, Life gcm c h (.cancel k) (m.view h)
      (about h (rClientCancelRequest m.client k).2) (m'.view h) := by
  intro m'
  have hkeeps : Keeps m.client m'.client := (rClientCancelRequest_steady m.client k).keeps
  by_cases hin : ∃ req ∈ m.client.inflight, req.handle = k
  · obtain ⟨req, hreq, rfl⟩ := hin
    have hmem : req.handle ∈ m.client.inflight.map (·.handle) := List.mem_map_of_mem hreq
    obtain ⟨hinflight, hown, hothers⟩ := rClientCancelRequest_of_mem hreq
    change m'.client.inflight = _ at hinflight
    have hnodup : (m.client.inflight.map (·.handle)).Nodup := hwf.nodup.of_append_left
    refine ⟨hwf.of_perm hkeeps (Nat.le_refl _) (l := [req.handle]) ?_, ?_⟩
    · unfold Machine.handles
      rw [hinflight, Keyed.map_key_eraseP]
      refine List.perm_append_comm.trans ?_
      exact (List.perm_cons_erase hmem).symm.append_right (m.running.map (·.handle))
    · intro h
      by_cases hh : h = req.handle
      · subst hh
        have hgone : m'.view req.handle = .gone := by
          have hnot : req.handle ∉ m'.handles := by
            unfold Machine.handles
            rw [hinflight, Keyed.map_key_eraseP, List.mem_append, not_or]
            refine ⟨hnodup.not_mem_erase, ?_⟩
            intro hrunning
            exact (List.nodup_append.mp hwf.nodup).2.2 _ hmem _ hrunning rfl
          rw [view_of_not_mem hnot, if_pos (hwf.bounded _ (List.mem_append_left _ hmem))]
        rw [view_of_mem hwf hreq, hgone, hown]
        exact .cancelled req
      · have hsame : m'.view h = m.view h := by
          refine view_congr ?_ rfl Iff.rfl
          rw [hinflight]
          exact Keyed.find_eraseP_ne hh
        rw [hsame, hothers h hh]
        exact .idle _ _
  · have hcancel := rClientCancelRequest_of_not_mem (c := m.client) (k := k)
      fun req hreq heq => hin ⟨req, hreq, heq⟩
    have hclient : m'.client = m.client := congrArg Prod.fst hcancel
    rw [hcancel]
    exact quiet_step hwf hkeeps (by rw [hclient]) rfl rfl
      (fun e he => absurd he List.not_mem_nil) _

theorem return_step {gcm : Gcm} {c : RClient} {m : Machine} (hwf : m.Wf c) {frame : Frame}
    {frames : List Frame} (hframes : m.frames = frame :: frames) :
    let m' : Machine :=
      { m with client := (rCallbackReturned m.client frame).1, frames := frames }
    m'.Wf c ∧ ∀ h, Life gcm c h .callbackReturn (m.view h)
      (about h (rCallbackReturned m.client frame).2) (m'.view h) := by
  intro m'
  have hkeeps : Keeps m.client m'.client := (rCallbackReturned_steady m.client frame).keeps
  have hinflight : m'.client.inflight = m.client.inflight :=
    rCallbackReturned_inflight m.client frame
  have hquiet : ∀ h, about h (rCallbackReturned m.client frame).2 = [] :=
    fun h => about_eq_nil fun e he => by simp [rCallbackReturned_handle he]
  cases frame with
  | emptyRequest =>
    have hrunning : m'.running = m.running := by
      unfold Machine.running
      rw [hframes]
      rfl
    refine ⟨hwf.of_perm hkeeps (Nat.le_refl _) (l := []) ?_, ?_⟩
    · unfold Machine.handles
      rw [List.append_nil, hinflight, hrunning]
    · intro h
      have hsame : m'.view h = m.view h :=
        view_congr (by rw [hinflight]) (by rw [hrunning]) Iff.rfl
      rw [hquiet, hsame]
      exact .idle _ _
  | completing req =>
    have hrunning : m.running = req :: m'.running := by
      unfold Machine.running
      rw [hframes]
      rfl
    have hhandles : (m'.handles ++ [req.handle]).Perm m.handles := by
      unfold Machine.handles
      rw [hinflight, hrunning, List.map_cons, List.append_assoc]
      exact List.perm_append_comm.append_left (m.client.inflight.map (·.handle))
    refine ⟨hwf.of_perm hkeeps (Nat.le_refl _) hhandles, ?_⟩
    intro h
    rw [hquiet]
    by_cases hh : h = req.handle
    · subst hh
      have hdistinct := hhandles.nodup_iff.mpr hwf.nodup
      have hnot : req.handle ∉ m'.handles := fun hmem =>
        (List.nodup_append.mp hdistinct).2.2 _ hmem _ List.mem_cons_self rfl
      have hbound : req.handle < m.nextHandle :=
        hwf.bounded _ (hhandles.mem_iff.mp (List.mem_append_right _ List.mem_cons_self))
      have hcalling : m.view req.handle = .calling req := by
        rw [view_calling_iff, hrunning, ← hinflight]
        refine ⟨Keyed.find_eq_none.mpr fun hmem => hnot (List.mem_append_left _ hmem), ?_⟩
        exact List.find?_cons_of_pos (by simp)
      rw [hcalling, view_of_not_mem hnot, if_pos hbound]
      exact .returned req
    · have hsame : m'.view h = m.view h := by
        refine view_congr (by rw [hinflight]) ?_ Iff.rfl
        rw [hrunning]
        exact (List.find?_cons_of_neg (by simpa using Ne.symm hh)).symm
      rw [hsame]
      exact .idle _ _

/-- **Simulation.** A step of a well-formed machine keeps it well formed and is,
    for every handle, a transition of that request's life. -/
theorem step_wf_life {gcm : Gcm} {c : RClient} {m m' : Machine} {call : Call}
    {effects : List Effect} (hwf : m.Wf c) (hstep : step gcm m call = some (m', effects)) :
    m'.Wf c ∧ ∀ h, Life gcm c h call (m.view h) (about h effects) (m'.view h) := by
  have hkeeps := step_keeps hstep
  cases stepped_of_step hstep with
  | submit args io => exact submit_step hwf args io
  | report reports io =>
    obtain ⟨hinflight, -, hframe, heffects⟩ :=
      rClientReportLatency_quiet gcm m.client reports io
    refine quiet_step hwf hkeeps hinflight ?_ rfl (fun e he => (heffects e he).1) _
    unfold Machine.afterReply
    rw [hframe]
    rfl
  | datagram buf sender io hframes =>
    unfold rClientOnDatagram at hkeeps ⊢
    cases hgate : onDatagramGate gcm m.client buf io with
    | error rc =>
      rw [hgate] at hkeeps
      exact quiet_step hwf hkeeps rfl rfl rfl (fun e he => absurd he List.not_mem_nil) _
    | ok accepted =>
      obtain ⟨req, response⟩ := accepted
      obtain ⟨tenant, pos, pdu, parsed, -, hfind, hintime, hallowed, -, -, rfl⟩ :=
        onDatagramGate_ok_iff.mp hgate
      have hmem := List.mem_of_find?_eq_some hfind
      rw [hgate] at hkeeps
      exact treated_step hwf (view_of_mem hwf hmem) hkeeps
        (acceptResponse_treated hwf.static (List.mem_map_of_mem hmem) buf sender io hallowed
          hintime)
  | timeout h nowMs io req hframes hreq =>
    obtain rfl : req.handle = h := Keyed.key_of_find hreq
    exact treated_step hwf (view_live_iff.mpr hreq) hkeeps
      (rClientOnTimeout_treated hwf.static hreq nowMs io)
  | cancel h => exact cancel_step hwf h
  | callbackReturn frame frames hframes => exact return_step hwf hframes
  | refreshFinish discovery nowMs =>
    exact quiet_step hwf hkeeps rfl rfl rfl (fun e he => absurd he List.not_mem_nil) _

/-! ### Runs -/

theorem rClientCreate_spec {args : CreateArgs} {c : RClient} (h : rClientCreate args = .ok c) :
    c.inflight = [] ∧ c.steeringRebindPending = false ∧ c.membership.Identified := by
  unfold rClientCreate at h
  split at h
  · exact absurd h (by simp)
  · obtain rfl := Except.ok.inj h
    refine ⟨rfl, rfl, rDnsMaybeRefresh_identified ?_ _ _ _ _⟩
    intro server hserver
    exact absurd hserver List.not_mem_nil

theorem init_wf {args : CreateArgs} {c : RClient} (hcreate : rClientCreate args = .ok c) :
    (Machine.init c).Wf c := by
  obtain ⟨hinflight, -, hidentified⟩ := rClientCreate_spec hcreate
  have hhandles : (Machine.init c).handles = [] := by
    unfold Machine.handles
    change c.inflight.map (·.handle) ++ [] = []
    rw [hinflight]
    rfl
  refine ⟨?_, ?_, rfl, hidentified⟩
  · rw [hhandles]
    exact List.nodup_nil
  · intro h hmem
    rw [hhandles] at hmem
    exact absurd hmem List.not_mem_nil

theorem init_view {args : CreateArgs} {c : RClient} (hcreate : rClientCreate args = .ok c)
    (h : Handle) : (Machine.init c).view h = .unborn := by
  have hinflight : (Machine.init c).client.inflight = [] := (rClientCreate_spec hcreate).1
  unfold Machine.view
  rw [hinflight]
  rfl

theorem run_wf {gcm : Gcm} {args : CreateArgs} {c : RClient} (hcreate : rClientCreate args = .ok c)
    {calls : List Call} {m : Machine} {trace : List Effect}
    (hrun : run gcm c calls = some (m, trace)) : m.Wf c :=
  Run.exec_induction (P := fun _ m _ => m.Wf c) (init_wf hcreate)
    (fun _ _ _ _ _ _ _ hwf hstep => (step_wf_life hwf hstep).1) hrun

/-- **Induction over the life of a request.** A property of the calls so far, of
    what the machine holds for the handle and of the handle's own trace holds of
    every run if it holds before the first call and every transition of `Life`
    from a state of a run keeps it. -/
theorem life_induction {gcm : Gcm} {args : CreateArgs} {c : RClient}
    (hcreate : rClientCreate args = .ok c) {h : Handle}
    {P : List Call → View → List Effect → Prop} (hinit : P [] .unborn [])
    (hstep : ∀ calls m trace call view effects view',
      run gcm c calls = some (m, trace) → m.view h = view → P calls view (about h trace) →
      Life gcm c h call view effects view' → P (calls ++ [call]) view' (about h trace ++ effects))
    {calls : List Call} {m : Machine} {trace : List Effect}
    (hrun : run gcm c calls = some (m, trace)) : P calls (m.view h) (about h trace) := by
  refine Run.exec_induction (P := fun calls m trace => P calls (m.view h) (about h trace))
    ?_ ?_ hrun
  · rw [init_view hcreate]
    exact hinit
  · intro calls m trace call m' effects hrun hP hmstep
    rw [about_append]
    exact hstep calls m trace call _ _ _ hrun rfl hP
      ((step_wf_life (run_wf hcreate hrun) hmstep).2 h)

/-- Every effect of a request belongs to one transition of its life. -/
theorem life_locate {gcm : Gcm} {args : CreateArgs} {c : RClient}
    (hcreate : rClientCreate args = .ok c) {h : Handle} {calls : List Call} {m : Machine}
    {pre post : List Effect} {e : Effect} (he : e.handle? = some h)
    (hrun : run gcm c calls = some (m, pre ++ e :: post)) :
    ∃ calls₁ call calls₂ m₁ trace₁ m₂ left right,
      calls = calls₁ ++ call :: calls₂ ∧ run gcm c calls₁ = some (m₁, trace₁) ∧
      step gcm m₁ call = some (m₂, left ++ e :: right) ∧ pre = trace₁ ++ left ∧
      Life gcm c h call (m₁.view h) (about h left ++ e :: about h right) (m₂.view h) := by
  obtain ⟨calls₁, call, calls₂, m₁, trace₁, m₂, left, right, hcalls, hrun₁, hstep, hpre⟩ :=
    Run.exec_locate hrun
  refine ⟨calls₁, call, calls₂, m₁, trace₁, m₂, left, right, hcalls, hrun₁, hstep, hpre, ?_⟩
  have hlife := (step_wf_life (run_wf hcreate hrun₁) hstep).2 h
  rw [about_append, about_cons_self he] at hlife
  exact hlife

end RlClient
