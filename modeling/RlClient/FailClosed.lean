import RlClient.AdmissionLifecycle
import RlClient.Denial
import RlClient.Network

/-!
# What stands behind protected work

`r_runtime_admission_run_and_report` asks one flag of the storage whether protected work may
run. The flag is traced back here to the wire: through the completion, the candidate and the
datagram it came in to the submission that the last preparation made. Where the host keeps to
`Admission.proper`, nothing else raises it, so lost responses, errors, timeouts, responses to
other requests and whatever a callback does in between leave the work undone.
-/

namespace RlClient

/-! ### Since the last preparation -/

/-- The event has happened since the last successful preparation. -/
def Recent (e : AdmissionEvent) (trace : List AdmissionEvent) : Prop :=
  Since (fun _ x => x = e) (· = .prepared) trace

theorem Recent.append {e : AdmissionEvent} {trace more : List AdmissionEvent}
    (h : Recent e trace) (hno : .prepared ∉ more) : Recent e (trace ++ more) :=
  Since.append h fun _ hmem heq => hno (heq ▸ hmem)

theorem recent_of_mem {e : AdmissionEvent} {more : List AdmissionEvent} (hmem : e ∈ more)
    (hno : .prepared ∉ more) (trace : List AdmissionEvent) : Recent e (trace ++ more) :=
  Since.append_of_mem hmem (fun _ => rfl) fun _ hmem heq => hno (heq ▸ hmem)

/-! ### The response behind a result -/

/-- The datagram answers the request: it bears its id, came in time and from a server of its
    snapshot, is authentic under the credential, and the response is what its PDU says. -/
def Vouches (gcm : Gcm) (credential : RCredential) (started : RClientReq) (packet : Bytes)
    (io : DatagramIo) (response : RResponse) : Prop :=
  Reads gcm credential packet io.evpOk io.allocResponse started.requestId response ∧
    io.gateMs ≤ started.dedupDeadlineMs ∧ response.serverId ∈ started.targets.map (·.serverId)

/-- A response that raises the flag has no deficit and no guard that failed. -/
theorem Vouches.passes {gcm : Gcm} {credential : RCredential} {started : RClientReq}
    {packet : Bytes} {io : DatagramIo} {response : RResponse}
    (h : Vouches gcm credential started packet io response) (hsuccess : response.success = true) :
    (∀ resource ∈ response.resources, resource.tokensDeficit = 0) ∧
      ∀ guard ∈ response.guards, guard.currentLatencyMs < guard.thresholdMs := by
  obtain ⟨⟨tenant, pos, pdu, parsed, -, -, hparsed, rfl⟩, -, -⟩ := h
  obtain ⟨-, rfl⟩ := rParseRateResponseAlloc_ok hparsed
  have hjudged := responseAt_judged pdu
  obtain ⟨hguards, hresources⟩ := Bool.and_eq_true_iff.mp (hjudged.success.symm.trans hsuccess)
  refine ⟨fun resource hmem => ?_, fun guard hmem => ?_⟩
  · exact beq_iff_eq.mp (List.all_eq_true.mp hresources resource hmem)
  · have hpassed := List.all_eq_true.mp hguards guard hmem
    rw [hjudged.passed guard hmem] at hpassed
    exact of_decide_eq_true hpassed

/-- Only a result with the flag raised admits. -/
theorem classify_allowed {status : RClientError} {result : Option RRateLimitResult}
    (h : (rClientAdmissionClassify status (result.map (·.ref))).allowed = true) :
    status = .ok ∧ ∃ best, result = some best ∧ best.success = true := by
  cases result with
  | none => cases h
  | some best =>
    simp only [Option.map_some, rClientAdmissionClassify] at h
    split_ifs at h with hstatus hnull hsuccess
    · cases h
    · cases h
    · exact ⟨not_not.mp hstatus, best, rfl, hsuccess⟩
    · -- neither loop nor the fallback touches the flag
      exfalso
      revert h
      unfold blameFallback blameGuards blameResources
      repeat' split
      all_goals exact Bool.false_ne_true

namespace Admission

/-- The submission that the last preparation has led to. It admits the servers of its snapshot
    only. -/
structure Submitted (trace : List AdmissionEvent) (args : SubmitArgs) (started : RClientReq) :
    Prop where
  recent : Recent (.client (.submitted started.handle started)) trace
  resources : started.resources = args.resources.elems
  guards : started.guards = args.guards.elems
  admits : ∀ id, rAllowedServerId started id = true → id ∈ started.targets.map (·.serverId)

/-- A datagram among the calls has brought the result for the request. -/
def Heard (gcm : Gcm) (c : RClient) (calls : List AdmissionCall) (trace : List AdmissionEvent)
    (started : RClientReq) (result : RRateLimitResult) : Prop :=
  ∃ packet sender io response, .host (.datagram packet sender io) ∈ calls ∧
    Vouches gcm c.credential started packet io response ∧
    Recent (.client (.accepted started.handle response)) trace ∧ result = response.result

/-- What is known of the request that the storage waits for. -/
def Awaited (gcm : Gcm) (c : RClient) (calls : List AdmissionCall) (trace : List AdmissionEvent)
    (args : SubmitArgs) (req : RClientReq) : Prop :=
  ∃ started, Submitted trace args started ∧ SameRequest started req ∧
    ∀ best, req.best = some best → Heard gcm c calls trace started best

/-- What admits. -/
def Permit (gcm : Gcm) (c : RClient) (calls : List AdmissionCall) (trace : List AdmissionEvent)
    (args : SubmitArgs) : Prop :=
  ∃ started result, Submitted trace args started ∧
    Heard gcm c calls trace started result ∧ result.success = true

/-- The flag of the storage has something behind it. -/
structure Grounded (gcm : Gcm) (c : RClient) (calls : List AdmissionCall)
    (trace : List AdmissionEvent) (s : Admission) : Prop where
  awaited : ∀ req ∈ s.machine.client.inflight, s.request.handle = some req.handle →
    Awaited gcm c calls trace s.request.submission req
  permitted : s.request.admitted = true → Permit gcm c calls trace s.request.submission

variable {gcm : Gcm} {ids : IdDerivation} {c : RClient} {s s' : Admission} {t : Ticket}
  {calls calls' : List AdmissionCall} {trace events : List AdmissionEvent}
  {args : SubmitArgs} {started req req' : RClientReq}

/-! ### What more calls and events leave alone -/

theorem Submitted.append (h : Submitted trace args started) (hno : .prepared ∉ events) :
    Submitted (trace ++ events) args started :=
  ⟨h.recent.append hno, h.resources, h.guards, h.admits⟩

theorem Heard.append {result : RRateLimitResult} (h : Heard gcm c calls trace started result)
    (hcalls : calls ⊆ calls') (hno : .prepared ∉ events) :
    Heard gcm c calls' (trace ++ events) started result := by
  obtain ⟨packet, sender, io, response, hcall, hvouches, hrecent, hresult⟩ := h
  exact ⟨packet, sender, io, response, hcalls hcall, hvouches, hrecent.append hno, hresult⟩

theorem Awaited.append (h : Awaited gcm c calls trace args req) (hcalls : calls ⊆ calls')
    (hno : .prepared ∉ events) : Awaited gcm c calls' (trace ++ events) args req := by
  obtain ⟨started, hsubmitted, hsame, hbest⟩ := h
  exact ⟨started, hsubmitted.append hno, hsame, fun best h => (hbest best h).append hcalls hno⟩

theorem Permit.append (h : Permit gcm c calls trace args) (hcalls : calls ⊆ calls')
    (hno : .prepared ∉ events) : Permit gcm c calls' (trace ++ events) args := by
  obtain ⟨started, result, hsubmitted, hheard, hsuccess⟩ := h
  exact ⟨started, result, hsubmitted.append hno, hheard.append hcalls hno, hsuccess⟩

/-- A step that leaves the list and the decision alone. -/
theorem Grounded.quiet (h : Grounded gcm c calls trace s) (hcalls : calls ⊆ calls')
    (hno : .prepared ∉ events)
    (hinflight : s'.machine.client.inflight = s.machine.client.inflight)
    (hrequest : ∃ worked reported, s'.request =
      { s.request with workExecuted := worked, latencyReported := reported }) :
    Grounded gcm c calls' (trace ++ events) s' := by
  obtain ⟨worked, reported, hrequest⟩ := hrequest
  refine ⟨?_, ?_⟩
  · rw [hinflight, hrequest]
    exact fun req hmem hhandle => (h.awaited req hmem hhandle).append hcalls hno
  · rw [hrequest]
    exact fun hadmitted => (h.permitted hadmitted).append hcalls hno

/-- A storage that neither waits nor admits has nothing to show. -/
theorem Grounded.idle (hhandle : s.request.handle = none) (hadmitted : s.request.admitted = false) :
    Grounded gcm c calls trace s := by
  refine ⟨fun req _ heq => ?_, fun heq => ?_⟩
  · rw [hhandle] at heq
    cases heq
  · rw [hadmitted] at heq
    cases heq

/-! ### Calls into the client -/

/-- What a call leaves of the awaited request is grounded as before, or by the response that the
    call has brought. -/
theorem Awaited.step {m m' : Machine} {call : Call} {effects : List Effect} (hwf : m.bare.Wf c)
    (hstep : RlClient.step gcm m.bare call = some (m', effects))
    (h : Awaited gcm c calls trace args req) (hmem : req ∈ m.client.inflight)
    (htreated : ReqStep c req.handle req call (about req.handle effects) (m'.view req.handle))
    (hview : (m'.view req.handle).request? = some req') (hcalls : calls ⊆ calls')
    (hcall : .host call ∈ calls' ∨ ∀ packet sender io, call ≠ .datagram packet sender io)
    (hno : .prepared ∉ events) (hclient : ∀ e ∈ effects, .client e ∈ events) :
    Awaited gcm c calls' (trace ++ events) args req' := by
  obtain ⟨started, hsubmitted, hsame, hbest⟩ := h
  refine ⟨started, hsubmitted.append hno, hsame.trans (htreated.same hview), ?_⟩
  intro best hheld
  rcases htreated.memory hview with
    ⟨-, hmemory⟩ | ⟨packet, sender, io, response, rfl, hone, hmemory⟩
  · rw [hmemory.best] at hheld
    exact (hbest best hheld).append hcalls hno
  · -- the candidate is the one held before, or the response that has come
    have haccepted : Effect.accepted req.handle response ∈ effects := by
      rw [← mem_acceptedBy, ← acceptedBy_about, hone]
      exact List.mem_singleton_self response
    obtain ⟨_, _, _, found, heq, hgate, hhandle⟩ := step_accepted hwf hstep haccepted
    obtain ⟨rfl, rfl, rfl⟩ := Call.datagram.inj heq
    obtain ⟨tenant, pos, pdu, parsed, hparsed, hfind, hintime, hallowed, hextract, hresponse,
      hread⟩ := onDatagramGate_ok_iff.mp hgate
    obtain rfl : found = req := by
      have hlive := view_of_mem hwf (List.mem_of_find?_eq_some hfind)
      rw [hhandle, view_of_mem hwf hmem] at hlive
      exact (View.live.inj hlive).symm
    obtain ⟨addrs, addrCap, hrecorded⟩ := recordResponse_eq found response sender io.allocSeen
    rw [hmemory.best, hrecorded] at hheld
    have hfrom : best = response.result ∨ found.best = some best := by
      simp only [rCandidateTryUpdateBest] at hheld
      split at hheld
      · exact .inl (Option.some.inj hheld).symm
      · split at hheld
        · exact .inl (Option.some.inj hheld).symm
        · exact .inr hheld
    rcases hfrom with rfl | hkept
    · have hid := List.find?_some hfind
      rw [beq_iff_eq, hsame.requestId] at hid
      rw [rAllowedServerId_of_same hsame] at hallowed
      rw [hsame.dedupDeadlineMs] at hintime
      rw [credential_of_static hwf.static] at hextract
      rw [hsame.handle] at haccepted
      refine ⟨packet, sender, io, response, ?_, ⟨⟨tenant, pos, pdu, parsed, ⟨hparsed, hextract⟩,
        hid.symm, hresponse, hread⟩, hintime, by rw [hread]; exact hsubmitted.admits _ hallowed⟩,
        recent_of_mem (hclient _ haccepted) hno trace, rfl⟩
      rcases hcall with hcall | hother
      · exact hcall
      · exact absurd rfl (hother packet sender io)
    · exact (hbest best hkept).append hcalls hno

/-- A callback with `RCLIENT_OK` hands over the candidate that its request has ended with. -/
theorem callback_request {m m' : Machine} {call : Call} {effects : List Effect} {k : Handle}
    {status : RClientError} {result : Option RRateLimitResult} (hwf : m.bare.Wf c)
    (hstep : RlClient.step gcm m.bare call = some (m', effects))
    (he : Effect.callback (some k) status result ∈ effects) :
    ∃ req ∈ m.client.inflight, req.handle = k ∧
      ReqStep c req.handle req call (about req.handle effects) (m'.view req.handle) ∧
      ∃ last, (m'.view req.handle).request? = some last ∧ (status = .ok → last.best = result) := by
  have hmark : (Effect.callback (some k) status result).mark? k = some .fired := if_pos rfl
  have hown : Effect.callback (some k) status result ∈ about k effects := mem_about.mpr ⟨he, rfl⟩
  obtain ⟨req, last, hlive, hcalling, htreated⟩ :=
    ((step_wf_life hwf hstep).2 k).fires (List.mem_filterMap.mpr ⟨_, hown, hmark⟩)
  obtain ⟨own, status', result', hown', hunmarked, hresult⟩ := htreated.completion
  obtain ⟨rfl, rfl⟩ : status = status' ∧ result = result' := by
    rw [hown'] at hown
    rcases List.mem_append.mp hown with hmem | hmem
    · exact absurd (hunmarked _ hmem) (by rw [hmark]; simp)
    · obtain ⟨-, hstatus, hsame⟩ := Effect.callback.inj (List.mem_singleton.mp hmem)
      exact ⟨hstatus, hsame⟩
  have hfind := view_live_iff.mp hlive
  obtain rfl := Keyed.key_of_find hfind
  rw [← hcalling] at htreated
  refine ⟨req, List.mem_of_find?_eq_some hfind, rfl, htreated, last, by rw [hcalling]; rfl,
    fun hok => ?_⟩
  rcases hresult with ⟨-, best, hsome, hbest⟩ | ⟨hbad, -⟩
  · rw [hbest, ← hsome]
  · exact absurd hok hbad

theorem Grounded.enter {call : Call} (h : Grounded gcm c calls trace s) (ht : Tracked c s t)
    (henter : s.enter gcm call = some (s', events)) (hcalls : calls ⊆ calls')
    (hcall : .host call ∈ calls' ∨ ∀ packet sender io, call ≠ .datagram packet sender io) :
    Grounded gcm c calls' (trace ++ events) s' := by
  unfold Admission.enter at henter
  split at henter
  · cases henter
  rename_i m' effects hstep
  obtain ⟨rfl, rfl⟩ := Prod.mk.inj (Option.some.inj henter)
  obtain ⟨hclient, hevents⟩ := absorb_events s.owned s.request effects
  have hno : .prepared ∉ (absorb s.owned s.request effects).2 := fun hmem => by
    simpa using hevents _ hmem
  rcases absorb_cases (step_ends ht.wf hstep) s.owned s.request with
    ⟨-, habsorb⟩ | ⟨k, hk, status, result, he, habsorb⟩
  · rw [habsorb] at hclient hno ⊢
    refine ⟨?_, fun hadmitted => (h.permitted hadmitted).append hcalls hno⟩
    intro req' hmem' hhandle
    obtain ⟨hwf', hlife⟩ := step_wf_life ht.wf hstep
    obtain ⟨req, hmem, hsame⟩ := (ht.linked _ (ht.mine _ hhandle)).mpr hhandle
    have hawaited := h.awaited req hmem (by rw [hsame]; exact hhandle)
    have hview : m'.view req.handle = .live req' := by
      rw [hsame]
      exact view_of_mem hwf' hmem'
    have hlife := hlife req.handle
    rw [view_of_mem ht.wf hmem, hview] at hlife
    generalize hown : about req.handle effects = own at hlife
    cases hlife with
    | idle => exact hawaited.append hcalls hno
    | treated _ _ _ _ htreated =>
      rw [← hown, ← hview] at htreated
      exact hawaited.step ht.wf hstep hmem htreated (by rw [hview]; rfl) hcalls hcall hno hclient
  · -- the awaited request completes with its candidate, which the storage classifies
    obtain ⟨req, hmem, rfl, htreated, last, hlast, hbest⟩ := callback_request ht.wf hstep he
    obtain ⟨started, hsubmitted, -, hheard⟩ := (h.awaited req hmem
      ((ht.linked _ hk).mp ⟨req, hmem, rfl⟩)).step ht.wf hstep hmem htreated hlast hcalls hcall
      hno hclient
    refine ⟨fun req _ hhandle => ?_, fun hadmitted => ?_⟩
    · simp only [habsorb, rAdmissionComplete] at hhandle
      cases hhandle
    · simp only [habsorb] at hadmitted hsubmitted hheard ⊢
      obtain ⟨rfl, best, rfl, hsuccess⟩ := classify_allowed hadmitted
      exact ⟨started, best, hsubmitted, hheard best (hbest rfl), hsuccess⟩

/-! ### Preparation and start -/

theorem built_admits {io : SubmitIo} {h : Handle} (built : Built gcm c h args io req) {id : UInt64}
    (hid : rAllowedServerId req id = true) : id ∈ req.targets.map (·.serverId) := by
  have hids : req.allowedIds = snapshotIds built.servers := congrArg RClientReq.allowedIds built.eq
  have htargets : req.targets = built.servers := congrArg RClientReq.targets built.eq
  obtain ⟨server, hserver⟩ := List.exists_mem_of_ne_nil _ built.nonempty
  have hmem : server.serverId ∈ req.allowedIds := by
    rw [hids, mem_snapshotIds]
    exact List.mem_map_of_mem hserver
  have hlength : ¬ req.allowedIds.length = 0 := (List.length_pos_of_mem hmem).ne'
  rw [rAllowedServerId, if_neg hlength, hids] at hid
  rw [htargets, ← mem_snapshotIds]
  simpa using hid

/-- A request that a submission has put into the list. -/
theorem submit_launched {m m' : Machine} {io : SubmitIo} {effects : List Effect} (hwf : m.Wf c)
    (hstep : RlClient.step gcm m (.submit args io) = some (m', effects))
    (hmem : req ∈ m'.client.inflight) (hnew : m.nextHandle = req.handle) :
    Effect.submitted req.handle req ∈ effects ∧ req.resources = args.resources.elems ∧
      req.guards = args.guards.elems ∧ req.best = none ∧
      ∀ id, rAllowedServerId req id = true → id ∈ req.targets.map (·.serverId) := by
  obtain ⟨hwf', hlife⟩ := step_wf_life hwf hstep
  have hlife := hlife req.handle
  rw [view_of_mem hwf' hmem, ← hnew, view_next hwf, hnew] at hlife
  generalize hown : about req.handle effects = own at hlife
  cases hlife with
  | launched _ _ base gapUnits built =>
    refine ⟨?_, ?_⟩
    · refine (mem_about.mp (?_ : Effect.submitted base.handle _ ∈ about base.handle effects)).1
      rw [show about base.handle effects = _ from hown]
      exact List.mem_append_right _ (List.mem_singleton_self _)
    · have hfields : base.resources = args.resources.elems ∧ base.guards = args.guards.elems ∧
          base.best = none := by
        rw [built.eq]
        exact ⟨rfl, rfl, rfl⟩
      exact ⟨hfields.1, hfields.2.1, hfields.2.2, fun id hid => built_admits built hid⟩

theorem Grounded.start (h : Grounded gcm c calls trace s) (ids : IdDerivation) (ht : Tracked c s t)
    (config : RAdmissionConfig) (hasCb : Bool) (io : SubmitIo) (hcalls : calls ⊆ calls') :
    Grounded gcm c calls' (trace ++ (s.start gcm ids config hasCb io).2)
      (s.start gcm ids config hasCb io).1 := by
  rcases prepare_cases ids s.request config hasCb with
    ⟨hsame, hevents⟩ | ⟨hhandle, -, hadmitted, -, -, ⟨hfail, -⟩ | ⟨hok, hevents⟩⟩
  · simp only [Admission.start, hsame, hevents]
    exact h.quiet hcalls List.not_mem_nil rfl ⟨_, _, rfl⟩
  · simp only [Admission.start, if_pos hfail]
    exact .idle hhandle hadmitted
  simp only [Admission.start, if_neg (not_not.mpr hok), hevents]
  generalize (rClientAdmissionPrepare ids s.request config hasCb).2 = request at *
  rcases startPrepared_cases gcm s.machine.client ht.wf.identified s.machine.nextHandle request io
    with ⟨-, hrequest, -⟩ | ⟨-, hrequest, -⟩
  · rw [hrequest]
    exact .idle rfl hadmitted
  · rw [hrequest]
    refine ⟨fun req hmem hhandle => ?_, fun heq => ?_⟩
    · have hstep : RlClient.step gcm s.machine.bare (.submit request.submission io) =
        some (_, _) := rfl
      rw [startPrepared_reply] at hmem
      obtain ⟨hsubmitted, hresources, hguards, hbest, hadmits⟩ :=
        submit_launched ht.wf hstep hmem (Option.some.inj hhandle)
      rw [← List.append_assoc]
      refine ⟨req, ⟨recent_of_mem ?_ ?_ _, hresources, hguards, hadmits⟩, .refl req,
        fun best hheld => ?_⟩
      · rw [startPrepared_reply]
        exact List.mem_append_left _ (List.mem_map_of_mem hsubmitted)
      · split <;> simp
      · rw [hbest] at hheld
        cases hheld
    · rw [hadmitted] at heq
      cases heq

/-! ### Steps and runs -/

theorem report_kept (gcm : Gcm) (s : Admission) (observedLatencyMs : UInt32) (io : ReportIo) :
    let reported := s.report gcm observedLatencyMs io
    .prepared ∉ reported.2 ∧
      reported.1.machine.client.inflight = s.machine.client.inflight ∧
      ∃ worked latency, reported.1.request =
        { s.request with workExecuted := worked, latencyReported := latency } := by
  obtain ⟨-, hinflight, hcases⟩ :=
    report_cases gcm s.request s.machine.client observedLatencyMs io
  refine ⟨by simp [Admission.report], hinflight, ?_⟩
  rcases hcases with ⟨-, hsame, -⟩ | ⟨-, -, -, -, hset⟩
  · exact ⟨_, _, hsame⟩
  · exact ⟨_, _, hset⟩

theorem leave_kept (hleave : s.leave gcm = some (s', events)) :
    .prepared ∉ events ∧ s'.machine.client.inflight = s.machine.client.inflight ∧
      s'.request = s.request := by
  unfold leave at hleave
  split at hleave
  · split at hleave
    · cases hleave
    · rename_i m' effects hreturn
      cases hleave
      refine ⟨by simp, ?_, rfl⟩
      cases stepped_of_step hreturn with
      | callbackReturn frame frames => exact rCallbackReturned_inflight s.machine.client frame
  · cases hleave

theorem Grounded.step {call : AdmissionCall} (h : Grounded gcm c calls trace s)
    (ht : Tracked c s t) (hstep : s.step gcm ids call = some (s', events)) :
    Grounded gcm c (calls ++ [call]) (trace ++ events) s' := by
  have hcalls : calls ⊆ calls ++ [call] := List.subset_append_left calls [call]
  cases moved_of_step hstep with
  | silent => exact h.quiet hcalls List.not_mem_nil rfl ⟨_, _, rfl⟩
  | prepared config hasCb =>
    rcases prepare_cases ids s.request config hasCb with
      ⟨heq, hevents⟩ | ⟨hhandle, -, hadmitted, -⟩
    · rw [heq, hevents]
      exact h.quiet hcalls List.not_mem_nil rfl ⟨_, _, rfl⟩
    · exact .idle hhandle hadmitted
  | started config hasCb io => exact h.start ids ht config hasCb io hcalls
  | timedOut _ _ _ _ _ henter => exact h.enter ht henter hcalls (.inr (by simp))
  | cancelled => exact .idle rfl rfl
  | reported observed io =>
    obtain ⟨hno, hinflight, hrequest⟩ := report_kept gcm s observed io
    exact h.quiet hcalls hno hinflight hrequest
  | working => exact h.quiet hcalls (by simp) rfl ⟨_, _, rfl⟩
  | worked => exact h.quiet hcalls (by simp) rfl ⟨_, _, rfl⟩
  | workReported _ io rest observed =>
    obtain ⟨hno, hinflight, hrequest⟩ := report_kept gcm { s with stack := rest } observed io
    exact h.quiet hcalls (by simpa using hno) hinflight hrequest
  | returned _ _ hleave =>
    obtain ⟨hno, hinflight, hrequest⟩ := leave_kept hleave
    exact h.quiet hcalls hno hinflight ⟨_, _, hrequest⟩
  | called _ _ _ henter =>
    exact h.enter ht henter hcalls (.inl (List.mem_append_right _ (List.mem_singleton_self _)))

theorem run_grounded {args : CreateArgs} (hcreate : rClientCreate args = .ok c)
    {request : RAdmissionRequest Handle} (hrest : AtRest request)
    (hproper : Run.Along (Admission.step gcm ids) (init c request) calls fun s call =>
      s.proper call = true)
    (hrun : run gcm ids c request calls = some (s, trace)) : Grounded gcm c calls trace s := by
  refine hproper.exec_induction (P := fun calls s trace => Grounded gcm c calls trace s) ?_ ?_ hrun
  · exact .idle hrest.handle hrest.admitted
  · intro calls s trace call s' events hbefore hran hgrounded _ hstep
    obtain ⟨t, -, htracked⟩ := run_tracked hcreate hrest hbefore hran
    exact hgrounded.step htracked hstep

/-- Only an admitted request lets work run. -/
theorem step_work {call : AdmissionCall} (hstep : s.step gcm ids call = some (s', events))
    (hwork : .work ∈ events) : s.request.admitted = true := by
  cases moved_of_step hstep with
  | silent => cases hwork
  | prepared config hasCb => exact absurd hwork (preparation_passive ids s.request config hasCb).1
  | started config hasCb io => exact absurd hwork (start_passive ids config hasCb io).1
  | timedOut _ _ _ _ _ henter => exact absurd hwork (enter_passive henter).1
  | cancelled => simp at hwork
  | reported => simp [Admission.report] at hwork
  | working _ _ hadmitted => exact hadmitted
  | worked => simp at hwork
  | workReported => simp [Admission.report] at hwork
  | returned _ _ hleave => exact absurd hwork (leave_passive hleave).1
  | called _ _ _ henter => exact absurd hwork (enter_passive henter).1

end Admission

/-- **Protected work is fail-closed.** In every run in which the storage is prepared and started
    only while its request is not active and the client request behind it is cancelled only through
    the storage: whenever a step lets protected work begin, the last successful preparation has led
    to a submission for exactly the bucket and the tracker of the storage, and a datagram among the
    calls has answered that submission: with its id, in time, from a server of its snapshot and
    authentic under the credential of the client. What the client has accepted from it has no
    deficit and no guard at its threshold. -/
theorem work_fails_closed {gcm : Gcm} {ids : IdDerivation} {args : CreateArgs} {c : RClient}
    (hcreate : rClientCreate args = .ok c) {request : RAdmissionRequest Handle}
    (hrest : Admission.AtRest request) {calls : List AdmissionCall} {s s' : Admission}
    {trace events : List AdmissionEvent}
    (hproper : Run.Along (Admission.step gcm ids) (.init c request) calls fun s call =>
      s.proper call = true)
    (hrun : Admission.run gcm ids c request calls = some (s, trace)) {call : AdmissionCall}
    (hstep : s.step gcm ids call = some (s', events)) (hwork : .work ∈ events) :
    ∃ started packet sender io response,
      Recent (.client (.submitted started.handle started)) trace ∧
      started.resources = [s.request.resource] ∧ started.guards = [s.request.guard] ∧
      .host (.datagram packet sender io) ∈ calls ∧
      Vouches gcm c.credential started packet io response ∧
      Recent (.client (.accepted started.handle response)) trace ∧
      (∀ resource ∈ response.resources, resource.tokensDeficit = 0) ∧
      ∀ guard ∈ response.guards, guard.currentLatencyMs < guard.thresholdMs := by
  obtain ⟨started, result, hsubmitted, hheard, hsuccess⟩ :=
    (Admission.run_grounded hcreate hrest hproper hrun).permitted (Admission.step_work hstep hwork)
  obtain ⟨packet, sender, io, response, hcall, hvouches, hrecent, rfl⟩ := hheard
  exact ⟨started, packet, sender, io, response, hsubmitted.recent, hsubmitted.resources,
    hsubmitted.guards, hcall, hvouches, hrecent, hvouches.passes hsuccess⟩

/-- The sample request is admitted by the response of server 3, and its work begins. -/
theorem work_fails_closed_admitted :
    ∃ s trace s' events, Admission.run noGcm sampleIds sampleClient (.zero Handle)
        (sampleAdmissionCalls.take 2) = some (s, trace) ∧
      s.step noGcm sampleIds (.runAndReport true (some 1000)) = some (s', events) ∧
      .work ∈ events ∧
      ∃ started packet sender io response,
        .host (.datagram packet sender io) ∈ sampleAdmissionCalls.take 2 ∧
        Vouches noGcm sampleClient.credential started packet io response := by
  have hproper : Run.Along (Admission.step noGcm sampleIds) (.init sampleClient (.zero Handle))
      (sampleAdmissionCalls.take 2) fun s call => s.proper call = true := by
    decide +kernel
  have hrun : ((Admission.run noGcm sampleIds sampleClient (.zero Handle)
      (sampleAdmissionCalls.take 2)).bind fun last =>
        (last.1.step noGcm sampleIds (.runAndReport true (some 1000))).map (·.2)) =
      some [.work] := by
    decide +kernel
  obtain ⟨⟨s, trace⟩, hrun, hthen⟩ := Option.bind_eq_some_iff.mp hrun
  obtain ⟨⟨s', events⟩, hstep, rfl⟩ := Option.map_eq_some_iff.mp hthen
  have hwork : AdmissionEvent.work ∈ [AdmissionEvent.work] := List.mem_singleton_self _
  obtain ⟨started, packet, sender, io, response, -, -, -, hcall, hvouches, -⟩ :=
    work_fails_closed sampleClient_created ⟨rfl, rfl, rfl⟩ hproper hrun hstep hwork
  exact ⟨s, trace, s', _, hrun, hstep, hwork, started, packet, sender, io, response, hcall,
    hvouches⟩

end RlClient
