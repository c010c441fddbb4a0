import RlClient.Completion

/-!
# Requests do not see each other

The requests of a client share one list, one server table and one entry point for
datagrams. What an event does to a request nevertheless depends on nothing but the
request and the configuration of the client: two clients of one configuration that
hold the same request treat it alike. An event touches at most one request, and the
run of one request is the run in which everything else is left out.
-/

namespace RlClient

/-! ### One request in two clients -/

/-- Two clients treat `req` alike: the same effects, the same callback, and the same
    request written back, or removed, in either list. -/
structure Alike (req : RClientReq) (c c' : RClient) (reply reply' : Reply) : Prop where
  effects : reply'.effects = reply.effects
  frame : reply'.frame = reply.frame
  inflight : ∃ left : Option RClientReq, (∀ req', left = some req' → SameRequest req req') ∧
    reply.client.inflight = Keyed.assign (·.handle) req.handle left c.inflight ∧
    reply'.client.inflight = Keyed.assign (·.handle) req.handle left c'.inflight

theorem alike_put {req req' : RClientReq} {c c' c₁ c₁' : RClient} {status : RClientError}
    {effects : List Effect} (hsame : SameRequest req req') (hinflight : c₁.inflight = c.inflight)
    (hinflight' : c₁'.inflight = c'.inflight) :
    Alike req c c' (.done status (c₁.putRequest req') effects)
      (.done status (c₁'.putRequest req') effects) := by
  refine ⟨rfl, rfl, some req', fun _ heq => Option.some.inj heq ▸ hsame, ?_, ?_⟩
  · simp only [Reply.done, RClient.putRequest, hinflight, hsame.handle]
    rfl
  · simp only [Reply.done, RClient.putRequest, hinflight', hsame.handle]
    rfl

theorem alike_same {req : RClientReq} {c c' c₁ c₁' : RClient} {status : RClientError}
    {effects : List Effect} (hnodup : (c.inflight.map (·.handle)).Nodup)
    (hnodup' : (c'.inflight.map (·.handle)).Nodup) (hmem : req ∈ c.inflight)
    (hmem' : req ∈ c'.inflight) (hinflight : c₁.inflight = c.inflight)
    (hinflight' : c₁'.inflight = c'.inflight) :
    Alike req c c' (.done status c₁ effects) (.done status c₁' effects) := by
  refine ⟨rfl, rfl, some req, fun _ heq => Option.some.inj heq ▸ .refl req, ?_, ?_⟩
  · exact hinflight.trans (Keyed.replace_self hnodup hmem).symm
  · exact hinflight'.trans (Keyed.replace_self hnodup' hmem').symm

/-- A completion removes the request, whether it was written back before or not. -/
theorem alike_complete {req req' : RClientReq} {c c' c₁ c₁' : RClient} {status : RClientError}
    {selected : Option RRateLimitResult} {io : CompleteIo} {before : List Effect}
    (hstatic : c₁'.static = c₁.static) (hhandle : req'.handle = req.handle)
    (hremoved : c₁.inflight.eraseP (·.handle == req.handle) =
      c.inflight.eraseP (·.handle == req.handle))
    (hremoved' : c₁'.inflight.eraseP (·.handle == req.handle) =
      c'.inflight.eraseP (·.handle == req.handle)) :
    Alike req c c' (.complete c₁ req' status selected io before)
      (.complete c₁' req' status selected io before) := by
  have hprofile : c₁'.requestProfileCb = c₁.requestProfileCb := by
    change c₁'.static.requestProfileCb = c₁.static.requestProfileCb
    rw [hstatic]
  refine ⟨?_, rfl, none, fun _ heq => absurd heq (by simp), ?_, ?_⟩
  · simp only [Reply.complete, rRequestComplete, hprofile, rCompletionDelivery_of_static hstatic]
  · simp only [Reply.complete, rRequestComplete, rRequestRemove, hhandle]
    exact hremoved
  · simp only [Reply.complete, rRequestComplete, rRequestRemove, hhandle]
    exact hremoved'

theorem removed_put {req req' : RClientReq} {c c₁ : RClient}
    (hnodup : (c.inflight.map (·.handle)).Nodup) (hhandle : req'.handle = req.handle)
    (hinflight : c₁.inflight = c.inflight) :
    (c₁.putRequest req').inflight.eraseP (·.handle == req.handle) =
      c.inflight.eraseP (·.handle == req.handle) := by
  simp only [RClient.putRequest, hinflight, ← hhandle]
  exact Keyed.eraseP_replace hnodup

theorem rSendRateRequest_alike {c c' : RClient} (hstatic : c'.static = c.static)
    (req : RClientReq) (missingOnly bestEffort : Bool) (pass : SendPass) (startedMs : UInt64)
    (udpSend : Nat → Bool) :
    (rSendRateRequest c' req missingOnly bestEffort pass startedMs udpSend).status =
        (rSendRateRequest c req missingOnly bestEffort pass startedMs udpSend).status ∧
      (rSendRateRequest c' req missingOnly bestEffort pass startedMs udpSend).effects =
        (rSendRateRequest c req missingOnly bestEffort pass startedMs udpSend).effects := by
  unfold rSendRateRequest
  rw [udpSend_of_static hstatic]
  by_cases hempty : req.packet.length = 0
  · simp only [hempty, if_true, Reply.done, and_self]
  simp only [hempty, if_false]
  by_cases hudp : (!c.udpSend) = true
  · simp only [hudp, if_true, Reply.done, and_self]
  rw [if_neg hudp, if_neg hudp]
  by_cases hnone : (!bestEffort && (attemptedTargets req missingOnly).length > 0 &&
      deliveredCount req missingOnly udpSend = 0) = true
  · rw [if_pos hnone, if_pos hnone]
    simp only [Reply.done, and_self]
  rw [if_neg hnone, if_neg hnone]
  by_cases hsome : (!bestEffort && deliveredCount req missingOnly udpSend > 0 &&
      deliveredCount req missingOnly udpSend < (attemptedTargets req missingOnly).length) = true
  · rw [if_pos hsome, if_pos hsome]
    simp only [Reply.done, and_self]
  · rw [if_neg hsome, if_neg hsome]
    simp only [Reply.done, and_self]

theorem rStartRound_alike {c c' : RClient} (hstatic : c'.static = c.static) (req : RClientReq)
    (round : UInt32) (nowMs : UInt64) (udpSend : Nat → Bool) :
    (rStartRound c' req round nowMs udpSend).1 = (rStartRound c req round nowMs udpSend).1 ∧
      (rStartRound c' req round nowMs udpSend).2.status =
        (rStartRound c req round nowMs udpSend).2.status ∧
      (rStartRound c' req round nowMs udpSend).2.effects =
        (rStartRound c req round nowMs udpSend).2.effects := by
  unfold rStartRound
  rw [policy_of_static hstatic]
  split
  · exact ⟨rfl, rfl, rfl⟩
  split
  · exact ⟨rfl, rfl, rfl⟩
  · exact ⟨rfl, rSendRateRequest_alike hstatic _ _ _ _ _ _⟩

theorem rStartRound_same (c : RClient) (req : RClientReq) (round : UInt32) (nowMs : UInt64)
    (udpSend : Nat → Bool) : SameRequest req (rStartRound c req round nowMs udpSend).1 := by
  rcases rStartRound_cases c req round nowMs udpSend with
    ⟨heq, -⟩ | ⟨rc, heq, -⟩ | ⟨gapUnits, -, -, -, heq⟩
  · rw [heq]
    exact .refl req
  · rw [heq]
    exact .refl req
  · rw [heq]
    exact ⟨rfl, rfl, rfl, rfl, rfl, rfl, rfl, rfl⟩

section

variable {c c' : RClient} (hstatic : c'.static = c.static) {req : RClientReq}
  (hnodup : (c.inflight.map (·.handle)).Nodup) (hnodup' : (c'.inflight.map (·.handle)).Nodup)
include hstatic hnodup hnodup'

theorem acceptResponse_alike (response : RResponse) (sender : RAddr) (io : DatagramIo) :
    Alike req c c' (acceptResponse c req response sender io)
      (acceptResponse c' req response sender io) := by
  have hsame := recordResponse_same req response sender io.allocSeen
  simp only [acceptResponse]
  cases selectBest (recordResponse req response sender io.allocSeen) io.nowMs with
  | none => exact alike_put (hsame.trans (holdCandidate_same _)) rfl rfl
  | some best =>
    exact alike_complete hstatic hsame.handle (removed_put hnodup hsame.handle rfl)
      (removed_put hnodup' hsame.handle rfl)

theorem replayRound_alike (io : TimeoutIo) (before : List Effect) :
    Alike req c c' (replayRound c req io before) (replayRound c' req io before) := by
  obtain ⟨hstarted, hstatus, heffects⟩ :=
    rStartRound_alike hstatic req (req.haRound + 1) io.roundMs io.udpSend
  obtain ⟨n, hclient⟩ := rStartRound_client c req (req.haRound + 1) io.roundMs io.udpSend
  obtain ⟨n', hclient'⟩ := rStartRound_client c' req (req.haRound + 1) io.roundMs io.udpSend
  have hsame := rStartRound_same c req (req.haRound + 1) io.roundMs io.udpSend
  unfold replayRound
  simp only
  rw [hstarted, hstatus, heffects]
  split
  · exact alike_put hsame (by rw [hclient]) (by rw [hclient'])
  · refine alike_complete ?_ hsame.handle (removed_put hnodup hsame.handle (by rw [hclient]))
      (removed_put hnodup' hsame.handle (by rw [hclient']))
    rw [hclient, hclient']
    exact hstatic

theorem rRequestPolicyOnTimeout_alike (nowMs : UInt64) (io : TimeoutIo) (before : List Effect) :
    Alike req c c' (rRequestPolicyOnTimeout c req nowMs io before)
      (rRequestPolicyOnTimeout c' req nowMs io before) := by
  have hmoved : ∀ deadlineMs, SameRequest req { req with attemptDeadlineMs := deadlineMs } :=
    fun _ => ⟨rfl, rfl, rfl, rfl, rfl, rfl, rfl, rfl⟩
  unfold rRequestPolicyOnTimeout
  rw [policy_of_static hstatic]
  split
  · split
    · exact alike_complete hstatic rfl rfl rfl
    · exact alike_put (hmoved _) rfl rfl
  split
  · exact alike_put (hmoved _) rfl rfl
  split
  · split
    · exact replayRound_alike hstatic hnodup hnodup' io before
    · split
      · exact alike_complete hstatic rfl rfl rfl
      · rename_i entered hentered
        obtain ⟨-, rfl⟩ := rEnterFinal_ok hentered
        exact alike_put ⟨rfl, rfl, rfl, rfl, rfl, rfl, rfl, rfl⟩ rfl rfl
  · exact alike_complete hstatic rfl rfl rfl

theorem rClientOnTimeout_alike (hmem : req ∈ c.inflight) (hmem' : req ∈ c'.inflight)
    (nowMs : UInt64) (io : TimeoutIo) :
    Alike req c c' (rClientOnTimeout c req nowMs io) (rClientOnTimeout c' req nowMs io) := by
  unfold rClientOnTimeout
  simp only
  split
  · -- the timer was early and the request stays as it is
    exact alike_same hnodup hnodup' hmem hmem' rfl rfl
  · exact rRequestPolicyOnTimeout_alike hstatic hnodup hnodup' nowMs io _

end

/-! ### Events -/

def datagramRequestId (buf : Bytes) : Option (FixedBytes 16) :=
  match rParseTenantHeader buf with
  | .ok (tenant, _) => some tenant.uniqueId
  | .error _ => none

/-- The call is an event of request `req`: a datagram that carries its id, its timer
    or its cancellation. -/
def Call.touches : Call → RClientReq → Bool
  | .datagram buf _ _, req => datagramRequestId buf == some req.requestId
  | .timeout h _ _, req => req.handle == h
  | .cancel h, req => req.handle == h
  | _, _ => false

/-- Whether a call is an event of a request is a matter of its handle and its id. -/
theorem Call.touches_congr {req req' : RClientReq} (hhandle : req'.handle = req.handle)
    (hid : req'.requestId = req.requestId) (call : Call) :
    call.touches req' = call.touches req := by
  cases call with
  | datagram buf sender io => rw [touches, touches, hid]
  | timeout h nowMs io => rw [touches, touches, hhandle]
  | cancel h => rw [touches, touches, hhandle]
  | submit => rfl
  | report => rfl
  | callbackReturn => rfl
  | refreshFinish => rfl

/-- A call whose callback, if it makes one, returns before anything else happens. -/
def settle (gcm : Gcm) (m : Machine) (call : Call) : Option (Machine × List Effect) :=
  (step gcm m call).bind fun called =>
    if called.1.frames.isEmpty then some called
    else
      (step gcm called.1 .callbackReturn).map fun returned =>
        (returned.1, called.2 ++ returned.2)

def DistinctIds (m : Machine) : Prop := (m.client.inflight.map (·.requestId)).Nodup

theorem step_frames {gcm : Gcm} {m m' : Machine} {call : Call} {effects : List Effect}
    (hframes : m.frames = []) (hstep : step gcm m call = some (m', effects)) :
    m'.frames = [] ∨ ∃ frame, m'.frames = [frame] := by
  have hreply : ∀ reply : Reply, (m.afterReply reply).frames = [] ∨
      ∃ frame, (m.afterReply reply).frames = [frame] := by
    intro reply
    unfold Machine.afterReply
    rw [hframes]
    cases reply.frame with
    | none => exact .inl rfl
    | some frame => exact .inr ⟨frame, rfl⟩
  cases stepped_of_step hstep with
  | submit args io => exact hreply _
  | report reports io => exact hreply _
  | datagram buf sender io => exact hreply _
  | timeout h nowMs io req => exact hreply _
  | cancel h => exact .inl hframes
  | callbackReturn frame frames hrunning => exact absurd (hframes.symm.trans hrunning) (by simp)
  | refreshFinish discovery nowMs => exact .inl hframes

theorem settle_cases {gcm : Gcm} {m m' : Machine} {call : Call} {effects : List Effect}
    (hframes : m.frames = []) (hsettle : settle gcm m call = some (m', effects)) :
    m'.frames = [] ∧ ∃ m₁ called, step gcm m call = some (m₁, called) ∧
      m'.client.inflight = m₁.client.inflight ∧ m'.nextHandle = m₁.nextHandle ∧
      (∀ h, about h effects = about h called) ∧
      (m' = m₁ ∨ ∃ returned, step gcm m₁ .callbackReturn = some (m', returned)) := by
  unfold settle at hsettle
  cases hstep : step gcm m call with
  | none =>
    rw [hstep] at hsettle
    cases hsettle
  | some called =>
    obtain ⟨m₁, called⟩ := called
    rw [hstep, Option.bind_some] at hsettle
    rcases step_frames hframes hstep with hnone | ⟨frame, hframe⟩
    · simp only [hnone, List.isEmpty_nil, if_true] at hsettle
      obtain ⟨rfl, rfl⟩ := Prod.mk.inj (Option.some.inj hsettle)
      exact ⟨hnone, m₁, called, rfl, rfl, rfl, fun _ => rfl, .inl rfl⟩
    · simp only [hframe, List.isEmpty_cons, Bool.false_eq_true, if_false,
        Option.map_eq_some_iff] at hsettle
      obtain ⟨⟨m₂, returned⟩, hreturn, hpair⟩ := hsettle
      obtain ⟨rfl, rfl⟩ := Prod.mk.inj hpair
      refine ⟨?_, m₁, called, rfl, ?_, ?_, ?_, .inr ⟨returned, hreturn⟩⟩
      all_goals
        simp only [step, hframe, Option.some.injEq] at hreturn
        obtain ⟨rfl, rfl⟩ := Prod.mk.inj hreturn
      · rfl
      · exact rCallbackReturned_inflight m₁.client frame
      · rfl
      · intro h
        have hquiet : about h (rCallbackReturned m₁.client frame).2 = [] :=
          about_eq_nil fun e he => by simp [rCallbackReturned_handle he]
        rw [about_append]
        exact (congrArg (about h called ++ ·) hquiet).trans (List.append_nil _)

theorem settle_defined {gcm : Gcm} {m m₁ : Machine} {call : Call} {called : List Effect}
    (hframes : m.frames = []) (hstep : step gcm m call = some (m₁, called)) :
    ∃ m' effects, settle gcm m call = some (m', effects) := by
  unfold settle
  rw [hstep, Option.bind_some]
  rcases step_frames hframes hstep with hnone | ⟨frame, hframe⟩
  · simp only [hnone, List.isEmpty_nil, if_true]
    exact ⟨_, _, rfl⟩
  · simp only [hframe, step, List.isEmpty_cons, Bool.false_eq_true, if_false, Option.map_some]
    exact ⟨_, _, rfl⟩

theorem settle_wf {gcm : Gcm} {c : RClient} {m m' : Machine} {call : Call} {effects : List Effect}
    (hwf : m.Wf c) (hframes : m.frames = []) (hsettle : settle gcm m call = some (m', effects)) :
    m'.Wf c := by
  obtain ⟨-, m₁, called, hstep, -, -, -, rfl | ⟨returned, hreturn⟩⟩ := settle_cases hframes hsettle
  · exact (step_wf_life hwf hstep).1
  · exact (step_wf_life (step_wf_life hwf hstep).1 hreturn).1

/-! ### What an event touches -/

theorem Handled.quiet {c : RClient} {h : Handle} {reply : Reply} {view : View}
    (hhandled : Handled c h reply view) {k : Handle} (hk : k ≠ h) :
    about k reply.effects = [] := by
  refine about_eq_nil fun e he hequal => ?_
  rcases hhandled.effects e he with hsome | hnone
  · exact hk (Option.some.inj (hequal.symm.trans hsome))
  · exact absurd (hequal.symm.trans hnone) (by simp)

/-- What a call other than a submission does to the list and to the trace: nothing,
    or something to one request that it touches. -/
def Footprint (call : Call) (m m' : Machine) (effects : List Effect) : Prop :=
  (m'.client.inflight = m.client.inflight ∧ ∀ h, about h effects = []) ∨
    ∃ req ∈ m.client.inflight, call.touches req = true ∧
      (∀ h, h ≠ req.handle → about h effects = []) ∧
      ∃ left : Option RClientReq, (∀ req', left = some req' → SameRequest req req') ∧
        m'.client.inflight = Keyed.assign (·.handle) req.handle left m.client.inflight

theorem step_footprint {gcm : Gcm} {c : RClient} {m m' : Machine} {call : Call}
    {effects : List Effect} (hwf : m.Wf c) (hsubmit : ∀ args io, call ≠ .submit args io)
    (hstep : step gcm m call = some (m', effects)) : Footprint call m m' effects := by
  have hnodup := hwf.nodup.of_append_left
  cases stepped_of_step hstep with
  | submit args io => exact absurd rfl (hsubmit args io)
  | report reports io =>
    obtain ⟨hinflight, -, -, heffects⟩ := rClientReportLatency_quiet gcm m.client reports io
    exact .inl ⟨hinflight, fun h => about_eq_nil fun e he => by simp [heffects e he]⟩
  | datagram buf sender io hframes =>
    unfold rClientOnDatagram
    cases hgate : onDatagramGate gcm m.client buf io with
    | error rc => exact .inl ⟨rfl, fun _ => rfl⟩
    | ok accepted =>
      obtain ⟨req, response⟩ := accepted
      obtain ⟨tenant, pos, pdu, parsed, hparsed, hfind, hintime, hallowed, -, -, hresponse⟩ :=
        onDatagramGate_ok_iff.mp hgate
      have hserver : rAllowedServerId req response.serverId = true := by
        rw [hresponse]
        exact hallowed
      have hmem := List.mem_of_find?_eq_some hfind
      obtain ⟨view, hhandled, -⟩ := acceptResponse_treated (c := m.client) rfl
        (List.mem_map_of_mem hmem) buf sender io hserver hintime
      refine .inr ⟨req, hmem, ?_, fun h hh => hhandled.quiet hh, ?_⟩
      · have hid := List.find?_some hfind
        rw [Call.touches, datagramRequestId, hparsed]
        simpa using (beq_iff_eq.mp hid).symm
      · obtain ⟨left, hleft, hinflight, -⟩ :=
          (acceptResponse_alike rfl hnodup hnodup _ sender io).inflight
        exact ⟨left, hleft, hinflight⟩
  | timeout h nowMs io req hframes hreq =>
    obtain rfl : req.handle = h := Keyed.key_of_find hreq
    have hmem := List.mem_of_find?_eq_some hreq
    obtain ⟨view, hhandled, -⟩ := rClientOnTimeout_treated rfl hreq nowMs io
    obtain ⟨left, hleft, hinflight, -⟩ :=
      (rClientOnTimeout_alike rfl hnodup hnodup hmem hmem nowMs io).inflight
    exact .inr ⟨req, hmem, by simp [Call.touches], fun h hh => hhandled.quiet hh, left, hleft,
      hinflight⟩
  | cancel h =>
    by_cases hin : ∃ req ∈ m.client.inflight, req.handle = h
    · obtain ⟨req, hmem, rfl⟩ := hin
      obtain ⟨hinflight, -, hothers⟩ := rClientCancelRequest_of_mem hmem
      exact .inr ⟨req, hmem, by simp [Call.touches], hothers, none,
        fun _ heq => absurd heq (by simp), hinflight⟩
    · rw [rClientCancelRequest_of_not_mem fun req hmem heq => hin ⟨req, hmem, heq⟩]
      exact .inl ⟨rfl, fun _ => rfl⟩
  | callbackReturn frame frames hframes =>
    exact .inl ⟨rCallbackReturned_inflight m.client frame,
      fun h => about_eq_nil fun e he => by simp [rCallbackReturned_handle he]⟩
  | refreshFinish discovery nowMs => exact .inl ⟨rfl, fun _ => rfl⟩

theorem settle_footprint {gcm : Gcm} {c : RClient} {m m' : Machine} {call : Call}
    {effects : List Effect} (hwf : m.Wf c) (hidle : m.frames = [])
    (hsubmit : ∀ args io, call ≠ .submit args io)
    (hsettle : settle gcm m call = some (m', effects)) : Footprint call m m' effects := by
  obtain ⟨-, m₁, called, hstep, hinflight, -, habout, -⟩ := settle_cases hidle hsettle
  unfold Footprint
  simp only [hinflight, habout]
  exact step_footprint hwf hsubmit hstep

theorem Footprint.origin {call : Call} {m m' : Machine} {effects : List Effect}
    (hfoot : Footprint call m m' effects) {req' : RClientReq} (hmem : req' ∈ m'.client.inflight) :
    ∃ req ∈ m.client.inflight, req'.handle = req.handle ∧ req'.requestId = req.requestId := by
  rcases hfoot with ⟨hinflight, -⟩ | ⟨req, hreq, -, -, left, hleft, hinflight⟩
  · exact ⟨req', hinflight ▸ hmem, rfl, rfl⟩
  rw [hinflight] at hmem
  cases left with
  | none => exact ⟨req', List.mem_of_mem_eraseP hmem, rfl, rfl⟩
  | some kept =>
    obtain ⟨old, hold, rfl⟩ := List.mem_map.mp hmem
    have hsame := hleft kept rfl
    split
    · exact ⟨req, hreq, hsame.handle, hsame.requestId⟩
    · exact ⟨old, hold, rfl, rfl⟩

theorem Footprint.untouched {call : Call} {m m' : Machine} {effects : List Effect}
    (hfoot : Footprint call m m' effects) {h : Handle}
    (hh : ∀ req ∈ m.client.inflight, call.touches req = true → req.handle ≠ h) :
    about h effects = [] ∧
      m'.client.inflight.find? (·.handle == h) = m.client.inflight.find? (·.handle == h) := by
  rcases hfoot with ⟨hinflight, habout⟩ | ⟨req, hreq, htouches, habout, left, hleft, hinflight⟩
  · exact ⟨habout h, by rw [hinflight]⟩
  · have hne : h ≠ req.handle := Ne.symm (hh req hreq htouches)
    refine ⟨habout h hne, ?_⟩
    rw [hinflight]
    exact Keyed.find_assign_ne hne fun req' heq => (hleft req' heq).handle

/-- A call touches at most one request, and the others keep their state and their
    order. -/
structure LeavesOthers (call : Call) (m m' : Machine) : Prop where
  one : (m.client.inflight.filter call.touches).length ≤ 1
  others : m'.client.inflight.filter (fun req => !call.touches req) =
    m.client.inflight.filter (fun req => !call.touches req)
  order : (m'.client.inflight.map (·.handle)).Sublist (m.client.inflight.map (·.handle))

theorem Footprint.leavesOthers {call : Call} {m m' : Machine} {effects : List Effect}
    (hfoot : Footprint call m m' effects) (hnodup : (m.client.inflight.map (·.handle)).Nodup)
    (hdistinct : DistinctIds m) : LeavesOthers call m m' := by
  refine ⟨?_, ?_, ?_⟩
  · cases call with
    | datagram buf sender io =>
      refine Keyed.length_filter_le_one (k := (datagramRequestId buf).getD (.replicate 16 0))
        hdistinct fun req _ htouches => ?_
      rw [beq_iff_eq.mp htouches]
      rfl
    | timeout h nowMs io =>
      exact Keyed.length_filter_le_one hnodup fun req _ htouches => beq_iff_eq.mp htouches
    | cancel h =>
      exact Keyed.length_filter_le_one hnodup fun req _ htouches => beq_iff_eq.mp htouches
    | _ =>
      rw [List.filter_eq_nil_iff.mpr fun req _ => by simp [Call.touches]]
      exact Nat.zero_le 1
  · rcases hfoot with ⟨hinflight, -⟩ | ⟨req, hreq, htouches, -, left, hleft, hinflight⟩
    · rw [hinflight]
    rw [hinflight]
    refine Keyed.filter_assign ?_ ?_
    · intro other hother hhandle
      rw [Keyed.eq_of_key hnodup hother hreq hhandle, htouches]
      rfl
    · intro req' heq
      have hsame := hleft req' heq
      rw [call.touches_congr hsame.handle hsame.requestId, htouches]
      rfl
  · rcases hfoot with ⟨hinflight, -⟩ | ⟨req, hreq, htouches, -, left, hleft, hinflight⟩
    · rw [hinflight]
    rw [hinflight]
    exact Keyed.map_key_assign_sublist fun req' heq => (hleft req' heq).handle

/-! ### One request by itself -/

/-- The calls that are left when the events of the other requests and those of the
    resolver are taken out. -/
def Call.concerns (req : RClientReq) (call : Call) : Bool :=
  call.touches req || match call with
    | .report _ _ => true
    | _ => false

/-- `m'` holds the request `req` as `m` does, and no other request of its id. -/
structure Isolated (c : RClient) (req : RClientReq) (m m' : Machine) : Prop where
  wf : m.Wf c
  wf' : m'.Wf c
  idle : m.frames = []
  idle' : m'.frames = []
  used : req.handle < m.nextHandle
  same : m'.client.inflight.find? (·.handle == req.handle) =
    m.client.inflight.find? (·.handle == req.handle)
  kept : ∀ now, m.client.inflight.find? (·.handle == req.handle) = some now →
    now.requestId = req.requestId
  alone : ∀ other ∈ m'.client.inflight, other.requestId = req.requestId →
    other.handle = req.handle

theorem onDatagramGate_alike {gcm : Gcm} {c c' : RClient} (hstatic : c'.static = c.static)
    {buf : Bytes} {req : RClientReq} (hid : datagramRequestId buf = some req.requestId)
    (hfind : c.inflight.find? (fun other => other.requestId == req.requestId) = some req)
    (hfind' : c'.inflight.find? (fun other => other.requestId == req.requestId) = some req)
    (io : DatagramIo) : onDatagramGate gcm c' buf io = onDatagramGate gcm c buf io := by
  unfold onDatagramGate
  unfold datagramRequestId at hid
  cases hparsed : rParseTenantHeader buf with
  | error rc => rfl
  | ok parsed =>
    obtain ⟨tenant, pos⟩ := parsed
    rw [hparsed] at hid
    have hunique : tenant.uniqueId = req.requestId := Option.some.inj hid
    simp only [hunique, hfind, hfind', credential_of_static hstatic]

theorem find_by_id {l : List RClientReq} {req : RClientReq} (hnodup : (l.map (·.handle)).Nodup)
    (hmem : req ∈ l)
    (hfirst : ∀ other ∈ l, other.requestId = req.requestId → other.handle = req.handle) :
    l.find? (fun other => other.requestId == req.requestId) = some req := by
  cases hfind : l.find? (fun other => other.requestId == req.requestId) with
  | none => exact absurd (List.find?_eq_none.mp hfind req hmem) (by simp)
  | some found =>
    have hfound := List.mem_of_find?_eq_some hfind
    have hid : found.requestId = req.requestId := by simpa using List.find?_some hfind
    rw [Keyed.eq_of_key hnodup hfound hmem (hfirst found hfound hid)]

/-- Two machines that hold `req` do the same to it at an event of `req`. -/
theorem step_alike {gcm : Gcm} {c : RClient} {m m₁ m' : Machine} {call : Call}
    {effects : List Effect} {req : RClientReq} (hwf : m.Wf c) (hwf' : m'.Wf c)
    (hidle' : m'.frames = []) (htouches : call.touches req = true)
    (hmem : req ∈ m.client.inflight) (hmem' : req ∈ m'.client.inflight)
    (hfirst : ∀ other ∈ m.client.inflight, other.requestId = req.requestId →
      other.handle = req.handle)
    (hfirst' : ∀ other ∈ m'.client.inflight, other.requestId = req.requestId →
      other.handle = req.handle)
    (hstep : step gcm m call = some (m₁, effects)) :
    ∃ m₁' effects', step gcm m' call = some (m₁', effects') ∧
      about req.handle effects' = about req.handle effects ∧
      ∃ left : Option RClientReq, (∀ req', left = some req' → SameRequest req req') ∧
        m₁.client.inflight = Keyed.assign (·.handle) req.handle left m.client.inflight ∧
        m₁'.client.inflight = Keyed.assign (·.handle) req.handle left m'.client.inflight := by
  have hstatic : m'.client.static = m.client.static := hwf'.static.trans hwf.static.symm
  have hnodup := hwf.nodup.of_append_left
  have hnodup' := hwf'.nodup.of_append_left
  have hfind : m.client.inflight.find? (·.handle == req.handle) = some req :=
    Keyed.find_of_mem hnodup hmem
  have hfind' : m'.client.inflight.find? (·.handle == req.handle) = some req :=
    Keyed.find_of_mem hnodup' hmem'
  cases stepped_of_step hstep with
  | datagram buf sender io hframes =>
    have hid : datagramRequestId buf = some req.requestId := beq_iff_eq.mp htouches
    have hgate : onDatagramGate gcm m'.client buf io = onDatagramGate gcm m.client buf io :=
      onDatagramGate_alike hstatic hid (find_by_id hnodup hmem hfirst)
        (find_by_id hnodup' hmem' hfirst') io
    have halike : Alike req m.client m'.client (rClientOnDatagram gcm m.client buf sender io)
        (rClientOnDatagram gcm m'.client buf sender io) := by
      unfold rClientOnDatagram
      rw [hgate]
      cases hgated : onDatagramGate gcm m.client buf io with
      | error rc => exact alike_same hnodup hnodup' hmem hmem' rfl rfl
      | ok accepted =>
        obtain ⟨found, response⟩ := accepted
        obtain ⟨tenant, pos, -, -, hparsed, hfound, -⟩ := onDatagramGate_ok_iff.mp hgated
        have hunique : tenant.uniqueId = req.requestId := by
          rw [datagramRequestId, hparsed] at hid
          exact Option.some.inj hid
        rw [hunique, find_by_id hnodup hmem hfirst] at hfound
        obtain rfl := Option.some.inj hfound
        exact acceptResponse_alike hstatic hnodup hnodup' response sender io
    refine ⟨m'.afterReply (rClientOnDatagram gcm m'.client buf sender io),
      (rClientOnDatagram gcm m'.client buf sender io).effects, ?_, ?_, halike.inflight⟩
    · simp only [step, hidle', List.isEmpty_nil, if_true]
    · rw [halike.effects]
  | timeout h nowMs io now hframes hnow =>
    obtain rfl : req.handle = h := beq_iff_eq.mp htouches
    obtain rfl : now = req := Option.some.inj (hnow.symm.trans hfind)
    have halike := rClientOnTimeout_alike hstatic hnodup hnodup' hmem hmem' nowMs io
    refine ⟨m'.afterReply (rClientOnTimeout m'.client now nowMs io),
      (rClientOnTimeout m'.client now nowMs io).effects, ?_, ?_, halike.inflight⟩
    · simp only [step, hidle', List.isEmpty_nil, if_true, hfind']
    · rw [halike.effects]
  | cancel h =>
    obtain rfl : req.handle = h := beq_iff_eq.mp htouches
    obtain ⟨hinflight, habout, -⟩ := rClientCancelRequest_of_mem hmem
    obtain ⟨hinflight', habout', -⟩ := rClientCancelRequest_of_mem hmem'
    exact ⟨_, _, rfl, habout'.trans habout.symm, none, fun _ heq => absurd heq (by simp),
      hinflight, hinflight'⟩
  | submit args io => exact absurd htouches (by simp [Call.touches])
  | report reports io => exact absurd htouches (by simp [Call.touches])
  | callbackReturn frame frames hframes => exact absurd htouches (by simp [Call.touches])
  | refreshFinish discovery nowMs => exact absurd htouches (by simp [Call.touches])

theorem find_of_view {m m' : Machine} {h : Handle} (hview : m'.view h = m.view h) :
    m'.client.inflight.find? (·.handle == h) = m.client.inflight.find? (·.handle == h) := by
  apply Option.ext
  intro req
  rw [← view_live_iff, ← view_live_iff, hview]

/-- A submission is nothing to a handle that is used already. -/
theorem Life.submit_used {gcm : Gcm} {c : RClient} {h : Handle} {args : SubmitArgs}
    {io : SubmitIo} {view view' : View} {effects : List Effect}
    (hlife : Life gcm c h (.submit args io) view effects view') (hused : view ≠ .unborn) :
    effects = [] ∧ view' = view := by
  cases hlife with
  | idle => exact ⟨rfl, rfl⟩
  | treated req _ _ _ hstep => cases hstep
  | launched => exact absurd rfl hused
  | sendFailed => exact absurd rfl hused
  | rejected => exact absurd rfl hused
  | emptied => exact absurd rfl hused

theorem view_ne_unborn {m : Machine} {h : Handle} (hused : h < m.nextHandle) :
    m.view h ≠ .unborn := by
  unfold Machine.view
  split
  · simp
  · split
    · simp
    · simp [hused]

theorem settle_nextHandle {gcm : Gcm} {m m' : Machine} {call : Call} {effects : List Effect}
    (hidle : m.frames = []) (hsettle : settle gcm m call = some (m', effects)) :
    m.nextHandle ≤ m'.nextHandle := by
  obtain ⟨-, m₁, called, hstep, -, hnext, -, -⟩ := settle_cases hidle hsettle
  rw [hnext]
  cases stepped_of_step hstep with
  | submit args io => exact Nat.le_succ _
  | _ => exact Nat.le_refl _

section

variable {gcm : Gcm} {c : RClient} {req : RClientReq} {m m' m₁ m₁' : Machine} {call : Call}
  {effects effects' : List Effect}

/-- Both machines take the same call, which is no submission, and agree on `req` after it. -/
theorem Isolated.next (hiso : Isolated c req m m') (hsubmit : ∀ args io, call ≠ .submit args io)
    (hsettle : settle gcm m call = some (m₁, effects))
    (hsettle' : settle gcm m' call = some (m₁', effects'))
    (hsame : m₁'.client.inflight.find? (·.handle == req.handle) =
      m₁.client.inflight.find? (·.handle == req.handle))
    (hkept : ∀ now, m₁.client.inflight.find? (·.handle == req.handle) = some now →
      now.requestId = req.requestId) : Isolated c req m₁ m₁' where
  wf := settle_wf hiso.wf hiso.idle hsettle
  wf' := settle_wf hiso.wf' hiso.idle' hsettle'
  idle := (settle_cases hiso.idle hsettle).1
  idle' := (settle_cases hiso.idle' hsettle').1
  used := Nat.lt_of_lt_of_le hiso.used (settle_nextHandle hiso.idle hsettle)
  same := hsame
  kept := hkept
  alone := by
    intro other hother hid
    obtain ⟨old, hold, hhandle, hidold⟩ :=
      (settle_footprint hiso.wf' hiso.idle' hsubmit hsettle').origin hother
    exact hhandle.trans (hiso.alone old hold (hidold.symm.trans hid))

/-- Whatever a call touches that does not touch `req` is another request. -/
theorem Isolated.untouched (hiso : Isolated c req m m') (hnot : call.touches req = false)
    {now : RClientReq} (hmem : now ∈ m.client.inflight) (htouches : call.touches now = true) :
    now.handle ≠ req.handle := by
  intro hhandle
  have hfind : m.client.inflight.find? (·.handle == req.handle) = some now :=
    hhandle ▸ Keyed.find_of_mem hiso.wf.nodup.of_append_left hmem
  rw [call.touches_congr hhandle (hiso.kept now hfind), hnot] at htouches
  exact absurd htouches (by simp)

theorem Isolated.dropped (hiso : Isolated c req m m') (hdrop : call.concerns req = false)
    (hsettle : settle gcm m call = some (m₁, effects)) :
    about req.handle effects = [] ∧ Isolated c req m₁ m' := by
  have hnot : call.touches req = false := (Bool.or_eq_false_iff.mp hdrop).1
  have hsame : about req.handle effects = [] ∧
      m₁.client.inflight.find? (·.handle == req.handle) =
        m.client.inflight.find? (·.handle == req.handle) := by
    by_cases hsubmit : ∃ args io, call = .submit args io
    · obtain ⟨args, io, rfl⟩ := hsubmit
      obtain ⟨-, m₂, called, hstep, hinflight, -, habout, -⟩ := settle_cases hiso.idle hsettle
      obtain ⟨hnone, hview⟩ :=
        ((step_wf_life hiso.wf hstep).2 req.handle).submit_used (view_ne_unborn hiso.used)
      rw [habout, hinflight]
      exact ⟨hnone, find_of_view hview⟩
    · exact (settle_footprint hiso.wf hiso.idle
        (fun args io heq => hsubmit ⟨args, io, heq⟩) hsettle).untouched
          fun now hmem htouches => hiso.untouched hnot hmem htouches
  refine ⟨hsame.1, ?_⟩
  exact
    { wf := settle_wf hiso.wf hiso.idle hsettle
      wf' := hiso.wf'
      idle := (settle_cases hiso.idle hsettle).1
      idle' := hiso.idle'
      used := Nat.lt_of_lt_of_le hiso.used (settle_nextHandle hiso.idle hsettle)
      same := hiso.same.trans hsame.2.symm
      kept := fun now hnow => hiso.kept now (hsame.2.symm.trans hnow)
      alone := hiso.alone }

/-- A call that does nothing to `req` in either machine. -/
theorem Isolated.idles (hiso : Isolated c req m m') (hsubmit : ∀ args io, call ≠ .submit args io)
    (hsettle : settle gcm m call = some (m₁, effects))
    (hsettle' : settle gcm m' call = some (m₁', effects'))
    (hother : ∀ now ∈ m.client.inflight, call.touches now = true → now.handle ≠ req.handle)
    (hother' : ∀ now ∈ m'.client.inflight, call.touches now = true → now.handle ≠ req.handle) :
    about req.handle effects' = about req.handle effects ∧ Isolated c req m₁ m₁' := by
  obtain ⟨habout, hfind⟩ := (settle_footprint hiso.wf hiso.idle hsubmit hsettle).untouched hother
  obtain ⟨habout', hfind'⟩ :=
    (settle_footprint hiso.wf' hiso.idle' hsubmit hsettle').untouched hother'
  refine ⟨habout'.trans habout.symm, hiso.next hsubmit hsettle hsettle' ?_ ?_⟩
  · rw [hfind, hfind', hiso.same]
  · exact fun now hnow => hiso.kept now (hfind.symm.trans hnow)

/-- An event of `req` in both machines. -/
theorem Isolated.touched (hiso : Isolated c req m m') (hdistinct : DistinctIds m)
    (htouches : call.touches req = true) (hsettle : settle gcm m call = some (m₁, effects)) :
    ∃ m₁' effects', settle gcm m' call = some (m₁', effects') ∧
      about req.handle effects' = about req.handle effects ∧ Isolated c req m₁ m₁' := by
  have hsubmit : ∀ args io, call ≠ .submit args io := by
    rintro args io rfl
    exact absurd htouches (by simp [Call.touches])
  obtain ⟨-, m₂, called, hstep, hinflight, -, habout, -⟩ := settle_cases hiso.idle hsettle
  have hnodup := hiso.wf.nodup.of_append_left
  have hnodup' := hiso.wf'.nodup.of_append_left
  cases hfind : m.client.inflight.find? (·.handle == req.handle) with
  | none =>
    -- the request is gone, and whoever carries its id now is another one
    have hfind' := hiso.same.trans hfind
    obtain ⟨m₂', called', hstep'⟩ : ∃ m₂' called', step gcm m' call = some (m₂', called') := by
      cases stepped_of_step hstep with
      | datagram buf sender io => simp [step, hiso.idle']
      | timeout h nowMs io now hframes hnow =>
        obtain rfl : req.handle = h := beq_iff_eq.mp htouches
        exact absurd (hnow.symm.trans hfind) (by simp)
      | cancel h => exact ⟨_, _, rfl⟩
      | submit args io => exact absurd rfl (hsubmit args io)
      | report reports io => exact absurd htouches (by simp [Call.touches])
      | callbackReturn frame frames hframes => exact absurd htouches (by simp [Call.touches])
      | refreshFinish discovery nowMs => exact absurd htouches (by simp [Call.touches])
    obtain ⟨m₁', effects', hsettle'⟩ := settle_defined hiso.idle' hstep'
    refine ⟨m₁', effects', hsettle', hiso.idles hsubmit hsettle hsettle' ?_ ?_⟩
    · intro now hmem _ hhandle
      exact Keyed.find_eq_none.mp hfind (List.mem_map.mpr ⟨now, hmem, hhandle⟩)
    · intro now hmem _ hhandle
      exact Keyed.find_eq_none.mp hfind' (List.mem_map.mpr ⟨now, hmem, hhandle⟩)
  | some now =>
    have hhandle : now.handle = req.handle := Keyed.key_of_find hfind
    have hid : now.requestId = req.requestId := hiso.kept now hfind
    have hmem := List.mem_of_find?_eq_some hfind
    have hmem' := List.mem_of_find?_eq_some (hiso.same.trans hfind)
    have hnow : call.touches now = true := (call.touches_congr hhandle hid).trans htouches
    obtain ⟨m₂', called', hstep', hsame, left, hleft, hlist, hlist'⟩ :=
      step_alike hiso.wf hiso.wf' hiso.idle' hnow hmem hmem'
        (fun other hother heq => congrArg _ (Keyed.eq_of_key hdistinct hother hmem heq))
        (fun other hother heq => (hiso.alone other hother (heq.trans hid)).trans hhandle.symm) hstep
    obtain ⟨m₁', effects', hsettle'⟩ := settle_defined hiso.idle' hstep'
    obtain ⟨-, m₃', called₃, hstep₃, hinflight', -, habout', -⟩ := settle_cases hiso.idle' hsettle'
    obtain ⟨rfl, rfl⟩ := Prod.mk.inj (Option.some.inj (hstep₃.symm.trans hstep'))
    have hleftKey : ∀ req', left = some req' → req'.handle = now.handle :=
      fun req' heq => (hleft req' heq).handle
    have hafter : m₁.client.inflight.find? (·.handle == req.handle) = left := by
      rw [hinflight, hlist, ← hhandle]
      exact Keyed.find_assign_self hnodup (List.mem_map_of_mem hmem) hleftKey
    have hafter' : m₁'.client.inflight.find? (·.handle == req.handle) = left := by
      rw [hinflight', hlist', ← hhandle]
      exact Keyed.find_assign_self hnodup' (List.mem_map_of_mem hmem') hleftKey
    refine ⟨m₁', effects', hsettle', ?_, hiso.next hsubmit hsettle hsettle' ?_ ?_⟩
    · rw [habout, habout', ← hhandle, hsame]
    · rw [hafter, hafter']
    · intro later hlater
      exact ((hleft later (hafter.symm.trans hlater)).requestId).trans hid

theorem Isolated.concerned (hiso : Isolated c req m m') (hdistinct : DistinctIds m)
    (hkeep : call.concerns req = true) (hsettle : settle gcm m call = some (m₁, effects)) :
    ∃ m₁' effects', settle gcm m' call = some (m₁', effects') ∧
      about req.handle effects' = about req.handle effects ∧ Isolated c req m₁ m₁' := by
  rcases Bool.or_eq_true_iff.mp hkeep with htouches | hreport
  · exact hiso.touched hdistinct htouches hsettle
  · cases call with
    | report reports io =>
      have hstep' : ∃ m₂' called', step gcm m' (.report reports io) = some (m₂', called') :=
        ⟨_, _, rfl⟩
      obtain ⟨m₂', called', hstep'⟩ := hstep'
      obtain ⟨m₁', effects', hsettle'⟩ := settle_defined hiso.idle' hstep'
      refine ⟨m₁', effects', hsettle', hiso.idles (by simp) hsettle hsettle' ?_ ?_⟩
      · exact fun now _ htouches => absurd htouches (by simp [Call.touches])
      · exact fun now _ htouches => absurd htouches (by simp [Call.touches])
    | _ => exact absurd hreport (by simp)

end

theorem Isolated.start {c : RClient} {req : RClientReq} {m : Machine} (hwf : m.Wf c)
    (hidle : m.frames = []) (hdistinct : DistinctIds m) (hmem : req ∈ m.client.inflight) :
    Isolated c req m m where
  wf := hwf
  wf' := hwf
  idle := hidle
  idle' := hidle
  used := hwf.bounded _ (List.mem_append_left _ (List.mem_map_of_mem hmem))
  same := rfl
  kept := by
    intro now hnow
    have hfind : m.client.inflight.find? (·.handle == req.handle) = some req :=
      Keyed.find_of_mem hwf.nodup.of_append_left hmem
    rw [Option.some.inj (hnow.symm.trans hfind)]
  alone := fun other hother hid => congrArg _ (Keyed.eq_of_key hdistinct hother hmem hid)

/-- The run of `req` and the run without the calls that do not concern it. -/
theorem Isolated.exec {gcm : Gcm} {c : RClient} {req : RClientReq} {m m' m₁ : Machine}
    {events : List Call} {trace₁ : List Effect} (hiso : Isolated c req m m')
    (halong : Run.Along (settle gcm) m events (fun m' _ => DistinctIds m'))
    (hexec : Run.exec (settle gcm) m events = some (m₁, trace₁)) :
    ∃ m₂ trace₂, Run.exec (settle gcm) m' (events.filter (Call.concerns req)) = some (m₂, trace₂) ∧
      about req.handle trace₂ = about req.handle trace₁ ∧ Isolated c req m₁ m₂ :=
  Run.exec_filter
    (fun _ _ _ _ _ hiso hids hkeep hsettle => hiso.concerned hids hkeep hsettle)
    (fun _ _ _ _ _ hiso _ hdrop hsettle => hiso.dropped hdrop hsettle) hiso halong hexec

def Enters (m m' : Machine) (effects : List Effect) : Prop :=
  (∃ started, Effect.submitted m.nextHandle started ∈ effects ∧
      m'.client.inflight = started :: m.client.inflight) ∨
    ((∀ started, Effect.submitted m.nextHandle started ∉ effects) ∧
      m'.client.inflight = m.client.inflight)

theorem settle_enters {gcm : Gcm} {c : RClient} {m m' : Machine} {args : SubmitArgs}
    {io : SubmitIo} {effects : List Effect} (hwf : m.Wf c) (hidle : m.frames = [])
    (hsettle : settle gcm m (.submit args io) = some (m', effects)) : Enters m m' effects := by
  obtain ⟨-, m₁, called, hstep, hinflight, -, habout, -⟩ := settle_cases hidle hsettle
  have hsubmitted : ∀ started, Effect.submitted m.nextHandle started ∈ effects ↔
      Effect.submitted m.nextHandle started ∈ called := by
    intro started
    have hmem : ∀ l : List Effect, Effect.submitted m.nextHandle started ∈ about m.nextHandle l ↔
        Effect.submitted m.nextHandle started ∈ l := by
      intro l
      rw [mem_about]
      exact and_iff_left rfl
    rw [← hmem effects, habout, hmem called]
  unfold Enters
  simp only [hsubmitted, hinflight]
  have houtcome := rClientCheckRateLimitAsyncImpl_outcome gcm m.client m.nextHandle args io
    hwf.identified
  simp only [step, Option.some.injEq] at hstep
  obtain ⟨rfl, rfl⟩ := Prod.mk.inj hstep
  simp only [Machine.afterReply]
  generalize rClientCheckRateLimitAsyncImpl gcm m.client m.nextHandle args io = reply at houtcome ⊢
  cases houtcome with
  | rejected status c' _ hlist => exact .inr ⟨by simp [Reply.done], hlist⟩
  | emptied => exact .inr ⟨by simp [completeEmpty], rfl⟩
  | sendFailed req gapUnits status sends c' built _ hsends hlist =>
    refine .inr ⟨fun started hmem => ?_, hlist⟩
    rcases List.mem_append.mp hmem with hsend | hfailed
    · exact absurd (maybeSends_isSend hsends _ hsend) (by simp [Effect.isSend])
    · exact absurd (List.mem_singleton.mp hfailed) (by simp)
  | launched req gapUnits c' built _ _ _ _ hlist =>
    exact .inl ⟨_, List.mem_append_right _ List.mem_cons_self, hlist⟩

instance (m : Machine) : Decidable (DistinctIds m) := inferInstanceAs (Decidable (List.Nodup _))

/-! ### The theorem -/

/-- **Requests are isolated.** Take any reachable client whose requests have
    different ids, and callbacks that return before anything else happens. A
    datagram, a timer or a cancellation touches at most one request and leaves the
    others and their order as they are. The end of a refresh, and a report with the
    refresh it starts, change no request at all, and a submission, with the refreshes
    it starts, adds at most its own. So what a request does from any moment on is
    what it does when the events of the others and of the resolver are left out. -/
theorem requests_isolated {gcm : Gcm} {args : CreateArgs} {c : RClient}
    (hcreate : rClientCreate args = .ok c) {calls : List Call} {m : Machine}
    {trace : List Effect} (hrun : run gcm c calls = some (m, trace)) (hidle : m.frames = [])
    (hdistinct : DistinctIds m) :
    (∀ call m' effects, (∀ args io, call ≠ .submit args io) →
      settle gcm m call = some (m', effects) → LeavesOthers call m m') ∧
    (∀ discovery nowMs m' effects,
      settle gcm m (.refreshFinish discovery nowMs) = some (m', effects) →
        m'.client.inflight = m.client.inflight) ∧
    (∀ reports io m' effects, settle gcm m (.report reports io) = some (m', effects) →
      m'.client.inflight = m.client.inflight) ∧
    (∀ args io m' effects, settle gcm m (.submit args io) = some (m', effects) →
      Enters m m' effects) ∧
    ∀ req ∈ m.client.inflight, ∀ events m₁ trace₁,
      Run.exec (settle gcm) m events = some (m₁, trace₁) →
      Run.Along (settle gcm) m events (fun m' _ => DistinctIds m') →
        ∃ m₂ trace₂, Run.exec (settle gcm) m (events.filter (Call.concerns req)) =
            some (m₂, trace₂) ∧
          about req.handle trace₂ = about req.handle trace₁ ∧
          m₂.client.inflight.find? (·.handle == req.handle) =
            m₁.client.inflight.find? (·.handle == req.handle) := by
  have hwf : m.Wf c := run_wf hcreate hrun
  have huntouched : ∀ call m' effects, (∀ args io, call ≠ .submit args io) →
      (∀ req, call.touches req = false) → settle gcm m call = some (m', effects) →
      m'.client.inflight = m.client.inflight := by
    intro call m' effects hsubmit hnone hsettle
    rcases settle_footprint hwf hidle hsubmit hsettle with ⟨hinflight, -⟩ | ⟨req, -, htouches, -⟩
    · exact hinflight
    · exact absurd ((hnone req).symm.trans htouches) (by simp)
  refine ⟨?_, ?_, ?_, ?_, ?_⟩
  · intro call m' effects hsubmit hsettle
    exact (settle_footprint hwf hidle hsubmit hsettle).leavesOthers hwf.nodup.of_append_left
      hdistinct
  · intro discovery nowMs m' effects
    exact huntouched _ m' effects (by simp) fun _ => rfl
  · intro reports io m' effects
    exact huntouched _ m' effects (by simp) fun _ => rfl
  · intro args io m' effects hsettle
    exact settle_enters hwf hidle hsettle
  · intro req hmem events m₁ trace₁ hexec halong
    obtain ⟨m₂, trace₂, hexec₂, hsame, hiso⟩ :=
      (Isolated.start hwf hidle hdistinct hmem).exec halong hexec
    exact ⟨m₂, trace₂, hexec₂, hsame, hiso.same⟩

/-- Events of the requests 0 and 1, and of a request 2 that comes and goes. -/
def sampleEvents : List Call :=
  [sampleDatagram 2 5 1 102, sampleTimeout 0 120, sampleSubmit 3 121, sampleTimeout 1 121,
    sampleDatagram 1 3 1 125, .cancel 2]

/-- Two requests in flight: the run of the older one is that of its own two events. -/
theorem requests_isolated_pair :
    ∃ m trace m₁ trace₁, run noGcm sampleClient [sampleSubmit 1 100, sampleSubmit 2 101] =
        some (m, trace) ∧
      Run.exec (settle noGcm) m sampleEvents = some (m₁, trace₁) ∧
      (about 0 trace₁).length = 6 ∧
      ∃ req ∈ m.client.inflight, req.handle = 0 ∧
        sampleEvents.map (Call.concerns req) = [false, true, false, false, true, false] ∧
        ∃ m₂ trace₂, Run.exec (settle noGcm) m (sampleEvents.filter (Call.concerns req)) =
            some (m₂, trace₂) ∧ about 0 trace₂ = about 0 trace₁ := by
  obtain ⟨⟨m, trace⟩, hrun, hthen⟩ := Option.bind_eq_some_iff.mp
    (show (run noGcm sampleClient [sampleSubmit 1 100, sampleSubmit 2 101]).bind (fun s =>
        (Run.exec (settle noGcm) s.1 sampleEvents).map fun t =>
          (decide (s.1.frames = [] ∧ DistinctIds s.1 ∧
              Run.Along (settle noGcm) s.1 sampleEvents fun m _ => DistinctIds m),
            s.1.client.inflight.map fun req => (req.handle, sampleEvents.map (Call.concerns req)),
            (about 0 t.2).length)) =
      some (true, [(1, [true, false, false, true, false, false]),
        (0, [false, true, false, false, true, false])], 6) by decide +kernel)
  obtain ⟨⟨m₁, trace₁⟩, hexec, hread⟩ := Option.map_eq_some_iff.mp hthen
  obtain ⟨hstart, hread⟩ := Prod.mk.inj hread
  obtain ⟨hlist, hlength⟩ := Prod.mk.inj hread
  obtain ⟨hidle, hdistinct, halong⟩ := of_decide_eq_true hstart
  obtain ⟨req, hmem, hreq⟩ := List.mem_map.mp
    (hlist ▸ List.mem_cons_of_mem _ List.mem_cons_self :
      ((0 : Handle), [false, true, false, false, true, false]) ∈ m.client.inflight.map
        fun req => (req.handle, sampleEvents.map (Call.concerns req)))
  obtain ⟨hhandle, hconcerns⟩ := Prod.mk.inj hreq
  obtain ⟨m₂, trace₂, hexec₂, hsame, -⟩ :=
    (requests_isolated sampleClient_created hrun hidle hdistinct).2.2.2.2 req hmem sampleEvents m₁
      trace₁ hexec halong
  rw [hhandle] at hsame
  exact ⟨m, trace, m₁, trace₁, hrun, hexec, hlength, req, hmem, hhandle, hconcerns, m₂, trace₂,
    hexec₂, hsame⟩

end RlClient
