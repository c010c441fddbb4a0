import RlClient.History

/-!
# The steering hook

When `on_steering_feedback` is called. A step either leaves the pending flag
alone, completes a request and adds the request's own flag to it, or notifies;
`SteerStep` lists what each of these does to the callbacks that are running and
to the trace. The notifier is reached from `r_request_complete`, behind the
callback, and from `r_client_cancel_request`, which a callback may call.
-/

namespace RlClient

/-! ### What a step does to the pending flag -/

def Effect.steers : Effect → Bool
  | .callback (some _) _ _ => true
  | .drained => true
  | .steering _ => true
  | _ => false

theorem steers_of_isSend {e : Effect} (he : e.isSend = true) : e.steers = false := by
  cases e with
  | udpSend h pass startedMs index addr packet ok => rfl
  | _ => exact absurd he (by simp [Effect.isSend])

/-- A reply that completes a request, or leaves steering alone. -/
inductive Steered (c : RClient) : Reply → Prop
  | done (status : RClientError) (c' : RClient) (effects : List Effect)
      (hpending : c'.steeringRebindPending = c.steeringRebindPending)
      (hinflight : c'.inflight = [] → c.inflight = [])
      (heffects : ∀ e ∈ effects, e.steers = false) : Steered c (.done status c' effects)
  | complete (c' : RClient) (req : RClientReq) (status : RClientError)
      (selected : Option RRateLimitResult) (io : CompleteIo) (before : List Effect)
      (hpending : c'.steeringRebindPending = c.steeringRebindPending)
      (hbefore : ∀ e ∈ before, e.steers = false) :
      Steered c (.complete c' req status selected io before)

theorem Steered.put {c c' : RClient} {req : RClientReq} {status : RClientError}
    {effects : List Effect} (hpending : c'.steeringRebindPending = c.steeringRebindPending)
    (hinflight : c'.inflight = c.inflight) (heffects : ∀ e ∈ effects, e.steers = false) :
    Steered c (.done status (c'.putRequest req) effects) := by
  refine .done _ _ _ hpending ?_ heffects
  intro hnil
  rw [← hinflight]
  exact List.map_eq_nil_iff.mp hnil

theorem rClientOnDatagram_steered (gcm : Gcm) (c : RClient) (buf : Bytes) (sender : RAddr)
    (io : DatagramIo) : Steered c (rClientOnDatagram gcm c buf sender io) := by
  unfold rClientOnDatagram
  split
  · exact .done _ _ _ rfl id (fun e he => absurd he List.not_mem_nil)
  · unfold acceptResponse
    simp only
    split
    · exact .complete _ _ _ _ _ _ rfl (by simp [Effect.steers])
    · exact .put rfl rfl (by simp [Effect.steers])

theorem rSendRateRequest_steers (c : RClient) (req : RClientReq) (missingOnly bestEffort : Bool)
    (pass : SendPass) (startedMs : UInt64) (udpSend : Nat → Bool) :
    ∀ e ∈ (rSendRateRequest c req missingOnly bestEffort pass startedMs udpSend).effects,
      e.steers = false := by
  intro e he
  rcases rSendRateRequest_effects c req missingOnly bestEffort pass startedMs udpSend with
    ⟨heffects, -⟩ | ⟨heffects, -⟩
  · rw [heffects] at he
    exact absurd he List.not_mem_nil
  · rw [heffects] at he
    exact steers_of_isSend (sendEffects_isSend e he)

theorem rStartRound_steers (c : RClient) (req : RClientReq) (round : UInt32) (nowMs : UInt64)
    (udpSend : Nat → Bool) :
    ∀ e ∈ (rStartRound c req round nowMs udpSend).2.effects, e.steers = false := by
  rcases rStartRound_cases c req round nowMs udpSend with
    ⟨heq, -⟩ | ⟨rc, heq, -⟩ | ⟨gapUnits, -, -, -, heq⟩
  · rw [heq]
    exact fun e he => absurd he List.not_mem_nil
  · rw [heq]
    exact fun e he => absurd he List.not_mem_nil
  · rw [heq]
    exact rSendRateRequest_steers _ _ _ _ _ _ _

theorem replayRound_steered (c : RClient) (req : RClientReq) (io : TimeoutIo)
    {before : List Effect} (hbefore : ∀ e ∈ before, e.steers = false) :
    Steered c (replayRound c req io before) := by
  have hsends := rStartRound_steers c req (req.haRound + 1) io.roundMs io.udpSend
  obtain ⟨n, hclient⟩ := rStartRound_client c req (req.haRound + 1) io.roundMs io.udpSend
  have heffects : ∀ e ∈ before ++
      (rStartRound c req (req.haRound + 1) io.roundMs io.udpSend).2.effects, e.steers = false := by
    intro e he
    rcases List.mem_append.mp he with he | he
    · exact hbefore e he
    · exact hsends e he
  unfold replayRound
  simp only
  rw [hclient]
  split
  · exact .put rfl rfl heffects
  · exact .complete _ _ _ _ _ _ rfl heffects

theorem rClientOnTimeout_steered (c : RClient) (req : RClientReq) (nowMs : UInt64)
    (io : TimeoutIo) : Steered c (rClientOnTimeout c req nowMs io) := by
  have htimer : ∀ e ∈ [Effect.timer req.handle nowMs req.attemptDeadlineMs],
      e.steers = false := by simp [Effect.steers]
  unfold rClientOnTimeout rRequestPolicyOnTimeout
  simp only
  split
  · exact .done _ _ _ rfl id htimer
  split
  · split
    · exact .complete _ _ _ _ _ _ rfl htimer
    · exact .put rfl rfl htimer
  split
  · exact .put rfl rfl htimer
  split
  · split
    · exact replayRound_steered c req io htimer
    · split
      · exact .complete _ _ _ _ _ _ rfl htimer
      · exact .put rfl rfl htimer
  · exact .complete _ _ _ _ _ _ rfl htimer

theorem complete_steers (c : RClient) (req : RClientReq) (status : RClientError)
    (selected : Option RRateLimitResult) (io : CompleteIo) {before : List Effect}
    (hbefore : ∀ e ∈ before, e.steers = false) :
    ∃ front, (∀ e ∈ front, e.steers = false) ∧
      (Reply.complete c req status selected io before).effects =
        front ++ [.callback (some req.handle) status selected] := by
  obtain ⟨observed, hobserved, heq⟩ := complete_effects c req status selected io before
  refine ⟨before ++ (observed ++
    (if status = .ok && selected.isSome then rCompletionDelivery c req io else [])), ?_, ?_⟩
  · intro e he
    rcases List.mem_append.mp he with he | he
    · exact hbefore e he
    rcases List.mem_append.mp he with he | he
    · obtain ⟨p, rfl⟩ := hobserved e he
      rfl
    · split at he
      · exact steers_of_isSend (rCompletionDelivery_isSend e he)
      · exact absurd he List.not_mem_nil
  · exact heq.trans (List.append_assoc _ _ _).symm

/-- What one step does about steering. -/
inductive SteerStep (m : Machine) (call : Call) : Machine → List Effect → Prop
  -- nothing completes and nothing is notified; a callback that starts or ends here is
  -- that of an empty submission
  | quiet (m' : Machine) (effects : List Effect)
      (hpending : m'.client.steeringRebindPending = m.client.steeringRebindPending)
      (hinflight : m'.client.inflight = [] → m.client.inflight = [])
      (hframes : m'.frames = m.frames ∨ m'.frames = .emptyRequest :: m.frames ∨
        m.frames = .emptyRequest :: m'.frames)
      (heffects : ∀ e ∈ effects, e.steers = false) : SteerStep m call m' effects
  -- a request completes, its callback begins to run
  | completed (m' : Machine) (req : RClientReq) (front : List Effect) (status : RClientError)
      (result : Option RRateLimitResult) (hframes : m.frames = [])
      (hrunning : m'.frames = [.completing req])
      (hpending : m'.client.steeringRebindPending =
        (m.client.steeringRebindPending || req.steeringRebind))
      (hfront : ∀ e ∈ front, e.steers = false) :
      SteerStep m call m' (front ++ [.callback (some req.handle) status result])
  -- a request is cancelled, and the notifier is called
  | cancelled (h : Handle) (hcall : call = .cancel h)
      (hmem : m.client.inflight.any (·.handle == h) = true) :
      SteerStep m call
        { m with client := (rNotifySteeringWhenDrained (rRequestRemove m.client h)).1 }
        (.cancelled h :: (rNotifySteeringWhenDrained (rRequestRemove m.client h)).2)
  -- the callback of a request returns, and the notifier is called
  | returned (req : RClientReq) (frames : List Frame)
      (hframes : m.frames = .completing req :: frames) :
      SteerStep m call
        { m with client := (rNotifySteeringWhenDrained m.client).1, frames := frames }
        (rNotifySteeringWhenDrained m.client).2

theorem Steered.step {m : Machine} {reply : Reply} (hsteered : Steered m.client reply)
    (hframes : m.frames = []) (call : Call) :
    SteerStep m call (m.afterReply reply) reply.effects := by
  cases hsteered with
  | done status c' effects hpending hinflight heffects =>
    exact .quiet _ _ hpending hinflight (.inl rfl) heffects
  | complete c' req status selected io before hpending hbefore =>
    obtain ⟨front, hfront, heq⟩ := complete_steers c' req status selected io hbefore
    rw [heq]
    refine .completed _ req front status selected hframes ?_ ?_ hfront
    · simp [Machine.afterReply, Reply.complete, hframes]
    · rw [← hpending]
      rfl

theorem SubmitOutcome.steers {gcm : Gcm} {m : Machine} {args : SubmitArgs} {io : SubmitIo}
    {reply : Reply} (houtcome : SubmitOutcome gcm m.client m.nextHandle args io reply) :
    SteerStep m (.submit args io) { m.afterReply reply with nextHandle := m.nextHandle + 1 }
      reply.effects := by
  have hfailed : ∀ status, ∀ e ∈ [Effect.submitFailed m.nextHandle status],
      e.steers = false := by simp [Effect.steers]
  cases houtcome with
  | rejected status c' hstatus hinflight hpending =>
    exact .quiet _ _ hpending (fun hnil => hinflight.symm.trans hnil) (.inl rfl) (hfailed status)
  | emptied =>
    refine .quiet _ _ rfl id (.inr (.inl rfl)) ?_
    intro e he
    simp only [completeEmpty, List.mem_append, List.mem_singleton] at he
    rcases he with he | rfl
    · split at he
      · rw [List.mem_singleton.mp he]
        rfl
      · exact absurd he List.not_mem_nil
    · rfl
  | sendFailed req gapUnits status sends c' built hstatus hsends hinflight hpending =>
    refine .quiet _ _ hpending (fun hnil => hinflight.symm.trans hnil) (.inl rfl) ?_
    intro e he
    rcases List.mem_append.mp he with he | he
    · exact steers_of_isSend (maybeSends_isSend hsends e he)
    · exact hfailed status e he
  | launched req gapUnits c' built hgap hintime hpacket hudp hinflight hpending =>
    refine .quiet _ _ hpending ?_ (.inl rfl) ?_
    · intro hnil
      exact absurd (hinflight.symm.trans hnil) (by simp)
    · intro e he
      rcases List.mem_append.mp he with he | he
      · exact steers_of_isSend (sendEffects_isSend e he)
      · rw [List.mem_singleton.mp he]
        rfl

theorem step_steers {gcm : Gcm} {c : RClient} {m m' : Machine} {call : Call}
    {effects : List Effect} (hwf : m.Wf c) (hstep : step gcm m call = some (m', effects)) :
    SteerStep m call m' effects := by
  cases stepped_of_step hstep with
  | submit args io =>
    exact (rClientCheckRateLimitAsyncImpl_outcome gcm m.client m.nextHandle args io
      hwf.identified).steers
  | report reports io =>
    obtain ⟨hinflight, hpending, hframe, heffects⟩ :=
      rClientReportLatency_quiet gcm m.client reports io
    refine .quiet _ _ hpending (fun hnil => hinflight.symm.trans hnil) (.inl ?_)
      (fun e he => steers_of_isSend (heffects e he).2)
    simp [Machine.afterReply, hframe]
  | datagram buf sender io hframes =>
    exact (rClientOnDatagram_steered gcm m.client buf sender io).step hframes _
  | timeout h nowMs io req hframes hreq =>
    exact (rClientOnTimeout_steered m.client req nowMs io).step hframes _
  | cancel h =>
    unfold rClientCancelRequest
    split
    · rename_i hmem
      exact .cancelled h rfl hmem
    · exact .quiet _ _ rfl id (.inl rfl) (fun e he => absurd he List.not_mem_nil)
  | callbackReturn frame frames hframes =>
    cases frame with
    | completing req => exact .returned req frames hframes
    | emptyRequest =>
      exact .quiet _ _ rfl id (.inr (.inr hframes)) (fun e he => absurd he List.not_mem_nil)
  | refreshFinish discovery nowMs =>
    exact .quiet _ _ rfl id (.inl rfl) (fun e he => absurd he List.not_mem_nil)

/-! ### When the hook is called -/

/-- The notifier does nothing while a request is in flight; on an empty list it
    calls the hook exactly if a rebind is pending and there is a hook. -/
theorem rNotifySteeringWhenDrained_cases (c : RClient) :
    (c.inflight ≠ [] ∧ rNotifySteeringWhenDrained c = (c, [])) ∨
    (c.inflight = [] ∧ c.steeringRebindPending = true ∧ c.onSteeringFeedback = true ∧
      rNotifySteeringWhenDrained c =
        ({ c with steeringRebindPending := false }, [.drained, .steering false])) ∨
    (c.inflight = [] ∧ ¬ (c.steeringRebindPending = true ∧ c.onSteeringFeedback = true) ∧
      rNotifySteeringWhenDrained c = (c, [.drained])) := by
  unfold rNotifySteeringWhenDrained
  by_cases hinflight : c.inflight = []
  · right
    by_cases hfires : c.steeringRebindPending = true ∧ c.onSteeringFeedback = true
    · exact .inl ⟨hinflight, hfires.1, hfires.2, by simp [hinflight, hfires.1, hfires.2]⟩
    · refine .inr ⟨hinflight, hfires, ?_⟩
      have hquiet : (c.steeringRebindPending && c.onSteeringFeedback) = false := by
        simpa using hfires
      simp [hinflight, hquiet]
  · left
    exact ⟨hinflight, by simp [hinflight]⟩

/-- A notification ends with the call of the hook, if it calls it. -/
theorem rNotifySteeringWhenDrained_steering {c : RClient} {front back : List Effect} {keep : Bool}
    (h : (rNotifySteeringWhenDrained c).2 = front ++ .steering keep :: back) :
    keep = false ∧ front = [.drained] ∧ back = [] ∧ c.inflight = [] ∧
      c.steeringRebindPending = true ∧ c.onSteeringFeedback = true := by
  rcases rNotifySteeringWhenDrained_cases c with
    ⟨-, heq⟩ | ⟨hinflight, hpending, hhook, heq⟩ | ⟨-, -, heq⟩
  · rw [heq] at h
    exact absurd h (by simp)
  · rw [heq] at h
    have hlast : [Effect.drained] ++ [.steering false] = front ++ .steering keep :: back := h
    obtain ⟨rfl, rfl, hkeep⟩ := split_last hlast (by simp)
    exact ⟨Effect.steering.inj hkeep, rfl, rfl, hinflight, hpending, hhook⟩
  · rw [heq] at h
    have hmem : Effect.steering keep ∈ [Effect.drained] := by
      rw [show [Effect.drained] = front ++ .steering keep :: back from h]
      simp
    exact absurd hmem (by simp)

/-- Only the outermost running callback can be that of a request: datagrams and
    timers, which complete requests, are not delivered inside a callback. -/
def CompletesOutermost (frames : List Frame) : Prop :=
  ∀ req inner outer, frames = inner ++ .completing req :: outer → outer = []

theorem SteerStep.outermost {m m' : Machine} {call : Call} {effects : List Effect}
    (hstep : SteerStep m call m' effects) (h : CompletesOutermost m.frames) :
    CompletesOutermost m'.frames := by
  cases hstep with
  | quiet _ _ hpending hinflight hframes heffects =>
    rcases hframes with hframes | hframes | hframes
    · rw [hframes]
      exact h
    · intro req inner outer hsplit
      rw [hframes] at hsplit
      cases inner with
      | nil => exact absurd hsplit (by simp)
      | cons frame inner => exact h req inner outer (List.cons.inj hsplit).2
    · intro req inner outer hsplit
      exact h req (.emptyRequest :: inner) outer (by rw [hframes, hsplit]; rfl)
  | completed _ req front status result hframes hrunning =>
    intro req' inner outer hsplit
    rw [hrunning] at hsplit
    cases inner with
    | nil => exact ((List.cons.inj hsplit).2).symm
    | cons frame inner => exact absurd (List.cons.inj hsplit).2 (by simp)
  | cancelled => exact h
  | returned req frames hframes =>
    intro req' inner outer hsplit
    exact h req' (.completing req :: inner) outer (by rw [hframes]; exact congrArg _ hsplit)

theorem run_outermost {gcm : Gcm} {args : CreateArgs} {c : RClient}
    (hcreate : rClientCreate args = .ok c) {calls : List Call} {m : Machine}
    {trace : List Effect} (hrun : run gcm c calls = some (m, trace)) :
    CompletesOutermost m.frames := by
  refine Run.exec_induction (P := fun _ m _ => CompletesOutermost m.frames) ?_ ?_ hrun
  · intro req inner outer hsplit
    exact absurd hsplit (by simp [Machine.init])
  · intro calls m trace call m' effects hrun houtermost hstep
    exact (step_steers (run_wf hcreate hrun) hstep).outermost houtermost

/-- The call cancels, from inside a callback, the last request in flight while a
    rebind is pending. -/
def DrainsInCallback (m : Machine) (call : Call) : Prop :=
  m.frames ≠ [] ∧ m.client.steeringRebindPending = true ∧
    m.client.onSteeringFeedback = true ∧
    ∃ req, m.client.inflight = [req] ∧ call = .cancel req.handle

theorem last_of_rRequestRemove {c : RClient} {h : Handle}
    (hmem : c.inflight.any (·.handle == h) = true) (hnil : (rRequestRemove c h).inflight = []) :
    ∃ req, c.inflight = [req] ∧ req.handle = h := by
  obtain ⟨req, hreq, hhandle⟩ := List.any_eq_true.mp hmem
  have hlength := List.length_eraseP_of_mem (p := fun r : RClientReq => r.handle == h) hreq hhandle
  rw [show c.inflight.eraseP (·.handle == h) = [] from hnil] at hlength
  have hone : c.inflight.length = 1 := by
    have hpos := List.length_pos_of_mem hreq
    simp only [List.length_nil] at hlength
    omega
  obtain ⟨only, honly⟩ := List.length_eq_one_iff.mp hone
  rw [honly, List.mem_singleton] at hreq
  exact ⟨only, honly, by rw [← hreq]; exact beq_iff_eq.mp hhandle⟩

/-- The call of the hook inside a step: a rebind was pending, the call follows the
    drain and ends the step, and no callback is running unless the step drains the
    list from inside one. -/
theorem SteerStep.calls_hook {m m' : Machine} {call : Call} {effects front back : List Effect}
    {keep : Bool} (hstep : SteerStep m call m' effects) (houtermost : CompletesOutermost m.frames)
    (heffects : effects = front ++ .steering keep :: back) :
    keep = false ∧ back = [] ∧ m'.client.inflight = [] ∧
      (m'.frames = [] ∨ DrainsInCallback m call) ∧ m.client.steeringRebindPending = true ∧
      ∃ quiet, front = quiet ++ [.drained] ∧ ∀ e ∈ quiet, e.steers = false := by
  have hmem : Effect.steering keep ∈ effects := by
    rw [heffects]
    simp
  cases hstep with
  | quiet _ _ hpending hinflight hframes hquiet =>
    exact absurd (hquiet _ hmem) (by simp [Effect.steers])
  | completed _ req front' status result hframes hrunning hpending hfront =>
    rcases List.mem_append.mp hmem with hmem | hmem
    · exact absurd (hfront _ hmem) (by simp [Effect.steers])
    · exact absurd hmem (by simp)
  | cancelled h hcall hany =>
    cases front with
    | nil => exact absurd (List.cons.inj heffects).1 (by simp)
    | cons e front =>
      obtain ⟨rfl, hnotified⟩ := List.cons.inj heffects
      obtain ⟨rfl, rfl, rfl, hnil, hpending, hhook⟩ :=
        rNotifySteeringWhenDrained_steering hnotified
      refine ⟨rfl, rfl, (rNotifySteeringWhenDrained_inflight _).trans hnil, ?_, hpending,
        [.cancelled h], rfl, by simp [Effect.steers]⟩
      by_cases hframes : m.frames = []
      · exact .inl hframes
      · obtain ⟨req, honly, rfl⟩ := last_of_rRequestRemove hany hnil
        exact .inr ⟨hframes, hpending, hhook, req, honly, hcall⟩
  | returned req frames hframes =>
    obtain ⟨rfl, rfl, rfl, hnil, hpending, -⟩ := rNotifySteeringWhenDrained_steering heffects
    exact ⟨rfl, rfl, (rNotifySteeringWhenDrained_inflight _).trans hnil,
      .inl (houtermost req [] frames hframes), hpending, [], rfl,
      fun e he => absurd he List.not_mem_nil⟩

/-- **Hook timing.** In a run in which no callback cancels the last request in
    flight while a rebind is pending, every call of the hook finds the list empty
    and no callback running, and passes `keep_port == false`. -/
theorem steering_after_callbacks {gcm : Gcm} {args : CreateArgs} {c : RClient}
    (hcreate : rClientCreate args = .ok c) {calls : List Call}
    (houtside : Run.Along (step gcm) (.init c) calls fun m call => ¬ DrainsInCallback m call) :
    Run.Along (step gcm) (.init c) calls fun m call =>
      ∀ m' front keep back, step gcm m call = some (m', front ++ .steering keep :: back) →
        keep = false ∧ back = [] ∧ m'.client.inflight = [] ∧ m'.frames = [] := by
  intro calls₁ call calls₂ m trace hcalls hrun m' front keep back hstep
  obtain ⟨hkeep, hback, hnil, hframes, -⟩ :=
    (step_steers (run_wf hcreate hrun) hstep).calls_hook (run_outermost hcreate hrun) rfl
  refine ⟨hkeep, hback, hnil, ?_⟩
  rcases hframes with hframes | hdrains
  · exact hframes
  · exact absurd hdrains (houtside calls₁ call calls₂ m trace hcalls hrun)

/-- The response of server 3 asks for a rebind and completes its request, the only
    one: the hook is called when the callback has returned. -/
theorem steering_after_callbacks_return :
    ∃ m trace m' effects, run noGcm sampleClient
        [sampleSubmit 1 100, sampleDatagram 1 3 0 105] = some (m, trace) ∧
      step noGcm m .callbackReturn = some (m', effects) ∧
      effects = [.drained] ++ .steering false :: [] ∧
      m'.client.inflight = [] ∧ m'.frames = [] := by
  obtain ⟨⟨m, trace⟩, hrun, hread⟩ := Option.map_eq_some_iff.mp
    (show (run noGcm sampleClient [sampleSubmit 1 100, sampleDatagram 1 3 0 105]).map
      (fun s => (step noGcm s.1 .callbackReturn).map (·.2)) =
        some (some [.drained, .steering false]) by decide +kernel)
  obtain ⟨⟨m', effects⟩, hstep, rfl⟩ := Option.map_eq_some_iff.mp hread
  have houtside : Run.Along (step noGcm) (.init sampleClient)
      [sampleSubmit 1 100, sampleDatagram 1 3 0 105, .callbackReturn]
      (fun m call => ¬ DrainsInCallback m call) := by
    -- no call of this run is a cancellation
    rintro calls₁ call calls₂ m trace hcalls - ⟨-, -, -, req, -, rfl⟩
    have hmem : Call.cancel req.handle ∈
        [sampleSubmit 1 100, sampleDatagram 1 3 0 105, .callbackReturn] := by
      rw [hcalls]
      simp
    exact absurd hmem (by simp [sampleSubmit, sampleDatagram])
  have htiming := steering_after_callbacks sampleClient_created houtside
    [sampleSubmit 1 100, sampleDatagram 1 3 0 105] .callbackReturn [] m trace rfl hrun m'
    [.drained] false [] hstep
  exact ⟨m, trace, m', _, hrun, hstep, rfl, htiming.2.2⟩

/-- Two requests are in flight; the response that completes the first asks for a
    rebind, and the callback of the first cancels the second. The hook is called
    while that callback is still running. -/
theorem steering_inside_callback :
    ∃ m trace m' effects, run noGcm sampleClient
        [sampleSubmit 1 100, sampleSubmit 2 101, sampleDatagram 1 3 0 105] = some (m, trace) ∧
      step noGcm m (.cancel 1) = some (m', effects) ∧
      Effect.steering false ∈ effects ∧ m'.frames ≠ [] := by
  obtain ⟨⟨m, trace⟩, hrun, hread⟩ := Option.map_eq_some_iff.mp
    (show (run noGcm sampleClient
        [sampleSubmit 1 100, sampleSubmit 2 101, sampleDatagram 1 3 0 105]).map
      (fun s => (step noGcm s.1 (.cancel 1)).map fun s => (s.2, s.1.frames.length)) =
        some (some ([.cancelled 1, .drained, .steering false], 1)) by decide +kernel)
  obtain ⟨⟨m', effects⟩, hstep, hread⟩ := Option.map_eq_some_iff.mp hread
  obtain ⟨rfl, hframes⟩ := Prod.mk.inj hread
  refine ⟨m, trace, m', _, hrun, hstep, by simp, ?_⟩
  intro hnil
  rw [hnil] at hframes
  exact absurd hframes (by simp)

end RlClient
