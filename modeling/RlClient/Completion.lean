import RlClient.History

/-!
# Exactly-once completion

Submits, datagrams, timers, cancellations and reports in any order, with
callbacks that call back into the client: a request is in the in-flight list from
its submission until it completes or is cancelled, its callback fires at most
once and only after it has left the list, and nothing happens to it afterwards.
-/

namespace RlClient

/-! ### A call that invokes a callback stops in it -/

def Effect.fires : Effect → Bool
  | .callback _ _ _ => true
  | _ => false

def EndsInCallback (effects : List Effect) : Prop :=
  ∀ front e back, effects = front ++ e :: back → e.fires = true → back = []

theorem endsInCallback_of_none {effects : List Effect} (h : ∀ e ∈ effects, e.fires = false) :
    EndsInCallback effects := by
  rintro front e back rfl hfires
  have hquiet := h e (List.mem_append_right front List.mem_cons_self)
  rw [hquiet] at hfires
  exact absurd hfires Bool.false_ne_true

theorem endsInCallback_snoc {effects : List Effect} {last : Effect}
    (h : ∀ e ∈ effects, e.fires = false) : EndsInCallback (effects ++ [last]) := by
  intro front e back heq hfires
  refine (split_last heq ?_).2.1
  intro hmem
  rw [h e hmem] at hfires
  exact absurd hfires Bool.false_ne_true

theorem sends_quiet {sends : List Effect} (h : ∀ e ∈ sends, e.isSend = true) :
    ∀ e ∈ sends, e.fires = false := by
  intro e he
  have hsend := h e he
  cases e with
  | udpSend => rfl
  | _ => exact absurd hsend Bool.false_ne_true

theorem append_quiet {l r : List Effect} (hl : ∀ e ∈ l, e.fires = false)
    (hr : ∀ e ∈ r, e.fires = false) : ∀ e ∈ l ++ r, e.fires = false := by
  intro e he
  rcases List.mem_append.mp he with he | he
  · exact hl e he
  · exact hr e he

theorem nil_quiet : ∀ e ∈ ([] : List Effect), e.fires = false :=
  fun _ he => absurd he List.not_mem_nil

theorem complete_ends (c : RClient) (req : RClientReq) (status : RClientError)
    (selected : Option RRateLimitResult) (io : CompleteIo) {before : List Effect}
    (hbefore : ∀ e ∈ before, e.fires = false) :
    EndsInCallback (Reply.complete c req status selected io before).effects := by
  simp only [Reply.complete, rRequestComplete]
  rw [← List.append_assoc]
  apply endsInCallback_snoc
  refine append_quiet hbefore (append_quiet ?_ ?_)
  · intro e he
    split at he
    · rw [List.mem_singleton.mp he]
      rfl
    · exact absurd he List.not_mem_nil
  · split
    · exact sends_quiet rCompletionDelivery_isSend
    · exact nil_quiet

theorem rSendRateRequest_quiet (c : RClient) (req : RClientReq) (missingOnly bestEffort : Bool)
    (pass : SendPass) (startedMs : UInt64) (udpSend : Nat → Bool) :
    ∀ e ∈ (rSendRateRequest c req missingOnly bestEffort pass startedMs udpSend).effects,
      e.fires = false := by
  rcases rSendRateRequest_effects c req missingOnly bestEffort pass startedMs udpSend with
    ⟨hnone, -⟩ | ⟨hsends, -⟩
  · rw [hnone]
    exact nil_quiet
  · rw [hsends]
    exact sends_quiet sendEffects_isSend

theorem rStartRound_quiet (c : RClient) (req : RClientReq) (round : UInt32) (nowMs : UInt64)
    (udpSend : Nat → Bool) :
    ∀ e ∈ (rStartRound c req round nowMs udpSend).2.effects, e.fires = false := by
  rcases rStartRound_cases c req round nowMs udpSend with
    ⟨heq, -⟩ | ⟨rc, heq, -⟩ | ⟨gapUnits, -, -, -, heq⟩
  · rw [heq]
    exact nil_quiet
  · rw [heq]
    exact nil_quiet
  · rw [heq]
    exact rSendRateRequest_quiet c _ _ _ _ _ _

theorem rClientOnDatagram_ends (gcm : Gcm) (c : RClient) (buf : Bytes) (sender : RAddr)
    (io : DatagramIo) : EndsInCallback (rClientOnDatagram gcm c buf sender io).effects := by
  unfold rClientOnDatagram
  split
  · exact endsInCallback_of_none nil_quiet
  · rename_i req response _
    have haccepted : ∀ e ∈ [Effect.accepted req.handle response], e.fires = false := by
      intro e he
      rw [List.mem_singleton.mp he]
      rfl
    simp only [acceptResponse]
    split
    · exact complete_ends _ _ _ _ _ haccepted
    · exact endsInCallback_of_none haccepted

theorem rClientOnTimeout_ends (c : RClient) (req : RClientReq) (nowMs : UInt64)
    (io : TimeoutIo) : EndsInCallback (rClientOnTimeout c req nowMs io).effects := by
  have htimer : ∀ e ∈ [Effect.timer req.handle nowMs req.attemptDeadlineMs],
      e.fires = false := by
    intro e he
    rw [List.mem_singleton.mp he]
    rfl
  unfold rClientOnTimeout
  simp only
  split
  · exact endsInCallback_of_none htimer
  unfold rRequestPolicyOnTimeout
  split
  · split
    · exact complete_ends _ _ _ _ _ htimer
    · exact endsInCallback_of_none htimer
  split
  · exact endsInCallback_of_none htimer
  split
  · split
    · have hstart := append_quiet htimer
        (rStartRound_quiet c req (req.haRound + 1) io.roundMs io.udpSend)
      unfold replayRound
      simp only
      split
      · exact endsInCallback_of_none hstart
      · exact complete_ends _ _ _ _ _ hstart
    · split
      · exact complete_ends _ _ _ _ _ htimer
      · exact endsInCallback_of_none htimer
  · exact complete_ends _ _ _ _ _ htimer

theorem SubmitOutcome.ends {gcm : Gcm} {c : RClient} {h : Handle} {args : SubmitArgs}
    {io : SubmitIo} {reply : Reply} (houtcome : SubmitOutcome gcm c h args io reply) :
    EndsInCallback reply.effects := by
  cases houtcome with
  | rejected status c' =>
    apply endsInCallback_of_none
    intro e he
    rw [List.mem_singleton.mp he]
    rfl
  | emptied =>
    apply endsInCallback_snoc
    intro e he
    split at he
    · rw [List.mem_singleton.mp he]
      rfl
    · exact absurd he List.not_mem_nil
  | sendFailed req gapUnits status sends c' built hstatus hsends =>
    exact endsInCallback_snoc (sends_quiet (maybeSends_isSend hsends))
  | launched => exact endsInCallback_snoc (sends_quiet sendEffects_isSend)

theorem rNotifySteeringWhenDrained_quiet (c : RClient) :
    ∀ e ∈ (rNotifySteeringWhenDrained c).2, e.fires = false := by
  have hdrained : ∀ e ∈ (if c.inflight.isEmpty then [Effect.drained] else []),
      e.fires = false := by
    intro e he
    split at he
    · rw [List.mem_singleton.mp he]
      rfl
    · exact absurd he List.not_mem_nil
  simp only [rNotifySteeringWhenDrained]
  split
  · refine append_quiet hdrained ?_
    intro e he
    rw [List.mem_singleton.mp he]
    rfl
  · exact hdrained

theorem step_ends {gcm : Gcm} {c : RClient} {m m' : Machine} {call : Call} {effects : List Effect}
    (hwf : m.Wf c) (hstep : step gcm m call = some (m', effects)) : EndsInCallback effects := by
  cases stepped_of_step hstep with
  | submit args io =>
    exact (rClientCheckRateLimitAsyncImpl_outcome gcm m.client m.nextHandle args io
      hwf.identified).ends
  | report reports io =>
    obtain ⟨-, -, -, hsends⟩ := rClientReportLatency_quiet gcm m.client reports io
    exact endsInCallback_of_none (sends_quiet fun e he => (hsends e he).2)
  | datagram buf sender io => exact rClientOnDatagram_ends gcm m.client buf sender io
  | timeout h nowMs io req => exact rClientOnTimeout_ends m.client req nowMs io
  | cancel h =>
    apply endsInCallback_of_none
    unfold rClientCancelRequest
    split
    · intro e he
      rcases List.mem_cons.mp he with rfl | he
      · rfl
      · exact rNotifySteeringWhenDrained_quiet _ e he
    · exact nil_quiet
  | callbackReturn frame frames =>
    apply endsInCallback_of_none
    cases frame with
    | completing req => exact rNotifySteeringWhenDrained_quiet m.client
    | emptyRequest => exact nil_quiet
  | refreshFinish => exact endsInCallback_of_none nil_quiet

/-! ### Counting -/

def Effect.isCallback (h : Handle) : Effect → Bool
  | .callback k _ _ => k == some h
  | _ => false

def Mark.isFired : Mark → Bool
  | .fired => true
  | _ => false

theorem countP_isCallback (h : Handle) (trace : List Effect) :
    trace.countP (Effect.isCallback h) = (marks h trace).countP Mark.isFired := by
  rw [marks, List.countP_filterMap]
  apply List.countP_congr
  intro e _
  cases e with
  | callback k status result =>
    by_cases hk : k = some h
    · simp [Effect.isCallback, Effect.mark?, Mark.isFired, hk]
    · simp [Effect.isCallback, Effect.mark?, hk]
  | submitted k req | submitFailed k status | cancelled k =>
    by_cases hk : k = h
    · simp [Effect.isCallback, Effect.mark?, Mark.isFired, hk]
    · simp [Effect.isCallback, Effect.mark?, hk]
  | _ => simp [Effect.isCallback, Effect.mark?]

/-- What a machine holds for a handle and the turning points in its trace. -/
theorem run_view_marks {gcm : Gcm} {args : CreateArgs} {c : RClient}
    (hcreate : rClientCreate args = .ok c) {calls : List Call} {m : Machine}
    {trace : List Effect} (hrun : run gcm c calls = some (m, trace)) (h : Handle) :
    (m.view h = .unborn ∧ marks h trace = []) ∨
    (∃ req started, m.view h = .live req ∧ marks h trace = [.submitted started]) ∨
    (∃ req started, m.view h = .calling req ∧ marks h trace = [.submitted started, .fired]) ∨
    (∃ started, m.view h = .gone ∧ marks h trace = [.submitted started, .fired]) ∨
    (∃ started, m.view h = .gone ∧ marks h trace = [.submitted started, .cancelled]) ∨
    (m.view h = .gone ∧ (marks h trace = [] ∨ marks h trace = [.refused])) := by
  have hplaced := run_placed hcreate hrun h
  rw [← marks_about]
  generalize m.view h = view at hplaced ⊢
  generalize about h trace = own at hplaced ⊢
  cases hplaced with
  | unborn => exact .inl ⟨rfl, rfl⟩
  | live req started _ _ _ hmarks => exact .inr (.inl ⟨req, started, rfl, hmarks⟩)
  | calling req started _ _ _ hmarks => exact .inr (.inr (.inl ⟨req, started, rfl, hmarks⟩))
  | completed started _ _ hmarks => exact .inr (.inr (.inr (.inl ⟨started, rfl, hmarks⟩)))
  | cancelled started _ _ hmarks =>
    exact .inr (.inr (.inr (.inr (.inl ⟨started, rfl, hmarks⟩))))
  | never _ hmarks => exact .inr (.inr (.inr (.inr (.inr ⟨rfl, hmarks⟩))))

theorem inflight_iff_live {c : RClient} {m : Machine} (hwf : m.Wf c) {h : Handle} :
    (∃ req ∈ m.client.inflight, req.handle = h) ↔ ∃ req, m.view h = .live req := by
  constructor
  · rintro ⟨req, hmem, rfl⟩
    exact ⟨req, view_of_mem hwf hmem⟩
  · rintro ⟨req, hview⟩
    exact ⟨req, List.mem_of_find?_eq_some (view_live_iff.mp hview), view_live_handle hview⟩

/-- After its callback or its cancellation a request is out of the list for good. -/
theorem view_of_done {gcm : Gcm} {args : CreateArgs} {c : RClient}
    (hcreate : rClientCreate args = .ok c) {calls : List Call} {m : Machine}
    {trace : List Effect} (hrun : run gcm c calls = some (m, trace)) {h : Handle}
    (hdone : Mark.fired ∈ marks h trace ∨ Mark.cancelled ∈ marks h trace) :
    m.view h = .gone ∨ ∃ req, m.view h = .calling req := by
  rcases run_view_marks hcreate hrun h with ⟨-, hmarks⟩ | ⟨req, started, -, hmarks⟩ |
    ⟨req, started, hview, -⟩ | ⟨started, hview, -⟩ | ⟨started, hview, -⟩ | ⟨hview, -⟩
  · rw [hmarks] at hdone
    simp at hdone
  · rw [hmarks] at hdone
    simp at hdone
  · exact .inr ⟨req, hview⟩
  · exact .inl hview
  · exact .inl hview
  · exact .inl hview

theorem callback_mem {h : Handle} {trace : List Effect} :
    (∃ status result, Effect.callback (some h) status result ∈ trace) ↔
      Mark.fired ∈ marks h trace := by
  rw [mark_mem]
  constructor
  · rintro ⟨status, result, hmem⟩
    exact ⟨_, hmem, mark_fired_iff.mpr ⟨status, result, rfl⟩⟩
  · rintro ⟨e, hmem, he⟩
    obtain ⟨status, result, rfl⟩ := mark_fired_iff.mp he
    exact ⟨status, result, hmem⟩

theorem cancelled_mem {h : Handle} {trace : List Effect} :
    Effect.cancelled h ∈ trace ↔ Mark.cancelled ∈ marks h trace := by
  rw [mark_mem]
  constructor
  · intro hmem
    exact ⟨_, hmem, mark_cancelled_iff.mpr rfl⟩
  · rintro ⟨e, hmem, he⟩
    rw [← mark_cancelled_iff.mp he]
    exact hmem

section

variable {gcm : Gcm} {args : CreateArgs} {c : RClient} (hcreate : rClientCreate args = .ok c)
  {calls : List Call} {m : Machine} {trace : List Effect}
  (hrun : run gcm c calls = some (m, trace)) (h : Handle)

include hcreate hrun

theorem callback_at_most_once : trace.countP (Effect.isCallback h) ≤ 1 := by
  rw [countP_isCallback]
  rcases run_view_marks hcreate hrun h with ⟨_, hmarks⟩ | ⟨_, _, _, hmarks⟩ | ⟨_, _, _, hmarks⟩ |
    ⟨_, _, hmarks⟩ | ⟨_, _, hmarks⟩ | ⟨_, hmarks | hmarks⟩
  all_goals
    rw [hmarks]
    simp [Mark.isFired]

theorem inflight_iff_trace :
    (∃ req ∈ m.client.inflight, req.handle = h) ↔
      (∃ started, Effect.submitted h started ∈ trace) ∧
      (∀ status result, Effect.callback (some h) status result ∉ trace) ∧
      Effect.cancelled h ∉ trace := by
  simp only [← not_exists]
  rw [inflight_iff_live (run_wf hcreate hrun), callback_mem, cancelled_mem]
  simp only [submitted_mem]
  rcases run_view_marks hcreate hrun h with ⟨hview, hmarks⟩ | ⟨_, _, hview, hmarks⟩ |
    ⟨_, _, hview, hmarks⟩ | ⟨_, hview, hmarks⟩ | ⟨_, hview, hmarks⟩ | ⟨hview, hmarks | hmarks⟩
  all_goals
    rw [hview, hmarks]
    simp

theorem refused_never_fires (hfailed : ∃ status, Effect.submitFailed h status ∈ trace) :
    ∀ status result, Effect.callback (some h) status result ∉ trace := by
  intro status result hcallback
  obtain ⟨failure, hfailed⟩ := hfailed
  have hrefused : Mark.refused ∈ marks h trace := mark_mem.mpr ⟨_, hfailed, if_pos rfl⟩
  have hfired : Mark.fired ∈ marks h trace := callback_mem.mp ⟨status, result, hcallback⟩
  rcases run_view_marks hcreate hrun h with ⟨_, hmarks⟩ | ⟨_, _, _, hmarks⟩ | ⟨_, _, _, hmarks⟩ |
    ⟨_, _, hmarks⟩ | ⟨_, _, hmarks⟩ | ⟨_, hmarks | hmarks⟩
  all_goals
    rw [hmarks] at hrefused hfired
    simp at hrefused hfired

/-- The callback of a request fires from inside a call that found it in the list
    and has taken it out. -/
theorem fires_out_of_list {call : Call} {m' : Machine} {effects : List Effect}
    (hstep : step gcm m call = some (m', effects)) {front back : List Effect}
    {status : RClientError} {result : Option RRateLimitResult}
    (heffects : effects = front ++ .callback (some h) status result :: back) :
    (∃ req ∈ m.client.inflight, req.handle = h) ∧
      (∀ req ∈ m'.client.inflight, req.handle ≠ h) ∧ back = [] := by
  have hwf := run_wf hcreate hrun
  obtain ⟨hwf', hlife⟩ := step_wf_life hwf hstep
  have hmark : Mark.fired ∈ marks h (about h effects) := by
    rw [marks_about, heffects]
    exact callback_mem.mp ⟨status, result, List.mem_append_right _ List.mem_cons_self⟩
  obtain ⟨req, req', hlive, hcalling, -⟩ := (hlife h).fires hmark
  exact ⟨(inflight_iff_live hwf).mpr ⟨req, hlive⟩, not_mem_of_calling hwf' hcalling,
    step_ends hwf hstep front _ back heffects rfl⟩

/-- A request that has completed or been cancelled sees no effect, is not in the
    list, and its record in a running callback does not change. -/
theorem done_stays_done
    (hdone : (∃ status result, Effect.callback (some h) status result ∈ trace) ∨
      Effect.cancelled h ∈ trace) {call : Call} {m' : Machine} {effects : List Effect}
    (hstep : step gcm m call = some (m', effects)) :
    (∀ e ∈ effects, e.handle? ≠ some h) ∧ (∀ req ∈ m'.client.inflight, req.handle ≠ h) ∧
      ∀ req, Frame.completing req ∈ m'.frames → req.handle = h →
        Frame.completing req ∈ m.frames := by
  rw [callback_mem, cancelled_mem] at hdone
  obtain ⟨hwf', hlife⟩ := step_wf_life (run_wf hcreate hrun) hstep
  have hview := view_of_done hcreate hrun hdone
  -- from a callback or after it a request can only stay, or have its callback return
  have hstill : about h effects = [] ∧ (m'.view h = m.view h ∨ m'.view h = .gone) := by
    have hlife := hlife h
    generalize m.view h = view at hlife hview ⊢
    generalize m'.view h = view' at hlife ⊢
    generalize about h effects = own at hlife ⊢
    cases hlife with
    | idle => exact ⟨rfl, .inl rfl⟩
    | returned => exact ⟨rfl, .inr rfl⟩
    | _ => simp at hview
  obtain ⟨hquiet, hview'⟩ := hstill
  refine ⟨?_, ?_, ?_⟩
  · intro e he hhandle
    have hmem : e ∈ about h effects := mem_about.mpr ⟨he, hhandle⟩
    rw [hquiet] at hmem
    exact absurd hmem List.not_mem_nil
  · rintro req hmem rfl
    have hlive := view_of_mem hwf' hmem
    rcases hview' with hnew | hnew
    · rw [hnew] at hlive
      rcases hview with hold | ⟨old, hold⟩
      · exact absurd (hold.symm.trans hlive) (by simp)
      · exact absurd (hold.symm.trans hlive) (by simp)
    · exact absurd (hnew.symm.trans hlive) (by simp)
  · rintro req hmem rfl
    have hcalling := view_of_running hwf' hmem
    rcases hview' with hnew | hnew
    · rw [hnew] at hcalling
      have hrunning := List.mem_of_find?_eq_some (view_calling_iff.mp hcalling).2
      obtain ⟨frame, hframe, hreq⟩ := List.mem_filterMap.mp hrunning
      cases frame with
      | completing req' =>
        rw [← Option.some.inj hreq]
        exact hframe
      | emptyRequest => exact absurd hreq (by simp [Frame.request?])
    · exact absurd (hnew.symm.trans hcalling) (by simp)

end

theorem SubmitOutcome.by_status {gcm : Gcm} {c : RClient} {h : Handle} {args : SubmitArgs}
    {io : SubmitIo} {reply : Reply} (houtcome : SubmitOutcome gcm c h args io reply) :
    (reply.status ≠ .ok ∧ Effect.submitFailed h reply.status ∈ reply.effects ∧
        reply.frame = none ∧ ∀ e ∈ reply.effects, e.fires = false) ∨
      (reply.status = .ok ∧ ∃ started, Effect.submitted h started ∈ reply.effects) ∨
      (reply.status = .ok ∧ reply = completeEmpty c) := by
  have hfailed : ∀ status, ∀ e ∈ [Effect.submitFailed h status], e.fires = false := by
    intro status e he
    rw [List.mem_singleton.mp he]
    rfl
  cases houtcome with
  | rejected status c' hstatus =>
    exact .inl ⟨hstatus, List.mem_cons_self, rfl, hfailed status⟩
  | emptied => exact .inr (.inr ⟨rfl, rfl⟩)
  | sendFailed req gapUnits status sends c' built hstatus hsends =>
    exact .inl ⟨hstatus, List.mem_append_right _ List.mem_cons_self, rfl,
      append_quiet (sends_quiet (maybeSends_isSend hsends)) (hfailed status)⟩
  | launched req gapUnits c' =>
    exact .inr (.inl ⟨rfl, _, List.mem_append_right _ List.mem_cons_self⟩)

/-- The cancellation of a request in flight takes it off the list. -/
theorem cancel_removes {gcm : Gcm} {args : CreateArgs} {c : RClient}
    (hcreate : rClientCreate args = .ok c) {calls : List Call} {m m' : Machine}
    {trace effects : List Effect} (hrun : run gcm c calls = some (m, trace)) (h : Handle)
    (hin : ∃ req ∈ m.client.inflight, req.handle = h)
    (hstep : step gcm m (.cancel h) = some (m', effects)) :
    Effect.cancelled h ∈ effects ∧ ∀ req ∈ m'.client.inflight, req.handle ≠ h := by
  have hmem : Effect.cancelled h ∈ effects := by
    obtain ⟨req, hreq, rfl⟩ := hin
    obtain ⟨-, hown, -⟩ := rClientCancelRequest_of_mem hreq
    obtain ⟨-, rfl⟩ := Prod.mk.inj (Option.some.inj hstep)
    refine (mem_about.mp (?_ : _ ∈ about req.handle _)).1
    rw [hown]
    exact List.mem_singleton_self _
  refine ⟨hmem, fun req hreq heq => ?_⟩
  have hthen : run gcm c (calls ++ [.cancel h]) = some (m', trace ++ effects) :=
    Run.exec_snoc.mpr ⟨m, trace, effects, hrun, hstep, rfl⟩
  exact ((inflight_iff_trace hcreate hthen h).mp ⟨req, hreq, heq⟩).2.2
    (List.mem_append_right _ hmem)

/-! ### The theorem -/

/-- **Exactly-once completion.** In every run: the callback of a request fires at
    most once; the request is in the list exactly while it has been submitted and
    neither completed nor cancelled; a refused submission never fires. And for
    every further step: a callback that fires finds its request out of the list and
    ends the step; a request that is done sees no effect and no change; the
    cancellation of a request in flight takes it off the list; and a submission
    has one of three outcomes, told apart by its status. -/
theorem completion_exactly_once {gcm : Gcm} {args : CreateArgs} {c : RClient}
    (hcreate : rClientCreate args = .ok c) {calls : List Call} {m : Machine}
    {trace : List Effect} (hrun : run gcm c calls = some (m, trace)) (h : Handle) :
    trace.countP (Effect.isCallback h) ≤ 1 ∧
    ((∃ req ∈ m.client.inflight, req.handle = h) ↔
      (∃ started, Effect.submitted h started ∈ trace) ∧
      (∀ status result, Effect.callback (some h) status result ∉ trace) ∧
      Effect.cancelled h ∉ trace) ∧
    ((∃ status, Effect.submitFailed h status ∈ trace) →
      ∀ status result, Effect.callback (some h) status result ∉ trace) ∧
    ∀ call m' effects, step gcm m call = some (m', effects) →
      (∀ front status result back, effects = front ++ .callback (some h) status result :: back →
        (∃ req ∈ m.client.inflight, req.handle = h) ∧
        (∀ req ∈ m'.client.inflight, req.handle ≠ h) ∧ back = []) ∧
      ((∃ status result, Effect.callback (some h) status result ∈ trace) ∨
          Effect.cancelled h ∈ trace →
        (∀ e ∈ effects, e.handle? ≠ some h) ∧
        (∀ req ∈ m'.client.inflight, req.handle ≠ h) ∧
        ∀ req, Frame.completing req ∈ m'.frames → req.handle = h →
          Frame.completing req ∈ m.frames) ∧
      (call = .cancel h → (∃ req ∈ m.client.inflight, req.handle = h) →
        Effect.cancelled h ∈ effects ∧ ∀ req ∈ m'.client.inflight, req.handle ≠ h) ∧
      ∀ args io, call = .submit args io →
        let reply := rClientCheckRateLimitAsyncImpl gcm m.client m.nextHandle args io
        (reply.status ≠ .ok ∧ Effect.submitFailed m.nextHandle reply.status ∈ effects ∧
            m'.frames = m.frames ∧ ∀ e ∈ effects, e.fires = false) ∨
          (reply.status = .ok ∧ ∃ started, Effect.submitted m.nextHandle started ∈ effects) ∨
          (reply.status = .ok ∧ reply = completeEmpty m.client) := by
  refine ⟨callback_at_most_once hcreate hrun h, inflight_iff_trace hcreate hrun h,
    refused_never_fires hcreate hrun h, ?_⟩
  intro call m' effects hstep
  refine ⟨?_, fun hdone => done_stays_done hcreate hrun h hdone hstep, ?_, ?_⟩
  · intro front status result back heffects
    exact fires_out_of_list hcreate hrun h hstep heffects
  · rintro rfl hin
    exact cancel_removes hcreate hrun h hin hstep
  · rintro args io rfl
    have houtcome := rClientCheckRateLimitAsyncImpl_outcome gcm m.client m.nextHandle args io
      (run_wf hcreate hrun).identified
    obtain ⟨rfl, rfl⟩ := Prod.mk.inj (Option.some.inj hstep)
    rcases houtcome.by_status with ⟨hstatus, hfailed, hframe, hquiet⟩ | hlaunched | hempty
    · refine .inl ⟨hstatus, hfailed, ?_, hquiet⟩
      simp only [Machine.afterReply, hframe]
      rfl
    · exact .inr (.inl hlaunched)
    · exact .inr (.inr hempty)

/-- A request completes, and its callback submits another and cancels the handle it
    was called for: the cancellation finds nothing. -/
theorem completion_exactly_once_reentrant :
    ∃ m trace, run noGcm sampleClient
        [sampleSubmit 1 100, sampleDatagram 1 3 1 105, sampleSubmit 2 106, .cancel 0,
          .callbackReturn] = some (m, trace) ∧
      trace.countP (Effect.isCallback 0) = 1 ∧ Effect.cancelled 0 ∉ trace ∧
      trace.countP (Effect.isCallback 0) ≤ 1 ∧
      ((∃ req ∈ m.client.inflight, req.handle = 1) ↔
        (∃ started, Effect.submitted 1 started ∈ trace) ∧
        (∀ status result, Effect.callback (some 1) status result ∉ trace) ∧
        Effect.cancelled 1 ∉ trace) := by
  obtain ⟨⟨m, trace⟩, hrun, hread⟩ := Option.map_eq_some_iff.mp
    (show (run noGcm sampleClient [sampleSubmit 1 100, sampleDatagram 1 3 1 105,
      sampleSubmit 2 106, .cancel 0, .callbackReturn]).map (fun s =>
        (s.2.countP (Effect.isCallback 0), decide (Effect.cancelled 0 ∈ s.2))) =
          some (1, false) by
      decide +kernel)
  obtain ⟨hfired, hcancelled⟩ := Prod.mk.inj hread
  exact ⟨m, trace, hrun, hfired, of_decide_eq_false hcancelled,
    (completion_exactly_once sampleClient_created hrun 0).1,
    (completion_exactly_once sampleClient_created hrun 1).2.1⟩

end RlClient
