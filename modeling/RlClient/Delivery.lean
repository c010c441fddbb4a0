import RlClient.Transmission

/-!
# Who is still missing

No replay round starts once a response has been accepted, and the completion
delivery goes to exactly the endpoints whose server has not answered. The second
needs the list of responders to be complete, so it assumes that its allocations
succeed.
-/

namespace RlClient

def Allocates (calls : List Call) : Prop :=
  ∀ buf sender io, Call.datagram buf sender io ∈ calls → io.allocSeen.serverIds = true

/-- What a call that may complete a request reads from the host on completion. -/
def Call.completeIo? : Call → Option CompleteIo
  | .datagram _ _ io => some io.complete
  | .timeout _ _ io => some io.complete
  | _ => none

/-! ### Responders -/

theorem mem_rSeenServerAdd {req : RClientReq} {id x : UInt64} :
    x ∈ (rSeenServerAdd req id true).seenServerIds ↔ x ∈ req.seenServerIds ∨ x = id := by
  unfold rSeenServerAdd
  split
  · rename_i hseen
    have hmem : id ∈ req.seenServerIds := by simpa using hseen
    constructor
    · exact .inl
    · rintro (hx | rfl)
      · exact hx
      · exact hmem
  · split
    · simp
    · simp

/-- The list of responders is the list of servers with an accepted response. -/
def SeenAll (accepted : List RResponse) (req : RClientReq) : Prop :=
  ∀ id, id ∈ req.seenServerIds ↔ id ∈ accepted.map (·.serverId)

theorem SeenAll.accept {accepted : List RResponse} {req : RClientReq} (h : SeenAll accepted req)
    (response : RResponse) (sender : RAddr) {alloc : SeenAlloc} (halloc : alloc.serverIds = true) :
    SeenAll (accepted ++ [response]) (recordResponse req response sender alloc) := by
  obtain ⟨addrs, addrCap, heq⟩ := recordResponse_eq req response sender alloc
  intro id
  rw [heq, halloc]
  change id ∈ (rSeenServerAdd req response.serverId true).seenServerIds ↔ _
  rw [mem_rSeenServerAdd, h id]
  simp

theorem ReqStep.seenAll {c : RClient} {h : Handle} {req req' : RClientReq} {call : Call}
    {effects : List Effect} {view : View} (hstep : ReqStep c h req call effects view)
    (hview : view.request? = some req') {accepted : List RResponse} (hseen : SeenAll accepted req)
    (halloc : ∀ buf sender io, call = .datagram buf sender io → io.allocSeen.serverIds = true) :
    SeenAll (accepted ++ acceptedBy h effects) req' := by
  unfold SeenAll
  rcases hstep.memory hview with
    ⟨hnone, hsame⟩ | ⟨buf, sender, io, response, hcall, hone, hsame⟩
  · rw [hnone, List.append_nil, hsame.seenServerIds]
    exact hseen
  · rw [hone, hsame.seenServerIds]
    exact hseen.accept response sender (halloc buf sender io hcall)

theorem run_seenAll {gcm : Gcm} {args : CreateArgs} {c : RClient}
    (hcreate : rClientCreate args = .ok c) {calls : List Call} {m : Machine}
    {trace : List Effect} (hrun : run gcm c calls = some (m, trace)) (halloc : Allocates calls)
    {h : Handle} {req : RClientReq} (hview : (m.view h).request? = some req) :
    SeenAll (acceptedBy h trace) req := by
  have hearlier : ∀ {calls : List Call} {call : Call}, Allocates (calls ++ [call]) →
      Allocates calls := by
    intro calls call hall buf sender io hmem
    exact hall buf sender io (List.mem_append_left _ hmem)
  have hinv := request_induction (h := h) hcreate
    (P := fun calls req trace => Allocates calls → SeenAll (acceptedBy h trace) req)
    (fun _ _ _ _ hseen hall => hseen (hearlier hall)) ?_ ?_ hrun hview halloc
  · rw [acceptedBy_about] at hinv
    exact hinv
  · intro calls args io req gapUnits built _ _ id
    have hids : (firstRound c req gapUnits).seenServerIds = [] :=
      congrArg RClientReq.seenServerIds built.eq
    rw [acceptedBy_append, acceptedBy_sends sendEffects_isSend, hids]
    exact Iff.rfl
  · intro calls call req req' trace effects view hseen hstep hheld hall
    rw [acceptedBy_append]
    refine hstep.seenAll hheld (hseen (hearlier hall)) ?_
    rintro buf sender io rfl
    exact hall buf sender io (List.mem_append_right _ List.mem_cons_self)

/-! ### One transition -/

/-- A replay round is sent only by a timer of a request without a candidate. -/
theorem ReqStep.replays {c : RClient} {h : Handle} {req : RClientReq} {call : Call}
    {effects : List Effect} {view : View} (hstep : ReqStep c h req call effects view)
    {k : UInt32} {startedMs : UInt64} {i : Nat} {addr : RAddr} {packet : Bytes} {ok : Bool}
    (hmem : Effect.udpSend (some h) (.round k) startedMs i addr packet ok ∈ effects) :
    req.best = none ∧ acceptedBy h effects = [] := by
  have hsent := hstep.sentBy
  have hin : Effect.udpSend (some h) (.round k) startedMs i addr packet ok ∈ sendsIn effects :=
    List.mem_filter.mpr ⟨hmem, rfl⟩
  have hbest : req.best = none := by
    generalize sendsIn effects = sends at hsent hin
    cases hsent with
    | quiet => exact absurd hin List.not_mem_nil
    | replay view req' startedMs udpSend hview hsame hround hleft hnone => exact hnone
    | delivery req' io =>
      have hpass := everySend_sendEffects req' true .delivery io.deliveryMs io.udpSend h
        _ _ _ _ _ _ hin
      exact absurd hpass.1 (by simp)
  refine ⟨hbest, List.eq_nil_iff_forall_not_mem.mpr ?_⟩
  intro response hresponse
  obtain ⟨buf, sender, io, -, -, -, ⟨-, rfl, -⟩ | ⟨best, -, rfl, -⟩⟩ := hstep.accepts hresponse
  · exact absurd hmem (by simp)
  · rw [sendsIn_between rfl rfl rCompletionDelivery_isSend] at hin
    rcases rCompletionDelivery_cases c (recordResponse req response sender io.allocSeen)
      io.complete with hnone | ⟨-, -, hsends⟩
    · rw [hnone] at hin
      exact absurd hin List.not_mem_nil
    · rw [hsends] at hin
      have hpass := everySend_sendEffects _ true .delivery io.complete.deliveryMs
        io.complete.udpSend h _ _ _ _ _ _ hin
      exact absurd hpass.1 (by simp)

/-- A transition that delivers a result is a completion with a delivery in front of
    the callback; no other transition makes a completion delivery. -/
theorem ReqStep.delivers {c : RClient} {h : Handle} {req : RClientReq} {call : Call}
    {effects : List Effect} {view : View} (hstep : ReqStep c h req call effects view) :
    (∃ trigger req' io best, trigger.isSend = false ∧ view = .calling req' ∧
      call.completeIo? = some io ∧ SameRequest req req' ∧
      effects = [trigger] ++ rCompletionDelivery c req' io ++
        [.callback (some h) .ok (some best)]) ∨
    (attempts h .delivery effects = [] ∧
      ∀ result, Effect.callback (some h) .ok (some result) ∉ effects) := by
  cases hstep with
  | selected buf sender io response best =>
    exact .inl ⟨_, _, io.complete, best, rfl, rfl, rfl,
      recordResponse_same req response sender io.allocSeen, rfl⟩
  | elected nowMs io best =>
    exact .inl ⟨_, _, io.complete, best, rfl, rfl, rfl, SameRequest.refl req, rfl⟩
  | replayed nowMs io gapUnits =>
    right
    constructor
    · rw [attempts_append, attempts_other_pass (by simp)]
      rfl
    · intro result hmem
      rcases List.mem_append.mp hmem with hmem | hmem
      · exact absurd hmem (by simp)
      · exact absurd (sendEffects_isSend _ hmem) Bool.false_ne_true
  | replayFailed nowMs io gapUnits status sends _ _ _ _ _ _ _ hstatus hsends =>
    right
    have hdelivery : attempts h .delivery sends = [] := by
      rcases hsends with rfl | rfl
      · rfl
      · exact attempts_other_pass (by simp) _ _ h
    constructor
    · rw [attempts_append, attempts_append, hdelivery]
      rfl
    · intro result hmem
      rcases List.mem_append.mp hmem with hmem | hmem
      · rcases List.mem_append.mp hmem with hmem | hmem
        · exact absurd hmem (by simp)
        · exact absurd (maybeSends_isSend hsends _ hmem) Bool.false_ne_true
      · exact absurd hmem (by simp)
  | retained => exact .inr ⟨rfl, by simp⟩
  | early => exact .inr ⟨rfl, by simp⟩
  | held => exact .inr ⟨rfl, by simp⟩
  | rearmed => exact .inr ⟨rfl, by simp⟩
  | finalEntered => exact .inr ⟨rfl, by simp⟩
  | replayRefused => exact .inr ⟨rfl, by simp⟩
  | ended => exact .inr ⟨rfl, by simp⟩
  | expired => exact .inr ⟨rfl, by simp⟩

/-- A send behind round zero belongs to a transition of a live request. -/
theorem Life.sends_behind {gcm : Gcm} {c : RClient} {h : Handle} {call : Call} {view view' : View}
    {effects : List Effect} (hlife : Life gcm c h call view effects view') {pass : SendPass}
    {startedMs : UInt64} {i : Nat} {addr : RAddr} {packet : Bytes} {ok : Bool}
    (hmem : Effect.udpSend (some h) pass startedMs i addr packet ok ∈ effects)
    (hpass : pass ≠ .round 0) : ∃ req, view = .live req ∧ ReqStep c h req call effects view' := by
  have hfirst : ∀ req gapUnits io,
      Effect.udpSend (some h) pass startedMs i addr packet ok ∉ firstSends c req gapUnits io := by
    intro req gapUnits io hfirst
    exact hpass (everySend_sendEffects _ _ _ _ _ h _ _ _ _ _ _ hfirst).1
  cases hlife with
  | idle => exact absurd hmem List.not_mem_nil
  | launched args io req gapUnits =>
    rcases List.mem_append.mp hmem with hmem | hmem
    · exact absurd hmem (hfirst req gapUnits io)
    · exact absurd hmem (by simp)
  | sendFailed args io req gapUnits status sends built hstatus hsends =>
    rcases List.mem_append.mp hmem with hmem | hmem
    · rcases hsends with rfl | rfl
      · exact absurd hmem List.not_mem_nil
      · exact absurd hmem (hfirst req gapUnits io)
    · exact absurd hmem (by simp)
  | treated req call effects view hstep => exact ⟨req, rfl, hstep⟩
  | rejected => exact absurd hmem (by simp)
  | emptied => exact absurd hmem List.not_mem_nil
  | cancelled => exact absurd hmem (by simp)
  | returned => exact absurd hmem List.not_mem_nil

theorem Life.delivery_live {gcm : Gcm} {c : RClient} {h : Handle} {call : Call}
    {view view' : View} {effects : List Effect} (hlife : Life gcm c h call view effects view')
    (hsome : attempts h .delivery effects ≠ []) :
    ∃ req, view = .live req ∧ ReqStep c h req call effects view' := by
  obtain ⟨i, hi⟩ := List.exists_mem_of_ne_nil _ hsome
  obtain ⟨e, he, hattempt⟩ := List.mem_filterMap.mp hi
  cases e with
  | udpSend k pass =>
    simp only [Effect.attempt?, Option.ite_none_right_eq_some] at hattempt
    obtain ⟨⟨rfl, rfl⟩, -⟩ := hattempt
    exact hlife.sends_behind he (by simp)
  | _ => exact absurd hattempt (by simp [Effect.attempt?])

theorem mem_attemptedTargets {req : RClientReq} {accepted : List RResponse}
    (hseen : SeenAll accepted req) {i : Nat} {target : RServerEndpoint}
    (hids : target.hasServerId = true) (htarget : req.targets[i]? = some target) :
    i ∈ (attemptedTargets req true).map (·.2) ↔
      target.serverId ∉ accepted.map (·.serverId) := by
  have hresponded : (!(true && rRequestTargetResponded req target)) = true ↔
      target.serverId ∉ req.seenServerIds := by
    rw [rRequestTargetResponded, if_pos hids, Bool.true_and, Bool.not_eq_true', ← Bool.not_eq_true,
      List.any_eq_true]
    simp
  rw [← hseen target.serverId, ← hresponded, List.mem_map]
  constructor
  · rintro ⟨⟨target', i'⟩, hmem, rfl⟩
    obtain ⟨hzip, hmissing⟩ := List.mem_filter.mp hmem
    obtain rfl := Option.some.inj (htarget.symm.trans (List.mem_zipIdx_iff_getElem?.mp hzip))
    exact hmissing
  · intro hmissing
    exact ⟨(target, i), List.mem_filter.mpr ⟨List.mem_zipIdx_iff_getElem?.mpr htarget, hmissing⟩,
      rfl⟩

theorem rCompletionDelivery_made {c : RClient} {req : RClientReq} {io : CompleteIo}
    (henabled : c.policy.completionDelivery = true) (hintime : io.deliveryMs < req.dedupDeadlineMs)
    (hpacket : req.packet ≠ []) (hudp : c.udpSend = true) :
    rCompletionDelivery c req io = sendEffects req true .delivery io.deliveryMs io.udpSend := by
  have hopen :
      ¬ ((!c.policy.completionDelivery || io.deliveryMs ≥ req.dedupDeadlineMs) = true) := by
    simp [henabled, hintime]
  unfold rCompletionDelivery
  rw [if_neg hopen]
  rcases rSendRateRequest_effects c req true true .delivery io.deliveryMs io.udpSend with
    ⟨-, hwhy⟩ | ⟨hsends, -⟩
  · rcases hwhy with ⟨hempty, -⟩ | ⟨hoff, -⟩
    · exact absurd hempty hpacket
    · exact absurd (hoff.symm.trans hudp) (by decide)
  · exact hsends

/-! ### Whole runs -/

section

variable {gcm : Gcm} {args : CreateArgs} {c : RClient} (hcreate : rClientCreate args = .ok c)
  {calls : List Call} {m : Machine} {h : Handle}

include hcreate

/-- No replay round is sent once a response has been accepted. -/
theorem replay_before_response {pre post : List Effect} {k : UInt32} {startedMs : UInt64}
    {i : Nat} {addr : RAddr} {packet : Bytes} {ok : Bool}
    (hrun : run gcm c calls =
      some (m, pre ++ .udpSend (some h) (.round k) startedMs i addr packet ok :: post))
    (hk : k ≠ 0) : acceptedBy h pre = [] := by
  obtain ⟨calls₁, call, calls₂, m₁, trace₁, m₂, left, right, -, hrun₁, -, rfl, hlife⟩ :=
    life_locate (h := h) hcreate rfl hrun
  have hmem : Effect.udpSend (some h) (.round k) startedMs i addr packet ok ∈
      about h left ++ .udpSend (some h) (.round k) startedMs i addr packet ok :: about h right :=
    List.mem_append_right _ List.mem_cons_self
  obtain ⟨req, hlive, hstep⟩ := hlife.sends_behind hmem (by simpa using hk)
  obtain ⟨hbest, hnone⟩ := hstep.replays hmem
  have hview : (m₁.view h).request? = some req := by
    rw [hlive]
    rfl
  have hbefore : acceptedBy h trace₁ = [] :=
    List.map_eq_nil_iff.mp ((run_knows hcreate hrun₁ hview).candidate.1.mp hbest)
  rw [acceptedBy_append, acceptedBy_about] at hnone
  rw [acceptedBy_append, hbefore, (List.append_eq_nil_iff.mp hnone).1]
  rfl

theorem delivery_outcome {trace : List Effect} (hrun : run gcm c calls = some (m, trace))
    {started : RClientReq} (hsubmitted : Effect.submitted h started ∈ trace) {call : Call}
    {m' : Machine} {effects : List Effect} (hstep : step gcm m call = some (m', effects)) :
    (attempts h .delivery effects ≠ [] → c.policy.completionDelivery = true ∧
      ∃ result, Effect.callback (some h) .ok (some result) ∈ effects) ∧
    (∀ result io, Effect.callback (some h) .ok (some result) ∈ effects →
      call.completeIo? = some io → Allocates (calls ++ [call]) →
      c.policy.completionDelivery = true → io.deliveryMs < started.dedupDeadlineMs →
      (attempts h .delivery effects).Nodup ∧
        ∀ i target, started.targets[i]? = some target →
          (i ∈ attempts h .delivery effects ↔
            target.serverId ∉ (acceptedBy h (trace ++ effects)).map (·.serverId))) := by
  obtain ⟨hwf', hlife⟩ := step_wf_life (run_wf hcreate hrun) hstep
  have hlife := hlife h
  constructor
  · intro hsome
    rw [← attempts_about] at hsome
    obtain ⟨req, hlive, hreq⟩ := hlife.delivery_live hsome
    rcases hreq.delivers with ⟨trigger, req', io, best, htrigger, -, -, -, heffects⟩ | ⟨hnone, -⟩
    · have hcallback : Effect.callback (some h) .ok (some best) ∈ about h effects := by
        rw [heffects]
        exact List.mem_append_right _ List.mem_cons_self
      refine ⟨?_, best, (mem_about.mp hcallback).1⟩
      rcases rCompletionDelivery_cases c req' io with hnone | ⟨henabled, -⟩
      · rw [← attempts_sendsIn, heffects,
          sendsIn_between htrigger rfl rCompletionDelivery_isSend, hnone] at hsome
        exact absurd rfl hsome
      · exact henabled
    · exact absurd hnone hsome
  · intro result io hcallback hio halloc henabled hintime
    have hfired : Mark.fired ∈ marks h (about h effects) :=
      mark_mem.mpr ⟨_, mem_about.mpr ⟨hcallback, rfl⟩, mark_fired_iff.mpr ⟨_, _, rfl⟩⟩
    obtain ⟨req, req', hlive, hcalling, hreq⟩ := hlife.fires hfired
    rcases hreq.delivers with
      ⟨trigger, _, io', best, htrigger, hview, hio', hsame, heffects⟩ | ⟨-, hnone⟩
    · obtain rfl := View.calling.inj hview
      obtain rfl := Option.some.inj (hio.symm.trans hio')
      have hstarted := (submitted_same hcreate hrun hsubmitted hlive).trans hsame
      obtain ⟨launch⟩ := (submitted_launch hcreate hrun hsubmitted).1
      have hmade : rCompletionDelivery c req' io =
          sendEffects req' true .delivery io.deliveryMs io.udpSend := by
        apply rCompletionDelivery_made henabled
        · rw [hstarted.dedupDeadlineMs]
          exact hintime
        · rw [hstarted.packet]
          exact launch.packet_ne
        · exact launch.udp
      have hattempts : attempts h .delivery effects = (attemptedTargets req' true).map (·.2) := by
        rw [← attempts_about, ← attempts_sendsIn, heffects,
          sendsIn_between htrigger rfl rCompletionDelivery_isSend, hmade,
          ← view_calling_handle hcalling, attempts_sendEffects]
      have hrun' : run gcm c (calls ++ [call]) = some (m', trace ++ effects) :=
        Run.exec_snoc.mpr ⟨m, trace, effects, hrun, hstep, rfl⟩
      have hseen : SeenAll (acceptedBy h (trace ++ effects)) req' := by
        apply run_seenAll hcreate hrun' halloc
        rw [hcalling]
        rfl
      rw [hattempts]
      refine ⟨attemptedTargets_nodup req' true, ?_⟩
      intro i target htarget
      apply mem_attemptedTargets hseen (launch.identified target (List.mem_of_getElem? htarget))
      rw [hstarted.targets]
      exact htarget
    · exact absurd (mem_about.mpr ⟨hcallback, rfl⟩) (hnone result)

/-- The snapshot of a request is the membership the client holds when it is
    submitted. -/
theorem submitted_snapshot {trace : List Effect} (hrun : run gcm c calls = some (m, trace))
    {call : Call} {m' : Machine} {effects : List Effect}
    (hstep : step gcm m call = some (m', effects)) {started : RClientReq}
    (hmem : Effect.submitted h started ∈ effects) :
    started.targets = m'.client.membership.servers := by
  have hwf := run_wf hcreate hrun
  have hlife := (step_wf_life hwf hstep).2 h
  have hown : Effect.submitted h started ∈ about h effects := mem_about.mpr ⟨hmem, rfl⟩
  obtain ⟨args, io, rfl⟩ := hlife.submits hown
  have houtcome := rClientCheckRateLimitAsyncImpl_outcome gcm m.client m.nextHandle args io
    hwf.identified
  obtain ⟨rfl, rfl⟩ := Prod.mk.inj (Option.some.inj hstep)
  change started.targets = (rClientCheckRateLimitAsyncImpl gcm m.client m.nextHandle args
    io).client.membership.servers
  generalize rClientCheckRateLimitAsyncImpl gcm m.client m.nextHandle args io = reply
    at houtcome hmem
  cases houtcome with
  | rejected => exact absurd hmem (by simp [Reply.done])
  | emptied =>
    simp only [completeEmpty] at hmem
    split at hmem
    · exact absurd hmem (by simp)
    · exact absurd hmem (by simp)
  | sendFailed req gapUnits status sends c' built hstatus hsends =>
    rcases List.mem_append.mp hmem with hmem | hmem
    · exact absurd (maybeSends_isSend hsends _ hmem) Bool.false_ne_true
    · exact absurd hmem (by simp)
  | launched req gapUnits c' built hgap hintime hpacket hudp hinflight hpending hsnapshot =>
    rcases List.mem_append.mp hmem with hmem | hmem
    · exact absurd (sendEffects_isSend _ hmem) Bool.false_ne_true
    · rw [(Effect.submitted.inj (List.mem_singleton.mp hmem)).2]
      exact hsnapshot

/-- What a submission that failed has sent: nothing, or round zero of its packet. -/
def RefusedSends (gcm : Gcm) (c : RClient) (h : Handle) (calls : List Call)
    (trace : List Effect) : Prop :=
  EverySend h (fun _ _ _ _ _ => False) trace ∨
    ∃ args io req, Call.submit args io ∈ calls ∧ Nonempty (Built gcm c h args io req) ∧
      EverySend h (fun pass _ i addr packet => pass = .round 0 ∧ req.Owns i addr packet) trace ∧
      ∀ i, attemptCount h i trace ≤ 1

theorem refused_sends {trace : List Effect} (hrun : run gcm c calls = some (m, trace))
    {status : RClientError} (hfailed : Effect.submitFailed h status ∈ trace) :
    RefusedSends gcm c h calls (about h trace) := by
  refine (life_induction (h := h) hcreate
    (P := fun calls view own => ∀ status, Effect.submitFailed h status ∈ own →
      view = .gone ∧ RefusedSends gcm c h calls own)
    (fun _ hmem => absurd hmem List.not_mem_nil) ?_ hrun status
    (mem_about.mpr ⟨hfailed, rfl⟩)).2
  intro calls m trace call view effects view' hrun' hview' hold hlife status hmem
  rcases List.mem_append.mp hmem with hmem | hmem
  · -- a refused handle sees nothing any more
    obtain ⟨rfl, hrefused⟩ := hold status hmem
    cases hlife with
    | idle =>
      rw [List.append_nil]
      refine ⟨rfl, hrefused.imp_right ?_⟩
      rintro ⟨args, io, req, hcall, hrest⟩
      exact ⟨args, io, req, List.mem_append_left _ hcall, hrest⟩
  · cases hlife with
    | idle => exact absurd hmem List.not_mem_nil
    | launched args io req gapUnits =>
      rcases List.mem_append.mp hmem with hmem | hmem
      · exact absurd (sendEffects_isSend _ hmem) Bool.false_ne_true
      · exact absurd hmem (by simp)
    | sendFailed args io req gapUnits status' sends built hstatus hsends =>
      rw [run_unborn hcreate hrun' hview', List.nil_append]
      refine ⟨rfl, ?_⟩
      rcases hsends with rfl | rfl
      · left
        intro pass startedMs i addr packet ok hsend
        exact absurd hsend (by simp)
      · refine .inr ⟨args, io, req, List.mem_append_right _ List.mem_cons_self, ⟨built⟩, ?_, ?_⟩
        · apply EverySend.append
          · refine (everySend_sendEffects _ _ _ _ _ h).imp ?_
            rintro pass startedMs i addr packet ⟨hpass, -, howns⟩
            exact ⟨hpass, howns⟩
          · intro pass startedMs i addr packet ok hsend
            exact absurd hsend (by simp)
        · intro i
          rw [attemptCount_append]
          exact attemptCount_sendEffects _ _ _ _ _ h i
    | rejected =>
      rw [run_unborn hcreate hrun' hview', List.nil_append]
      refine ⟨rfl, .inl ?_⟩
      intro pass startedMs i addr packet ok hsend
      exact absurd hsend (by simp)
    | emptied => exact absurd hmem List.not_mem_nil
    | treated req call effects view hstep =>
      have hmark : Mark.refused ∈ marks h effects :=
        mark_mem.mpr ⟨_, hmem, if_pos rfl⟩
      rcases hstep.marks with ⟨-, -, hmarks⟩ | ⟨-, -, hmarks⟩
      · exact absurd hmark (by simp [hmarks])
      · exact absurd hmark (by simp [hmarks])
    | cancelled => exact absurd hmem (by simp)
    | returned => exact absurd hmem List.not_mem_nil

end

/-- **Transmission discipline.** In every run, for a submitted request: every send
    carries its one packet to an endpoint of its snapshot, before its deduplication
    deadline; round zero attempts every endpoint once; no endpoint is attempted more
    than `replay_count + 2` times; and a completion delivery is made only for a
    result, only when enabled, and then to exactly the endpoints whose server gave
    no accepted response. No replay round follows an accepted response. The snapshot
    is the membership at the submission. A submission that fails has sent at most
    round zero. -/
theorem transmission_discipline {gcm : Gcm} {args : CreateArgs} {c : RClient}
    (hcreate : rClientCreate args = .ok c) {calls : List Call} {m : Machine}
    {trace : List Effect} (hrun : run gcm c calls = some (m, trace)) (h : Handle) :
    (∀ started, Effect.submitted h started ∈ trace →
      EverySend h (fun _ _ i addr packet => started.Owns i addr packet) trace ∧
      EverySend h (fun _ startedMs _ _ _ => startedMs < started.dedupDeadlineMs) trace ∧
      attempts h (.round 0) trace = List.range started.targets.length ∧
      (∀ i, attemptCount h i trace ≤ c.policy.replayCount.toNat + 2) ∧
      ∀ call m' effects, step gcm m call = some (m', effects) →
        (attempts h .delivery effects ≠ [] → c.policy.completionDelivery = true ∧
          ∃ result, Effect.callback (some h) .ok (some result) ∈ effects) ∧
        ∀ result io, Effect.callback (some h) .ok (some result) ∈ effects →
          call.completeIo? = some io → Allocates (calls ++ [call]) →
          c.policy.completionDelivery = true → io.deliveryMs < started.dedupDeadlineMs →
          (attempts h .delivery effects).Nodup ∧
            ∀ i target, started.targets[i]? = some target →
              (i ∈ attempts h .delivery effects ↔
                target.serverId ∉ (acceptedBy h (trace ++ effects)).map (·.serverId))) ∧
    (∀ pre k startedMs i addr packet ok post,
      trace = pre ++ .udpSend (some h) (.round k) startedMs i addr packet ok :: post → k ≠ 0 →
      acceptedBy h pre = []) ∧
    (∀ call m' effects started, step gcm m call = some (m', effects) →
      Effect.submitted h started ∈ effects →
      started.targets = m'.client.membership.servers) ∧
    (∀ status, Effect.submitFailed h status ∈ trace →
      RefusedSends gcm c h calls (about h trace)) := by
  refine ⟨?_, ?_, ?_, fun status => refused_sends hcreate hrun⟩
  · intro started hsubmitted
    obtain ⟨hsent, hround⟩ := run_transmitted hcreate hrun hsubmitted
    have hlimit : sendLimit c.policy (m.view h) ≤ c.policy.replayCount.toNat + 2 := by
      cases hview : m.view h with
      | live req =>
        have hle := hround req hview
        simp only [sendLimit]
        omega
      | _ => exact Nat.le_refl _
    refine ⟨hsent.owned.imp fun _ _ _ _ _ hsend => hsend.1,
      hsent.owned.imp fun _ _ _ _ _ hsend => hsend.2, hsent.first,
      fun i => Nat.le_trans (hsent.count i) hlimit, ?_⟩
    intro call m' effects hstep
    exact delivery_outcome hcreate hrun hsubmitted hstep
  · rintro pre k startedMs i addr packet ok post rfl hk
    exact replay_before_response hcreate hrun hk
  · intro call m' effects started hstep hmem
    exact submitted_snapshot hcreate hrun hstep hmem

/-- Server 5, endpoint 0, answers and server 3, endpoint 1, does not: round zero goes
    to both endpoints, and the delivery at the end of round zero to the second. -/
theorem transmission_discipline_missing_server :
    ∃ m trace started, run noGcm sampleClient
        [sampleSubmit 1 100, sampleDatagram 1 5 1 105, sampleTimeout 0 120] = some (m, trace) ∧
      Effect.submitted 0 started ∈ trace ∧ attempts 0 .delivery trace = [1] ∧
      attempts 0 (.round 0) trace = List.range started.targets.length ∧
      ∀ i, attemptCount 0 i trace ≤ sampleClient.policy.replayCount.toNat + 2 := by
  obtain ⟨⟨m, trace⟩, hrun, hread⟩ := Option.map_eq_some_iff.mp
    (show (run noGcm sampleClient [sampleSubmit 1 100, sampleDatagram 1 5 1 105,
      sampleTimeout 0 120]).map (fun s =>
        (s.2.any (Effect.launches 0), attempts 0 .delivery s.2)) = some (true, [1]) by
      decide +kernel)
  obtain ⟨hany, hdelivery⟩ := Prod.mk.inj hread
  obtain ⟨started, hsubmitted⟩ := exists_submitted hany
  obtain ⟨-, -, hfirst, hcount, -⟩ :=
    (transmission_discipline sampleClient_created hrun 0).1 started hsubmitted
  exact ⟨m, trace, started, hrun, hsubmitted, hdelivery, hfirst, hcount⟩

end RlClient
