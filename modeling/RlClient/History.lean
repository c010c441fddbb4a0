import RlClient.Simulation

/-!
# What a trace says about a request

Readings of a trace for one handle (its accepted responses, whether its callback
has fired), what every transition leaves alone in the request record, and two
facts that hold along every run: a request is still the one that was submitted,
and its place in the client matches what its trace shows.
-/

namespace RlClient

/-! ### Readings -/

def Effect.accepted? (h : Handle) : Effect → Option RResponse
  | .accepted k response => if k = h then some response else none
  | _ => none

def acceptedBy (h : Handle) (trace : List Effect) : List RResponse :=
  trace.filterMap (Effect.accepted? h)

/-- The turning points in the life of a request. -/
inductive Mark where
  | submitted (started : RClientReq)
  | refused
  | fired
  | cancelled

def Effect.mark? (h : Handle) : Effect → Option Mark
  | .submitted k req => if k = h then some (.submitted req) else none
  | .submitFailed k _ => if k = h then some .refused else none
  | .callback k _ _ => if k = some h then some .fired else none
  | .cancelled k => if k = h then some .cancelled else none
  | _ => none

/-- The turning points of request `h`, in order. -/
def marks (h : Handle) (trace : List Effect) : List Mark := trace.filterMap (Effect.mark? h)

@[simp] theorem acceptedBy_append (h : Handle) (l r : List Effect) :
    acceptedBy h (l ++ r) = acceptedBy h l ++ acceptedBy h r := List.filterMap_append

@[simp] theorem marks_append (h : Handle) (l r : List Effect) :
    marks h (l ++ r) = marks h l ++ marks h r := List.filterMap_append

theorem mem_about {h : Handle} {trace : List Effect} {e : Effect} :
    e ∈ about h trace ↔ e ∈ trace ∧ e.handle? = some h := by
  simp [about]

/-- A reading that is blind to other requests may be taken on the request's own
    trace. -/
theorem filterMap_about {α : Type} {h : Handle} {f : Effect → Option α}
    (hf : ∀ e, e.handle? ≠ some h → f e = none) (trace : List Effect) :
    (about h trace).filterMap f = trace.filterMap f := by
  induction trace with
  | nil => rfl
  | cons e trace ih =>
    by_cases he : e.handle? = some h
    · rw [about_cons_self he, List.filterMap_cons, List.filterMap_cons, ih]
    · rw [about_cons_other he, ih, List.filterMap_cons_none (hf e he)]

theorem countP_about {h : Handle} {p : Effect → Bool}
    (hp : ∀ e, p e = true → e.handle? = some h) (trace : List Effect) :
    (about h trace).countP p = trace.countP p := by
  unfold about
  rw [List.countP_filter]
  apply List.countP_congr
  intro e _
  simp only [Bool.and_eq_true, beq_iff_eq]
  exact ⟨fun hboth => hboth.1, fun he => ⟨he, hp e he⟩⟩

theorem acceptedBy_about (h : Handle) (trace : List Effect) :
    acceptedBy h (about h trace) = acceptedBy h trace := by
  refine filterMap_about ?_ trace
  intro e he
  cases e with
  | accepted k response => exact if_neg fun hk => he (congrArg some hk)
  | _ => rfl

theorem marks_about (h : Handle) (trace : List Effect) :
    marks h (about h trace) = marks h trace := by
  refine filterMap_about ?_ trace
  intro e he
  cases e with
  | submitted k req => exact if_neg fun hk => he (congrArg some hk)
  | submitFailed k status => exact if_neg fun hk => he (congrArg some hk)
  | callback k status result => exact if_neg fun hk => he hk
  | cancelled k => exact if_neg fun hk => he (congrArg some hk)
  | _ => rfl

theorem acceptedBy_sends {h : Handle} {sends : List Effect}
    (hsends : ∀ e ∈ sends, e.isSend = true) : acceptedBy h sends = [] := by
  rw [acceptedBy, List.filterMap_eq_nil_iff]
  intro e he
  have hsend := hsends e he
  cases e with
  | udpSend => rfl
  | _ => exact absurd hsend Bool.false_ne_true

theorem marks_sends {h : Handle} {sends : List Effect}
    (hsends : ∀ e ∈ sends, e.isSend = true) : marks h sends = [] := by
  rw [marks, List.filterMap_eq_nil_iff]
  intro e he
  have hsend := hsends e he
  cases e with
  | udpSend => rfl
  | _ => exact absurd hsend Bool.false_ne_true

/-! ### The shape of a transition -/

/-- What a transition of a live request starts with: an accepted response or a
    timer. -/
def Effect.isTrigger (h : Handle) : Effect → Bool
  | .accepted k _ => k == h
  | .timer k _ _ => k == h
  | _ => false

/-- Every transition of a live request is a trigger, then sends, then the
    callback if the request completes. -/
theorem ReqStep.shape {c : RClient} {h : Handle} {req : RClientReq} {call : Call}
    {effects : List Effect} {view : View} (hstep : ReqStep c h req call effects view) :
    ∃ trigger sends, trigger.isTrigger h = true ∧ (∀ e ∈ sends, e.isSend = true) ∧
      ((∃ req', view = .live req' ∧ effects = trigger :: sends) ∨
        ∃ req' status result, view = .calling req' ∧
          effects = trigger :: (sends ++ [.callback (some h) status result])) := by
  have hnone : ∀ e ∈ ([] : List Effect), e.isSend = true :=
    fun e he => absurd he List.not_mem_nil
  have haccepted : ∀ response, (Effect.accepted h response).isTrigger h = true :=
    fun _ => beq_self_eq_true h
  have htimer : ∀ nowMs deadlineMs, (Effect.timer h nowMs deadlineMs).isTrigger h = true :=
    fun _ _ => beq_self_eq_true h
  cases hstep with
  | retained => exact ⟨.accepted h _, [], haccepted _, hnone, .inl ⟨_, rfl, rfl⟩⟩
  | selected =>
    exact ⟨.accepted h _, _, haccepted _, rCompletionDelivery_isSend, .inr ⟨_, _, _, rfl, rfl⟩⟩
  | early => exact ⟨.timer h _ _, [], htimer _ _, hnone, .inl ⟨_, rfl, rfl⟩⟩
  | held => exact ⟨.timer h _ _, [], htimer _ _, hnone, .inl ⟨_, rfl, rfl⟩⟩
  | elected =>
    exact ⟨.timer h _ _, _, htimer _ _, rCompletionDelivery_isSend, .inr ⟨_, _, _, rfl, rfl⟩⟩
  | rearmed => exact ⟨.timer h _ _, [], htimer _ _, hnone, .inl ⟨_, rfl, rfl⟩⟩
  | replayed => exact ⟨.timer h _ _, _, htimer _ _, sendEffects_isSend, .inl ⟨_, rfl, rfl⟩⟩
  | replayFailed nowMs io gapUnits status sends _ _ _ _ _ _ _ _ hsends =>
    refine ⟨.timer h _ _, sends, htimer _ _, ?_, .inr ⟨_, _, _, rfl, rfl⟩⟩
    exact maybeSends_isSend hsends
  | replayRefused => exact ⟨.timer h _ _, [], htimer _ _, hnone, .inr ⟨_, _, _, rfl, rfl⟩⟩
  | finalEntered => exact ⟨.timer h _ _, [], htimer _ _, hnone, .inl ⟨_, rfl, rfl⟩⟩
  | ended => exact ⟨.timer h _ _, [], htimer _ _, hnone, .inr ⟨_, _, _, rfl, rfl⟩⟩
  | expired => exact ⟨.timer h _ _, [], htimer _ _, hnone, .inr ⟨_, _, _, rfl, rfl⟩⟩

/-- A transition accepts what its trigger accepts. -/
theorem ReqStep.acceptedBy_eq {c : RClient} {h : Handle} {req : RClientReq} {call : Call}
    {effects : List Effect} {view : View} (hstep : ReqStep c h req call effects view) :
    acceptedBy h effects = (effects.head?.bind (Effect.accepted? h)).toList := by
  have hfirst : ∀ trigger rest, acceptedBy h rest = [] →
      acceptedBy h (trigger :: rest) = (trigger.accepted? h).toList := by
    intro trigger rest hrest
    cases haccepted : trigger.accepted? h with
    | none =>
      rw [acceptedBy, List.filterMap_cons_none haccepted]
      exact hrest
    | some response =>
      rw [acceptedBy, List.filterMap_cons_some haccepted]
      exact congrArg (response :: ·) hrest
  obtain ⟨trigger, sends, -, hsends, ⟨-, -, rfl⟩ | ⟨-, status, result, -, rfl⟩⟩ := hstep.shape
  · exact hfirst trigger sends (acceptedBy_sends hsends)
  · apply hfirst trigger
    rw [acceptedBy_append, acceptedBy_sends hsends]
    rfl

/-- A response is accepted by a datagram that completes the request or leaves it
    waiting with the response recorded. -/
theorem ReqStep.accepts {c : RClient} {h : Handle} {req : RClientReq} {call : Call}
    {effects : List Effect} {view : View} (hstep : ReqStep c h req call effects view)
    {response : RResponse} (hmem : response ∈ acceptedBy h effects) :
    ∃ buf sender io, call = .datagram buf sender io ∧
      rAllowedServerId req response.serverId = true ∧ io.gateMs ≤ req.dedupDeadlineMs ∧
      ((selectBest (recordResponse req response sender io.allocSeen) io.nowMs = none ∧
          effects = [.accepted h response] ∧
          view = .live (holdCandidate (recordResponse req response sender io.allocSeen))) ∨
        ∃ best, selectBest (recordResponse req response sender io.allocSeen) io.nowMs = some best ∧
          effects = [.accepted h response] ++
            rCompletionDelivery c (recordResponse req response sender io.allocSeen) io.complete ++
            [.callback (some h) .ok (some best)] ∧
          view = .calling (recordResponse req response sender io.allocSeen)) := by
  have hone : ∀ r, response ∈ ((Effect.accepted h r).accepted? h).toList → response = r := by
    intro r hr
    simpa [Effect.accepted?] using hr
  rw [hstep.acceptedBy_eq] at hmem
  cases hstep with
  | retained buf sender io r hallowed hgate hopen =>
    obtain rfl := hone r hmem
    exact ⟨buf, sender, io, rfl, hallowed, hgate, .inl ⟨hopen, rfl, rfl⟩⟩
  | selected buf sender io r best hallowed hgate hselect =>
    obtain rfl := hone r hmem
    exact ⟨buf, sender, io, rfl, hallowed, hgate, .inr ⟨best, hselect, rfl, rfl⟩⟩
  | _ => exact absurd hmem List.not_mem_nil

/-! ### What a transition leaves alone in the record -/

theorem rSeenAddrAdd_eq (req : RClientReq) (addr : RAddr) (allocOk : Bool) :
    ∃ addrs addrCap, rSeenAddrAdd req addr allocOk =
      { req with seenAddrs := addrs, seenAddrCap := addrCap } := by
  unfold rSeenAddrAdd
  split
  · exact ⟨_, _, rfl⟩
  · split
    · split
      · exact ⟨_, _, rfl⟩
      · exact ⟨_, _, rfl⟩
    · exact ⟨_, _, rfl⟩

/-- `r_seen_server_add` reads and writes the list of server ids only. -/
theorem rSeenServerAdd_eq (req req' : RClientReq)
    (hids : req'.seenServerIds = req.seenServerIds)
    (hcap : req'.seenServerIdCap = req.seenServerIdCap) (serverId : UInt64) (allocOk : Bool) :
    rSeenServerAdd req' serverId allocOk =
      { req' with
        seenServerIds := (rSeenServerAdd req serverId allocOk).seenServerIds
        seenServerIdCap := (rSeenServerAdd req serverId allocOk).seenServerIdCap } := by
  unfold rSeenServerAdd
  rw [hids, hcap]
  split
  · rw [← hids, ← hcap]
  · split
    · split
      · rfl
      · rw [← hids, ← hcap]
    · rw [← hcap]

/-- What `recordResponse` changes: the responder lists, the steering flag and the
    candidate. -/
theorem recordResponse_eq (req : RClientReq) (response : RResponse) (sender : RAddr)
    (alloc : SeenAlloc) :
    ∃ addrs addrCap, recordResponse req response sender alloc =
      { req with
        seenAddrs := addrs
        seenAddrCap := addrCap
        seenServerIds := (rSeenServerAdd req response.serverId alloc.serverIds).seenServerIds
        seenServerIdCap := (rSeenServerAdd req response.serverId alloc.serverIds).seenServerIdCap
        steeringRebind := response.steeringByte == 0 || req.steeringRebind
        best := rCandidateTryUpdateBest req.best response.result } := by
  have hflag : (if response.steeringByte = 0 then { req with steeringRebind := true } else req) =
      { req with steeringRebind := response.steeringByte == 0 || req.steeringRebind } := by
    by_cases hbyte : response.steeringByte = 0
    · rw [if_pos hbyte, hbyte]
      rfl
    · rw [if_neg hbyte, beq_false_of_ne hbyte]
      rfl
  obtain ⟨addrs, addrCap, hseen⟩ := rSeenAddrAdd_eq
    { req with steeringRebind := response.steeringByte == 0 || req.steeringRebind } sender
    alloc.addrs
  refine ⟨addrs, addrCap, ?_⟩
  simp only [recordResponse]
  rw [hflag, hseen, rSeenServerAdd_eq req
    { req with
      steeringRebind := response.steeringByte == 0 || req.steeringRebind
      seenAddrs := addrs
      seenAddrCap := addrCap } rfl rfl]

theorem holdCandidate_eq (req : RClientReq) :
    holdCandidate req = { req with
      attemptDeadlineMs :=
        if req.best.isSome && req.haPreferenceDeadlineMs < req.attemptDeadlineMs then
          req.haPreferenceDeadlineMs
        else req.attemptDeadlineMs } := by
  unfold holdCandidate
  split <;> rfl

/-- The fields that are fixed when a request is submitted. -/
structure SameRequest (req req' : RClientReq) : Prop where
  handle : req'.handle = req.handle
  requestId : req'.requestId = req.requestId
  targets : req'.targets = req.targets
  allowedIds : req'.allowedIds = req.allowedIds
  startMs : req'.startMs = req.startMs
  dedupDeadlineMs : req'.dedupDeadlineMs = req.dedupDeadlineMs
  dedupTtlMs : req'.dedupTtlMs = req.dedupTtlMs
  packet : req'.packet = req.packet

theorem SameRequest.refl (req : RClientReq) : SameRequest req req :=
  ⟨rfl, rfl, rfl, rfl, rfl, rfl, rfl, rfl⟩

theorem SameRequest.trans {req₁ req₂ req₃ : RClientReq} (h₁ : SameRequest req₁ req₂)
    (h₂ : SameRequest req₂ req₃) : SameRequest req₁ req₃ :=
  ⟨h₂.handle.trans h₁.handle, h₂.requestId.trans h₁.requestId, h₂.targets.trans h₁.targets,
    h₂.allowedIds.trans h₁.allowedIds, h₂.startMs.trans h₁.startMs,
    h₂.dedupDeadlineMs.trans h₁.dedupDeadlineMs, h₂.dedupTtlMs.trans h₁.dedupTtlMs,
    h₂.packet.trans h₁.packet⟩

theorem recordResponse_same (req : RClientReq) (response : RResponse) (sender : RAddr)
    (alloc : SeenAlloc) : SameRequest req (recordResponse req response sender alloc) := by
  obtain ⟨addrs, addrCap, heq⟩ := recordResponse_eq req response sender alloc
  rw [heq]
  exact ⟨rfl, rfl, rfl, rfl, rfl, rfl, rfl, rfl⟩

theorem holdCandidate_same (req : RClientReq) : SameRequest req (holdCandidate req) := by
  rw [holdCandidate_eq]
  exact ⟨rfl, rfl, rfl, rfl, rfl, rfl, rfl, rfl⟩

theorem rEnterFinal_ok {policy : RRequestPolicy} {req entered : RClientReq}
    (h : rEnterFinal policy req = .ok entered) :
    policy.finalReceiveUnits ≠ 0 ∧ entered = { req with
      phase := .final
      haRoundStartMs := req.haRoundDeadlineMs
      haPreferenceDeadlineMs := req.haRoundDeadlineMs
      haRoundDeadlineMs := req.haRoundDeadlineMs +
        policy.unitMs * policy.finalReceiveUnits.toUInt64
      attemptDeadlineMs := req.haRoundDeadlineMs +
        policy.unitMs * policy.finalReceiveUnits.toUInt64 } := by
  unfold rEnterFinal at h
  split at h
  · exact absurd h (by simp)
  · exact ⟨‹_›, (Except.ok.inj h).symm⟩

def View.request? : View → Option RClientReq
  | .live req => some req
  | .calling req => some req
  | _ => none

theorem ReqStep.same {c : RClient} {h : Handle} {req req' : RClientReq} {call : Call}
    {effects : List Effect} {view : View} (hstep : ReqStep c h req call effects view)
    (hview : view.request? = some req') : SameRequest req req' := by
  cases hstep with
  | retained buf sender io response =>
    obtain rfl := Option.some.inj hview
    exact (recordResponse_same req response sender io.allocSeen).trans (holdCandidate_same _)
  | selected buf sender io response =>
    obtain rfl := Option.some.inj hview
    exact recordResponse_same req response sender io.allocSeen
  | finalEntered nowMs io entered _ _ _ _ _ hentered =>
    obtain ⟨-, rfl⟩ := rEnterFinal_ok hentered
    obtain rfl := Option.some.inj hview
    exact ⟨rfl, rfl, rfl, rfl, rfl, rfl, rfl, rfl⟩
  | _ =>
    obtain rfl := Option.some.inj hview
    exact ⟨rfl, rfl, rfl, rfl, rfl, rfl, rfl, rfl⟩

/-- What a request remembers of its responses is the same in both. -/
structure SameMemory (req req' : RClientReq) : Prop where
  best : req'.best = req.best
  seenServerIds : req'.seenServerIds = req.seenServerIds
  steeringRebind : req'.steeringRebind = req.steeringRebind

/-- A step remembers nothing new, or the one response that it accepts. -/
theorem ReqStep.memory {c : RClient} {h : Handle} {req req' : RClientReq} {call : Call}
    {effects : List Effect} {view : View} (hstep : ReqStep c h req call effects view)
    (hview : view.request? = some req') :
    (acceptedBy h effects = [] ∧ SameMemory req req') ∨
      ∃ buf sender io response, call = .datagram buf sender io ∧
        acceptedBy h effects = [response] ∧
        SameMemory (recordResponse req response sender io.allocSeen) req' := by
  have hone := hstep.acceptedBy_eq
  cases hstep with
  | retained buf sender io response =>
    obtain rfl := Option.some.inj hview
    refine .inr ⟨buf, sender, io, response, rfl, ?_, ?_⟩
    · simp [acceptedBy, Effect.accepted?]
    · rw [holdCandidate_eq]
      exact ⟨rfl, rfl, rfl⟩
  | selected buf sender io response best =>
    obtain rfl := Option.some.inj hview
    refine .inr ⟨buf, sender, io, response, rfl, ?_, ⟨rfl, rfl, rfl⟩⟩
    rw [hone]
    simp [Effect.accepted?]
  | finalEntered nowMs io entered _ _ _ _ _ hentered =>
    obtain ⟨-, rfl⟩ := rEnterFinal_ok hentered
    obtain rfl := Option.some.inj hview
    exact .inl ⟨hone, rfl, rfl, rfl⟩
  | _ =>
    obtain rfl := Option.some.inj hview
    exact .inl ⟨hone, rfl, rfl, rfl⟩

/-! ### The place of a request -/

/-- The submission behind a request in flight. -/
structure Launch (gcm : Gcm) (c : RClient) (h : Handle) (calls : List Call)
    (started : RClientReq) where
  args : SubmitArgs
  io : SubmitIo
  req : RClientReq
  gapUnits : UInt32
  called : Call.submit args io ∈ calls
  built : Built gcm c h args io req
  gap : rHaScheduleUnits c.policy.replayGap 0 false = .ok gapUnits
  intime : io.roundMs < req.dedupDeadlineMs
  packet : req.packet ≠ []
  udp : c.udpSend = true
  eq : started = firstRound c req gapUnits

def Launch.later {gcm : Gcm} {c : RClient} {h : Handle} {calls : List Call} {started : RClientReq}
    (launch : Launch gcm c h calls started) (call : Call) :
    Launch gcm c h (calls ++ [call]) started :=
  { launch with called := List.mem_append_left _ launch.called }

theorem Launch.fields {gcm : Gcm} {c : RClient} {h : Handle} {calls : List Call}
    {started : RClientReq} (launch : Launch gcm c h calls started) :
    started.handle = h ∧ started.targets = launch.built.servers ∧
      started.allowedIds = snapshotIds launch.built.servers ∧
      started.startMs = launch.io.startMs ∧
      started.dedupTtlMs = launch.built.ttlMs ∧
      started.dedupDeadlineMs = launch.io.startMs + launch.built.ttlMs.toUInt64 ∧
      started.packet = launch.built.packet ∧ started.best = none := by
  have heq : started = firstRound c (newRequest h
      (submittedRequest launch.args launch.built.requestId launch.io.startMs launch.built.ttlMs)
      launch.built.packet (launch.built.servers, snapshotIds launch.built.servers))
      launch.gapUnits :=
    launch.eq.trans (congrArg (firstRound c · launch.gapUnits) launch.built.eq)
  exact ⟨congrArg RClientReq.handle heq, congrArg RClientReq.targets heq,
    congrArg RClientReq.allowedIds heq, congrArg RClientReq.startMs heq,
    congrArg RClientReq.dedupTtlMs heq, congrArg RClientReq.dedupDeadlineMs heq,
    congrArg RClientReq.packet heq, congrArg RClientReq.best heq⟩

theorem Launch.packet_ne {gcm : Gcm} {c : RClient} {h : Handle} {calls : List Call}
    {started : RClientReq} (launch : Launch gcm c h calls started) : started.packet ≠ [] := by
  rw [congrArg RClientReq.packet launch.eq]
  exact launch.packet

theorem Launch.identified {gcm : Gcm} {c : RClient} {h : Handle} {calls : List Call}
    {started : RClientReq} (launch : Launch gcm c h calls started) :
    ∀ target ∈ started.targets, target.hasServerId = true := by
  obtain ⟨-, htargets, -⟩ := launch.fields
  rw [htargets]
  exact launch.built.identified

/-- Where a request is and what its trace shows go together. -/
inductive Placed (gcm : Gcm) (c : RClient) (h : Handle) (calls : List Call) :
    View → List Effect → Prop
  | unborn : Placed gcm c h calls .unborn []
  | live (req started : RClientReq) (trace : List Effect)
      (launch : Launch gcm c h calls started) (hsame : SameRequest started req)
      (hmarks : marks h trace = [.submitted started]) : Placed gcm c h calls (.live req) trace
  | calling (req started : RClientReq) (trace : List Effect)
      (launch : Launch gcm c h calls started) (hsame : SameRequest started req)
      (hmarks : marks h trace = [.submitted started, .fired]) :
      Placed gcm c h calls (.calling req) trace
  | completed (started : RClientReq) (trace : List Effect)
      (launch : Launch gcm c h calls started)
      (hmarks : marks h trace = [.submitted started, .fired]) : Placed gcm c h calls .gone trace
  | cancelled (started : RClientReq) (trace : List Effect)
      (launch : Launch gcm c h calls started)
      (hmarks : marks h trace = [.submitted started, .cancelled]) :
      Placed gcm c h calls .gone trace
  | never (trace : List Effect) (hmarks : marks h trace = [] ∨ marks h trace = [.refused]) :
      Placed gcm c h calls .gone trace

theorem Placed.later {gcm : Gcm} {c : RClient} {h : Handle} {calls : List Call} {view : View}
    {trace : List Effect} (hplaced : Placed gcm c h calls view trace) (call : Call) :
    Placed gcm c h (calls ++ [call]) view trace := by
  cases hplaced with
  | unborn => exact .unborn
  | live req started _ launch hsame hmarks =>
    exact .live req started _ (launch.later call) hsame hmarks
  | calling req started _ launch hsame hmarks =>
    exact .calling req started _ (launch.later call) hsame hmarks
  | completed started _ launch hmarks => exact .completed started _ (launch.later call) hmarks
  | cancelled started _ launch hmarks => exact .cancelled started _ (launch.later call) hmarks
  | never _ hmarks => exact .never _ hmarks

theorem mark_trigger {h : Handle} {e : Effect} (he : e.isTrigger h = true) : e.mark? h = none := by
  cases e with
  | accepted => rfl
  | timer => rfl
  | _ => exact absurd he Bool.false_ne_true

theorem ReqStep.marks {c : RClient} {h : Handle} {req : RClientReq} {call : Call}
    {effects : List Effect} {view : View} (hstep : ReqStep c h req call effects view) :
    (∃ req', view = .live req' ∧ marks h effects = []) ∨
      ∃ req', view = .calling req' ∧ marks h effects = [.fired] := by
  obtain ⟨trigger, sends, htrigger, hsends, ⟨req', hview, heffects⟩ |
    ⟨req', status, result, hview, heffects⟩⟩ := hstep.shape
  · refine .inl ⟨req', hview, ?_⟩
    rw [heffects, RlClient.marks, List.filterMap_cons_none (mark_trigger htrigger)]
    exact marks_sends hsends
  · refine .inr ⟨req', hview, ?_⟩
    rw [heffects, RlClient.marks, List.filterMap_cons_none (mark_trigger htrigger)]
    change RlClient.marks h (sends ++ _) = _
    rw [marks_append, marks_sends hsends]
    simp [RlClient.marks, Effect.mark?]

theorem Placed.step {gcm : Gcm} {c : RClient} {h : Handle} {calls : List Call} {call : Call}
    {view view' : View} {trace effects : List Effect}
    (hplaced : Placed gcm c h calls view trace) (hlife : Life gcm c h call view effects view') :
    Placed gcm c h (calls ++ [call]) view' (trace ++ effects) := by
  cases hlife with
  | idle =>
    rw [List.append_nil]
    exact hplaced.later call
  | launched args io req gapUnits built hgap hintime hpacket hudp =>
    cases hplaced
    have launch : Launch gcm c h ([] ++ calls ++ [.submit args io]) (firstRound c req gapUnits) :=
      ⟨args, io, req, gapUnits, by simp, built, hgap, hintime, hpacket, hudp, rfl⟩
    refine .live _ _ _ launch (.refl _) ?_
    rw [List.nil_append, marks_append, marks_sends sendEffects_isSend]
    simp [marks, Effect.mark?]
  | sendFailed args io req gapUnits status sends built hstatus hsends =>
    cases hplaced
    refine .never _ (.inr ?_)
    rw [List.nil_append, marks_append, marks_sends (maybeSends_isSend hsends)]
    simp [marks, Effect.mark?]
  | rejected args io status hstatus =>
    cases hplaced
    refine .never _ (.inr ?_)
    simp [marks, Effect.mark?]
  | emptied args io =>
    cases hplaced
    exact .never _ (.inl rfl)
  | treated req call effects view hstep =>
    cases hplaced with
    | live _ started _ launch hsame hmarks =>
      rcases hstep.marks with ⟨req', rfl, hquiet⟩ | ⟨req', rfl, hfired⟩
      · refine .live req' started _ (launch.later call) (hsame.trans (hstep.same rfl)) ?_
        rw [marks_append, hmarks, hquiet, List.append_nil]
      · refine .calling req' started _ (launch.later call) (hsame.trans (hstep.same rfl)) ?_
        rw [marks_append, hmarks, hfired]
        rfl
  | cancelled req =>
    cases hplaced with
    | live _ started _ launch hsame hmarks =>
      refine .cancelled started _ (launch.later _) ?_
      rw [marks_append, hmarks]
      simp [marks, Effect.mark?]
  | returned req =>
    cases hplaced with
    | calling _ started _ launch hsame hmarks =>
      refine .completed started _ (launch.later _) ?_
      rw [List.append_nil, hmarks]

/-- **The place of every request in every run.** -/
theorem run_placed {gcm : Gcm} {args : CreateArgs} {c : RClient}
    (hcreate : rClientCreate args = .ok c) {calls : List Call} {m : Machine}
    {trace : List Effect} (hrun : run gcm c calls = some (m, trace)) (h : Handle) :
    Placed gcm c h calls (m.view h) (about h trace) :=
  life_induction (P := fun calls view trace => Placed gcm c h calls view trace) hcreate .unborn
    (fun _ _ _ _ _ _ _ _ _ hplaced hlife => hplaced.step hlife) hrun

theorem run_unborn {gcm : Gcm} {args : CreateArgs} {c : RClient}
    (hcreate : rClientCreate args = .ok c) {calls : List Call} {m : Machine}
    {trace : List Effect} (hrun : run gcm c calls = some (m, trace)) {h : Handle}
    (hview : m.view h = .unborn) : about h trace = [] := by
  have hplaced := run_placed hcreate hrun h
  rw [hview] at hplaced
  generalize about h trace = own at hplaced
  cases hplaced
  rfl

/-- **Induction over a request in flight.** A property of the calls so far, of the
    request and of its own trace holds while the request is in flight if it holds
    when the request is launched and every transition that leaves it in flight
    keeps it. -/
theorem live_induction {gcm : Gcm} {args : CreateArgs} {c : RClient}
    (hcreate : rClientCreate args = .ok c) {h : Handle}
    {P : List Call → RClientReq → List Effect → Prop}
    (hidle : ∀ calls call req trace, P calls req trace → P (calls ++ [call]) req trace)
    (hbegin : ∀ calls args io req gapUnits, Built gcm c h args io req →
      rHaScheduleUnits c.policy.replayGap 0 false = .ok gapUnits →
      P (calls ++ [.submit args io]) (firstRound c req gapUnits)
        (firstSends c req gapUnits io ++ [.submitted h (firstRound c req gapUnits)]))
    (hstep : ∀ calls call req req' trace effects, P calls req trace →
      ReqStep c h req call effects (.live req') → P (calls ++ [call]) req' (trace ++ effects))
    {calls : List Call} {m : Machine} {trace : List Effect}
    (hrun : run gcm c calls = some (m, trace)) {req : RClientReq} (hview : m.view h = .live req) :
    P calls req (about h trace) := by
  refine life_induction (h := h) hcreate
    (P := fun calls view trace => ∀ req, view = .live req → P calls req trace)
    (fun _ hlive => absurd hlive (by simp)) ?_ hrun req hview
  intro calls m trace call view effects view' hrun' hview' hold hlife req' hlive
  cases hlife with
  | idle =>
    rw [List.append_nil]
    exact hidle calls call req' _ (hold req' hlive)
  | launched args io req gapUnits built hgap =>
    obtain rfl := View.live.inj hlive
    rw [run_unborn hcreate hrun' hview', List.nil_append]
    exact hbegin calls args io req gapUnits built hgap
  | treated req call effects view hreq =>
    subst hlive
    exact hstep calls call req req' _ effects (hold req rfl) hreq
  | _ => exact absurd hlive (by simp)

/-- **Induction over a request in flight or in its callback.** -/
theorem request_induction {gcm : Gcm} {args : CreateArgs} {c : RClient}
    (hcreate : rClientCreate args = .ok c) {h : Handle}
    {P : List Call → RClientReq → List Effect → Prop}
    (hidle : ∀ calls call req trace, P calls req trace → P (calls ++ [call]) req trace)
    (hbegin : ∀ calls args io req gapUnits, Built gcm c h args io req →
      rHaScheduleUnits c.policy.replayGap 0 false = .ok gapUnits →
      P (calls ++ [.submit args io]) (firstRound c req gapUnits)
        (firstSends c req gapUnits io ++ [.submitted h (firstRound c req gapUnits)]))
    (hstep : ∀ calls call req req' trace effects view, P calls req trace →
      ReqStep c h req call effects view → view.request? = some req' →
      P (calls ++ [call]) req' (trace ++ effects))
    {calls : List Call} {m : Machine} {trace : List Effect}
    (hrun : run gcm c calls = some (m, trace)) {req : RClientReq}
    (hview : (m.view h).request? = some req) : P calls req (about h trace) := by
  refine life_induction (h := h) hcreate
    (P := fun calls view trace => ∀ req, view.request? = some req → P calls req trace)
    (fun _ hheld => absurd hheld (by simp [View.request?])) ?_ hrun req hview
  intro calls m trace call view effects view' hrun' hview' hold hlife req' hheld
  cases hlife with
  | idle =>
    rw [List.append_nil]
    exact hidle calls call req' _ (hold req' hheld)
  | launched args io req gapUnits built hgap =>
    obtain rfl := Option.some.inj hheld
    rw [run_unborn hcreate hrun' hview', List.nil_append]
    exact hbegin calls args io req gapUnits built hgap
  | treated req call effects view hreq =>
    exact hstep calls call req req' _ effects view' (hold req rfl) hreq hheld
  | _ => exact absurd hheld (by simp [View.request?])

theorem run_live {gcm : Gcm} {args : CreateArgs} {c : RClient}
    (hcreate : rClientCreate args = .ok c) {calls : List Call} {m : Machine}
    {trace : List Effect} (hrun : run gcm c calls = some (m, trace)) {h : Handle}
    {req : RClientReq} (hview : m.view h = .live req) :
    ∃ started, Nonempty (Launch gcm c h calls started) ∧ SameRequest started req ∧
      marks h trace = [.submitted started] := by
  have hplaced := run_placed hcreate hrun h
  rw [hview, ← marks_about] at *
  generalize about h trace = own at hplaced ⊢
  cases hplaced with
  | live _ started _ launch hsame hmarks => exact ⟨started, ⟨launch⟩, hsame, hmarks⟩

theorem mark_submitted_iff {h : Handle} {e : Effect} {started : RClientReq} :
    e.mark? h = some (.submitted started) ↔ e = .submitted h started := by
  constructor
  · intro he
    cases e with
    | submitted k req =>
      simp only [Effect.mark?] at he
      split at he
      · rename_i hk
        rw [hk, Mark.submitted.inj (Option.some.inj he)]
      · exact absurd he (by simp)
    | submitFailed | callback | cancelled => simp [Effect.mark?] at he
    | _ => exact absurd he (by simp [Effect.mark?])
  · rintro rfl
    exact if_pos rfl

theorem mark_fired_iff {h : Handle} {e : Effect} :
    e.mark? h = some .fired ↔ ∃ status result, e = .callback (some h) status result := by
  constructor
  · intro he
    cases e with
    | callback k status result =>
      simp only [Effect.mark?] at he
      split at he
      · rename_i hk
        exact ⟨status, result, by rw [hk]⟩
      · exact absurd he (by simp)
    | submitted | submitFailed | cancelled => simp [Effect.mark?] at he
    | _ => exact absurd he (by simp [Effect.mark?])
  · rintro ⟨status, result, rfl⟩
    exact if_pos rfl

theorem mark_cancelled_iff {h : Handle} {e : Effect} :
    e.mark? h = some .cancelled ↔ e = .cancelled h := by
  constructor
  · intro he
    cases e with
    | cancelled k =>
      simp only [Effect.mark?] at he
      split at he
      · rename_i hk
        rw [hk]
      · exact absurd he (by simp)
    | submitted | submitFailed | callback => simp [Effect.mark?] at he
    | _ => exact absurd he (by simp [Effect.mark?])
  · rintro rfl
    exact if_pos rfl

theorem mark_mem {h : Handle} {trace : List Effect} {mark : Mark} :
    mark ∈ marks h trace ↔ ∃ e ∈ trace, e.mark? h = some mark := List.mem_filterMap

theorem submitted_mem {h : Handle} {trace : List Effect} {started : RClientReq} :
    Effect.submitted h started ∈ trace ↔ Mark.submitted started ∈ marks h trace := by
  rw [mark_mem]
  constructor
  · intro hmem
    exact ⟨_, hmem, mark_submitted_iff.mpr rfl⟩
  · rintro ⟨e, hmem, he⟩
    rw [← mark_submitted_iff.mp he]
    exact hmem

def Effect.launches (h : Handle) : Effect → Bool
  | .submitted k _ => k == h
  | _ => false

theorem exists_submitted {h : Handle} {trace : List Effect}
    (hany : trace.any (Effect.launches h) = true) :
    ∃ started, Effect.submitted h started ∈ trace := by
  obtain ⟨e, he, hlaunches⟩ := List.any_eq_true.mp hany
  cases e with
  | submitted k started =>
    obtain rfl : k = h := beq_iff_eq.mp hlaunches
    exact ⟨started, he⟩
  | _ => exact absurd hlaunches Bool.false_ne_true

/-- The submission behind a handle, at any later time; there is only one. -/
theorem submitted_launch {gcm : Gcm} {args : CreateArgs} {c : RClient}
    (hcreate : rClientCreate args = .ok c) {calls : List Call} {m : Machine}
    {trace : List Effect} (hrun : run gcm c calls = some (m, trace)) {h : Handle}
    {started : RClientReq} (hsubmitted : Effect.submitted h started ∈ trace) :
    Nonempty (Launch gcm c h calls started) ∧
      ∀ started', Effect.submitted h started' ∈ trace → started' = started := by
  have hplaced := run_placed hcreate hrun h
  simp only [submitted_mem, ← marks_about h trace] at hsubmitted ⊢
  generalize m.view h = view, about h trace = own at hplaced hsubmitted
  have honly : ∀ {first : RClientReq} {rest : List Mark}, Launch gcm c h calls first →
      marks h own = .submitted first :: rest → (∀ other, Mark.submitted other ∉ rest) →
      Nonempty (Launch gcm c h calls started) ∧
        ∀ started', Mark.submitted started' ∈ marks h own → started' = started := by
    intro first rest launch hmarks hrest
    have hfirst : ∀ other, Mark.submitted other ∈ marks h own → other = first := by
      intro other hmem
      rw [hmarks] at hmem
      rcases List.mem_cons.mp hmem with heq | hmem
      · exact Mark.submitted.inj heq
      · exact absurd hmem (hrest other)
    obtain rfl := hfirst started hsubmitted
    exact ⟨⟨launch⟩, hfirst⟩
  cases hplaced with
  | unborn => exact absurd hsubmitted List.not_mem_nil
  | live req first _ launch _ hmarks => exact honly launch hmarks (by simp)
  | calling req first _ launch _ hmarks => exact honly launch hmarks (by simp)
  | completed first _ launch hmarks => exact honly launch hmarks (by simp)
  | cancelled first _ launch hmarks => exact honly launch hmarks (by simp)
  | never _ hmarks =>
    rcases hmarks with hmarks | hmarks
    · rw [hmarks] at hsubmitted
      exact absurd hsubmitted List.not_mem_nil
    · rw [hmarks] at hsubmitted
      exact absurd hsubmitted (by simp)

theorem submitted_same {gcm : Gcm} {args : CreateArgs} {c : RClient}
    (hcreate : rClientCreate args = .ok c) {calls : List Call} {m : Machine}
    {trace : List Effect} (hrun : run gcm c calls = some (m, trace)) {h : Handle}
    {started req : RClientReq} (hsubmitted : Effect.submitted h started ∈ trace)
    (hview : m.view h = .live req) : SameRequest started req := by
  obtain ⟨started', -, hsame, hmarks⟩ := run_live hcreate hrun hview
  rw [submitted_mem, hmarks] at hsubmitted
  obtain rfl := Mark.submitted.inj (List.mem_singleton.mp hsubmitted)
  exact hsame

/-! ### Completions -/

theorem split_last {α : Type} {front l r : List α} {x y : α} (h : front ++ [x] = l ++ y :: r)
    (hfront : y ∉ front) : l = front ∧ r = [] ∧ y = x := by
  rcases List.eq_nil_or_concat r with rfl | ⟨r', z, rfl⟩
  · obtain ⟨hl, hy⟩ := List.append_inj h.symm (by simpa using congrArg List.length h.symm)
    exact ⟨hl, rfl, List.singleton_inj.mp hy⟩
  · -- then `y` would stand before the last element
    have hassoc : front ++ [x] = (l ++ y :: r') ++ [z] := by simpa using h
    have hfirst := (List.append_inj_left' hassoc rfl)
    exact absurd (hfirst ▸ List.mem_append_right l List.mem_cons_self) hfront

/-- How a transition that ends in the callback completes the request: with the
    candidate, or with an error and without one. -/
theorem ReqStep.completion {c : RClient} {h : Handle} {req req' : RClientReq} {call : Call}
    {effects : List Effect} (hstep : ReqStep c h req call effects (.calling req')) :
    ∃ front status result, effects = front ++ [.callback (some h) status result] ∧
      (∀ e ∈ front, e.mark? h = none) ∧
      ((status = .ok ∧ ∃ best, result = some best ∧ req'.best = some best) ∨
        (status ≠ .ok ∧ result = none ∧ req'.best = none)) := by
  have hsend : ∀ e : Effect, e.isSend = true → e.mark? h = none := by
    intro e he
    cases e with
    | udpSend => rfl
    | _ => exact absurd he Bool.false_ne_true
  -- every front is one trigger followed by sends
  have hfront : ∀ (trigger : Effect) (sends : List Effect), trigger.mark? h = none →
      (∀ e ∈ sends, e.isSend = true) → ∀ e ∈ [trigger] ++ sends, e.mark? h = none := by
    intro trigger sends htrigger hsends e he
    rcases List.mem_append.mp he with he | he
    · rw [List.mem_singleton.mp he]
      exact htrigger
    · exact hsend e (hsends e he)
  have hone : ∀ nowMs deadlineMs, ∀ e ∈ [Effect.timer h nowMs deadlineMs], e.mark? h = none := by
    intro nowMs deadlineMs e he
    rw [List.mem_singleton.mp he]
    rfl
  cases hstep with
  | selected buf sender io response best hallowed hgate hselect =>
    refine ⟨_, _, _, rfl, hfront _ _ rfl rCompletionDelivery_isSend, .inl ⟨rfl, best, rfl, ?_⟩⟩
    unfold selectBest at hselect
    split at hselect
    · exact absurd hselect (by simp)
    · rename_i kept hkept
      split at hselect
      · rw [hkept]
        exact hselect
      · exact absurd hselect (by simp)
  | elected nowMs io best hdue hbest hafter =>
    exact ⟨_, _, _, rfl, hfront _ _ rfl rCompletionDelivery_isSend, .inl ⟨rfl, best, rfl, hbest⟩⟩
  | replayFailed nowMs io gapUnits status sends hdue hnone _ _ _ _ _ hstatus hsends =>
    refine ⟨_, _, _, rfl, hfront _ _ rfl ?_, .inr ⟨?_, rfl, hnone⟩⟩
    · exact maybeSends_isSend hsends
    · rcases hstatus with rfl | rfl
      · decide
      · decide
  | replayRefused nowMs io status hdue hnone _ _ _ hwhy =>
    refine ⟨_, _, _, rfl, hone _ _, .inr ⟨?_, rfl, hnone⟩⟩
    rcases hwhy with ⟨rfl, -⟩ | ⟨rfl, -⟩
    · decide
    · decide
  | ended nowMs io hdue hnone =>
    exact ⟨_, _, _, rfl, hone _ _, .inr ⟨by decide, rfl, hnone⟩⟩
  | expired nowMs io hdue hnone =>
    exact ⟨_, _, _, rfl, hone _ _, .inr ⟨by decide, rfl, hnone⟩⟩

theorem Life.fires {gcm : Gcm} {c : RClient} {h : Handle} {call : Call} {view view' : View}
    {effects : List Effect} (hlife : Life gcm c h call view effects view')
    (hfired : Mark.fired ∈ marks h effects) :
    ∃ req req', view = .live req ∧ view' = .calling req' ∧
      ReqStep c h req call effects (.calling req') := by
  have hsends : ∀ (sends : List Effect) {mark : Mark} {last : Effect},
      marks h sends = [] → last.mark? h = some mark → mark ≠ .fired →
      Mark.fired ∉ marks h (sends ++ [last]) := by
    intro sends mark last hquiet hlast hne hmem
    rw [marks_append, hquiet, List.nil_append, marks, List.filterMap_cons_some hlast] at hmem
    exact hne (List.mem_singleton.mp hmem).symm
  cases hlife with
  | idle => exact absurd hfired List.not_mem_nil
  | launched =>
    exact absurd hfired (hsends _ (marks_sends sendEffects_isSend) (if_pos rfl) (by simp))
  | sendFailed args io req gapUnits status sends built hstatus hfirst =>
    have hquiet := marks_sends (h := h) (maybeSends_isSend hfirst)
    exact absurd hfired (hsends sends hquiet (if_pos rfl) (by simp))
  | rejected =>
    exact absurd hfired (hsends [] rfl (if_pos rfl) (by simp))
  | emptied => exact absurd hfired List.not_mem_nil
  | treated req call effects view hstep =>
    rcases hstep.marks with ⟨req', rfl, hquiet⟩ | ⟨req', rfl, -⟩
    · rw [hquiet] at hfired
      exact absurd hfired List.not_mem_nil
    · exact ⟨req, req', rfl, rfl, hstep⟩
  | cancelled =>
    exact absurd hfired (hsends [] rfl (if_pos rfl) (by simp))
  | returned => exact absurd hfired List.not_mem_nil

theorem Life.submits {gcm : Gcm} {c : RClient} {h : Handle} {call : Call} {view view' : View}
    {effects : List Effect} (hlife : Life gcm c h call view effects view') {started : RClientReq}
    (hmem : Effect.submitted h started ∈ effects) : ∃ args io, call = .submit args io := by
  cases hlife with
  | idle => exact absurd hmem List.not_mem_nil
  | launched args io => exact ⟨args, io, rfl⟩
  | sendFailed args io => exact ⟨args, io, rfl⟩
  | rejected args io => exact ⟨args, io, rfl⟩
  | emptied args io => exact ⟨args, io, rfl⟩
  | treated req call effects view hstep =>
    rw [submitted_mem] at hmem
    rcases hstep.marks with ⟨-, -, hmarks⟩ | ⟨-, -, hmarks⟩
    · exact absurd hmem (by simp [hmarks])
    · exact absurd hmem (by simp [hmarks])
  | cancelled => exact absurd hmem (by simp)
  | returned => exact absurd hmem List.not_mem_nil

theorem Life.treats {gcm : Gcm} {c : RClient} {h : Handle} {call : Call} {view view' : View}
    {effects : List Effect} (hlife : Life gcm c h call view effects view') {e : Effect}
    (he : e ∈ effects) (htrigger : e.isTrigger h = true) :
    ∃ req, view = .live req ∧ ReqStep c h req call effects view' := by
  have hsend : ∀ sends : List Effect, (∀ e ∈ sends, e.isSend = true) → e ∉ sends := by
    intro sends hsends hmem
    have hsend := hsends e hmem
    cases e with
    | udpSend => exact absurd htrigger Bool.false_ne_true
    | _ => exact absurd hsend Bool.false_ne_true
  have hlast : ∀ last : Effect, last.isTrigger h = false → e ∉ [last] := by
    intro last hquiet hmem
    rw [← List.mem_singleton.mp hmem, htrigger] at hquiet
    exact absurd hquiet (by decide)
  cases hlife with
  | idle => exact absurd he List.not_mem_nil
  | launched args io req gapUnits =>
    rcases List.mem_append.mp he with he | he
    · exact absurd he (hsend _ sendEffects_isSend)
    · exact absurd he (hlast _ rfl)
  | sendFailed args io req gapUnits status sends built hstatus hsends =>
    rcases List.mem_append.mp he with he | he
    · exact absurd he (hsend _ (maybeSends_isSend hsends))
    · exact absurd he (hlast _ rfl)
  | rejected => exact absurd he (hlast _ rfl)
  | emptied => exact absurd he List.not_mem_nil
  | treated req call effects view hstep => exact ⟨req, rfl, hstep⟩
  | cancelled => exact absurd he (hlast _ rfl)
  | returned => exact absurd he List.not_mem_nil

theorem timeout_live {gcm : Gcm} {c : RClient} {m m' : Machine} {h : Handle} {req : RClientReq}
    {nowMs : UInt64} {io : TimeoutIo} {effects : List Effect} (hwf : m.Wf c)
    (hlive : m.view h = .live req)
    (hstep : step gcm m (.timeout h nowMs io) = some (m', effects)) :
    ReqStep c h req (.timeout h nowMs io) (about h effects) (m'.view h) := by
  have hlife := (step_wf_life hwf hstep).2 h
  have hnonempty : ∃ e ∈ about h effects, e.isTrigger h = true := by
    cases stepped_of_step hstep with
    | timeout h nowMs io req' hframes hfind =>
      obtain rfl : req'.handle = h := Keyed.key_of_find hfind
      obtain ⟨view, -, hreq⟩ := rClientOnTimeout_treated hwf.static hfind nowMs io
      obtain ⟨trigger, sends, htrigger, -, ⟨_, -, heffects⟩ | ⟨_, _, _, -, heffects⟩⟩ := hreq.shape
      · exact ⟨trigger, by rw [heffects]; exact List.mem_cons_self, htrigger⟩
      · exact ⟨trigger, by rw [heffects]; exact List.mem_cons_self, htrigger⟩
  obtain ⟨e, he, htrigger⟩ := hnonempty
  obtain ⟨req', hview, hreq⟩ := hlife.treats he htrigger
  obtain rfl := View.live.inj (hlive.symm.trans hview)
  exact hreq

/-- A callback in a trace, with the step that made it: the request was in flight,
    it is left in the frame of its callback, and nothing more happens for it in
    that step. -/
theorem callback_located {gcm : Gcm} {args : CreateArgs} {c : RClient}
    (hcreate : rClientCreate args = .ok c) {h : Handle} {calls : List Call} {m : Machine}
    {pre post : List Effect} {status : RClientError} {result : Option RRateLimitResult}
    (hrun : run gcm c calls = some (m, pre ++ .callback (some h) status result :: post)) :
    ∃ calls₁ call calls₂ m₁ trace₁ m₂ left right req req',
      calls = calls₁ ++ call :: calls₂ ∧ run gcm c calls₁ = some (m₁, trace₁) ∧
      step gcm m₁ call = some (m₂, left ++ .callback (some h) status result :: right) ∧
      pre = trace₁ ++ left ∧ about h right = [] ∧
      m₁.view h = .live req ∧ m₂.view h = .calling req' ∧
      ReqStep c h req call (about h left ++ [.callback (some h) status result])
        (.calling req') ∧
      ((status = .ok ∧ ∃ best, result = some best ∧ req'.best = some best) ∨
        (status ≠ .ok ∧ result = none ∧ req'.best = none)) := by
  obtain ⟨calls₁, call, calls₂, m₁, trace₁, m₂, left, right, hcalls, hrun₁, hstep, hpre, hlife⟩ :=
    life_locate hcreate (h := h) rfl hrun
  have hmark : (Effect.callback (some h) status result).mark? h = some .fired := if_pos rfl
  obtain ⟨req, req', hlive, hcalling, hreq⟩ := hlife.fires
    (mark_mem.mpr ⟨_, List.mem_append_right _ List.mem_cons_self, hmark⟩)
  obtain ⟨front, status', result', hfront, hnone, hresult⟩ := hreq.completion
  obtain ⟨hleft, hright, hsame⟩ := split_last hfront.symm fun hmem =>
    absurd (hnone _ hmem) (by rw [hmark]; simp)
  obtain ⟨-, rfl, rfl⟩ := Effect.callback.inj hsame
  refine ⟨calls₁, call, calls₂, m₁, trace₁, m₂, left, right, req, req', hcalls, hrun₁, hstep,
    hpre, hright, hlive, hcalling, ?_, hresult⟩
  rw [hright] at hreq
  exact hreq

end RlClient
