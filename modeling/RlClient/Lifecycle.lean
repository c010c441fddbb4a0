import RlClient.Submission

/-!
# The life of one request

The machine holds many requests; every property of a request is proved about one
handle. `Machine.view` is what the machine holds for a handle, `about` the part
of a trace that concerns it, and `Life` lists everything one step can do to it,
with the guards of the source. `step_life` says that every step of a reachable
machine is, for every handle, one of these; `life_induction` turns it into the
induction rule behind the run theorems.
-/

namespace RlClient

/-! ### The part of a trace that concerns a request -/

def Effect.handle? : Effect → Option Handle
  | .submitted h _ => some h
  | .submitFailed h _ => some h
  | .udpSend h _ _ _ _ _ _ => h
  | .profile _ => none
  | .accepted h _ => some h
  | .timer h _ _ => some h
  | .callback h _ _ => h
  | .cancelled h => some h
  | .drained => none
  | .steering _ => none

def Effect.isSend : Effect → Bool
  | .udpSend _ _ _ _ _ _ _ => true
  | _ => false

def about (h : Handle) (trace : List Effect) : List Effect :=
  trace.filter fun e => e.handle? == some h

@[simp] theorem about_nil (h : Handle) : about h [] = [] := rfl

@[simp] theorem about_append (h : Handle) (l r : List Effect) :
    about h (l ++ r) = about h l ++ about h r := List.filter_append l r

theorem about_cons_self {h : Handle} {e : Effect} (he : e.handle? = some h) (l : List Effect) :
    about h (e :: l) = e :: about h l := List.filter_cons_of_pos (by simp [he])

theorem about_cons_other {h : Handle} {e : Effect} (he : e.handle? ≠ some h) (l : List Effect) :
    about h (e :: l) = about h l := List.filter_cons_of_neg (by simpa using he)

theorem about_eq_nil {h : Handle} {l : List Effect} (hl : ∀ e ∈ l, e.handle? ≠ some h) :
    about h l = [] :=
  List.filter_eq_nil_iff.mpr fun e he => by simpa using hl e he

theorem about_eq_self {h : Handle} {l : List Effect} (hl : ∀ e ∈ l, e.handle? = some h) :
    about h l = l :=
  List.filter_eq_self.mpr fun e he => by simpa using hl e he

theorem sendEffects_handle {req : RClientReq} {missingOnly : Bool} {pass : SendPass}
    {startedMs : UInt64} {udpSend : Nat → Bool} {e : Effect}
    (he : e ∈ sendEffects req missingOnly pass startedMs udpSend) :
    e.handle? = some req.handle := by
  obtain ⟨target, -, rfl⟩ := List.mem_map.mp he
  rfl

theorem rCompletionDelivery_handle {c : RClient} {req : RClientReq} {io : CompleteIo} {e : Effect}
    (he : e ∈ rCompletionDelivery c req io) : e.handle? = some req.handle := by
  unfold rCompletionDelivery at he
  split at he
  · exact absurd he List.not_mem_nil
  · rcases rSendRateRequest_effects c req true true .delivery io.deliveryMs io.udpSend with
      ⟨hnone, -⟩ | ⟨hsends, -⟩
    · rw [hnone] at he
      exact absurd he List.not_mem_nil
    · rw [hsends] at he
      exact sendEffects_handle he

theorem sendEffects_isSend {req : RClientReq} {missingOnly : Bool} {pass : SendPass}
    {startedMs : UInt64} {udpSend : Nat → Bool} :
    ∀ e ∈ sendEffects req missingOnly pass startedMs udpSend, e.isSend = true := by
  intro e he
  obtain ⟨target, -, rfl⟩ := List.mem_map.mp he
  rfl

theorem maybeSends_isSend {sends : List Effect} {req : RClientReq} {missingOnly : Bool}
    {pass : SendPass} {startedMs : UInt64} {udpSend : Nat → Bool}
    (h : sends = [] ∨ sends = sendEffects req missingOnly pass startedMs udpSend) :
    ∀ e ∈ sends, e.isSend = true := by
  rcases h with rfl | rfl
  · exact fun e he => absurd he List.not_mem_nil
  · exact sendEffects_isSend

theorem rCompletionDelivery_isSend {c : RClient} {req : RClientReq} {io : CompleteIo} :
    ∀ e ∈ rCompletionDelivery c req io, e.isSend = true := by
  intro e he
  unfold rCompletionDelivery at he
  split at he
  · exact absurd he List.not_mem_nil
  · rcases rSendRateRequest_effects c req true true .delivery io.deliveryMs io.udpSend with
      ⟨hnone, -⟩ | ⟨hsends, -⟩
    · rw [hnone] at he
      exact absurd he List.not_mem_nil
    · rw [hsends] at he
      exact sendEffects_isSend e he

/-! ### What the machine holds for a handle -/

/-- Where a request is: not submitted yet, in flight, in its callback, or gone. -/
inductive View where
  | unborn
  | live (req : RClientReq)
  | calling (req : RClientReq)
  | gone

def Frame.request? : Frame → Option RClientReq
  | .completing req => some req
  | .emptyRequest => none

def Machine.running (m : Machine) : List RClientReq := m.frames.filterMap Frame.request?

def Machine.view (m : Machine) (h : Handle) : View :=
  match m.client.inflight.find? (·.handle == h) with
  | some req => .live req
  | none =>
      match m.running.find? (·.handle == h) with
      | some req => .calling req
      | none => if h < m.nextHandle then .gone else .unborn

def Machine.handles (m : Machine) : List Handle :=
  m.client.inflight.map (·.handle) ++ m.running.map (·.handle)

/-- A reachable machine of client `c`: no handle is used twice, all of them come
    from the allocator, and the configuration is that of `c`. -/
structure Machine.Wf (c : RClient) (m : Machine) : Prop where
  nodup : m.handles.Nodup
  bounded : ∀ h ∈ m.handles, h < m.nextHandle
  static : m.client.static = c.static
  identified : m.client.membership.Identified

theorem view_live_iff {m : Machine} {h : Handle} {req : RClientReq} :
    m.view h = .live req ↔ m.client.inflight.find? (·.handle == h) = some req := by
  unfold Machine.view
  split
  · rename_i req' hfind
    rw [hfind]
    simp
  · rename_i hfind
    rw [hfind]
    split
    · simp
    · split <;> simp

theorem view_live_handle {m : Machine} {h : Handle} {req : RClientReq}
    (hview : m.view h = .live req) : req.handle = h :=
  Keyed.key_of_find (view_live_iff.mp hview)

theorem view_calling_iff {m : Machine} {h : Handle} {req : RClientReq} :
    m.view h = .calling req ↔ m.client.inflight.find? (·.handle == h) = none ∧
      m.running.find? (·.handle == h) = some req := by
  unfold Machine.view
  split
  · rename_i req' hfind
    rw [hfind]
    simp
  · rename_i hfind
    rw [hfind]
    split
    · rename_i req' hrun
      rw [hrun]
      simp
    · rename_i hrun
      rw [hrun]
      split <;> simp

theorem view_calling_handle {m : Machine} {h : Handle} {req : RClientReq}
    (hview : m.view h = .calling req) : req.handle = h :=
  Keyed.key_of_find (view_calling_iff.mp hview).2

theorem view_congr {m m' : Machine} {h : Handle}
    (hinflight : m'.client.inflight.find? (·.handle == h) =
      m.client.inflight.find? (·.handle == h))
    (hrunning : m'.running.find? (·.handle == h) = m.running.find? (·.handle == h))
    (hnext : h < m'.nextHandle ↔ h < m.nextHandle) : m'.view h = m.view h := by
  unfold Machine.view
  simp only [hinflight, hrunning, hnext]

/-! ### What a datagram or a timer can do to a live request -/

/-- One transition of a live request `req` with handle `h`: the call, the effects
    it has for this request, and where the request is afterwards. -/
inductive ReqStep (c : RClient) (h : Handle) (req : RClientReq) :
    Call → List Effect → View → Prop
  -- A response is accepted and the request keeps waiting.
  | retained (buf : Bytes) (sender : RAddr) (io : DatagramIo) (response : RResponse)
      (hallowed : rAllowedServerId req response.serverId = true)
      (hgate : io.gateMs ≤ req.dedupDeadlineMs)
      (hopen : selectBest (recordResponse req response sender io.allocSeen) io.nowMs = none) :
      ReqStep c h req (.datagram buf sender io) [.accepted h response]
        (.live (holdCandidate (recordResponse req response sender io.allocSeen)))
  -- A response is accepted and the request completes.
  | selected (buf : Bytes) (sender : RAddr) (io : DatagramIo) (response : RResponse)
      (best : RRateLimitResult)
      (hallowed : rAllowedServerId req response.serverId = true)
      (hgate : io.gateMs ≤ req.dedupDeadlineMs)
      (hselect :
        selectBest (recordResponse req response sender io.allocSeen) io.nowMs = some best) :
      ReqStep c h req (.datagram buf sender io)
        ([.accepted h response] ++
          rCompletionDelivery c (recordResponse req response sender io.allocSeen) io.complete ++
          [.callback (some h) .ok (some best)])
        (.calling (recordResponse req response sender io.allocSeen))
  -- The timer fires before the deadline.
  | early (nowMs : UInt64) (io : TimeoutIo) (hearly : nowMs < req.attemptDeadlineMs) :
      ReqStep c h req (.timeout h nowMs io) [.timer h nowMs req.attemptDeadlineMs] (.live req)
  -- A candidate is held until its preference deadline.
  | held (nowMs : UInt64) (io : TimeoutIo) (best : RRateLimitResult)
      (hdue : req.attemptDeadlineMs ≤ nowMs) (hbest : req.best = some best)
      (hbefore : nowMs < req.haPreferenceDeadlineMs) :
      ReqStep c h req (.timeout h nowMs io) [.timer h nowMs req.attemptDeadlineMs]
        (.live { req with attemptDeadlineMs := req.haPreferenceDeadlineMs })
  -- The preference deadline has passed and the candidate is delivered.
  | elected (nowMs : UInt64) (io : TimeoutIo) (best : RRateLimitResult)
      (hdue : req.attemptDeadlineMs ≤ nowMs) (hbest : req.best = some best)
      (hafter : req.haPreferenceDeadlineMs ≤ nowMs) :
      ReqStep c h req (.timeout h nowMs io)
        ([.timer h nowMs req.attemptDeadlineMs] ++ rCompletionDelivery c req io.complete ++
          [.callback (some h) .ok (some best)])
        (.calling req)
  -- Nothing came and the round is not over.
  | rearmed (nowMs : UInt64) (io : TimeoutIo) (hdue : req.attemptDeadlineMs ≤ nowMs)
      (hnone : req.best = none) (hbefore : nowMs < req.haRoundDeadlineMs) :
      ReqStep c h req (.timeout h nowMs io) [.timer h nowMs req.attemptDeadlineMs]
        (.live { req with attemptDeadlineMs := req.haRoundDeadlineMs })
  -- The next round is started.
  | replayed (nowMs : UInt64) (io : TimeoutIo) (gapUnits : UInt32)
      (hdue : req.attemptDeadlineMs ≤ nowMs) (hnone : req.best = none)
      (hover : req.haRoundDeadlineMs ≤ nowMs) (hphase : req.phase = .round)
      (hleft : req.haRound < c.policy.replayCount)
      (hgap : rHaScheduleUnits c.policy.replayGap (req.haRound + 1) false = .ok gapUnits)
      (hintime : io.roundMs < req.dedupDeadlineMs) :
      ReqStep c h req (.timeout h nowMs io)
        ([.timer h nowMs req.attemptDeadlineMs] ++
          sendEffects (enterRound c.policy req (req.haRound + 1) gapUnits) true
            (.round (req.haRound + 1)) io.roundMs io.udpSend)
        (.live (enterRound c.policy req (req.haRound + 1) gapUnits))
  -- The next round is started but no packet leaves.
  | replayFailed (nowMs : UInt64) (io : TimeoutIo) (gapUnits : UInt32) (status : RClientError)
      (sends : List Effect)
      (hdue : req.attemptDeadlineMs ≤ nowMs) (hnone : req.best = none)
      (hover : req.haRoundDeadlineMs ≤ nowMs) (hphase : req.phase = .round)
      (hleft : req.haRound < c.policy.replayCount)
      (hgap : rHaScheduleUnits c.policy.replayGap (req.haRound + 1) false = .ok gapUnits)
      (hintime : io.roundMs < req.dedupDeadlineMs)
      (hstatus : status = .errIo ∨ status = .errProtocol)
      (hsends : sends = [] ∨ sends = sendEffects
        (enterRound c.policy req (req.haRound + 1) gapUnits) true
        (.round (req.haRound + 1)) io.roundMs io.udpSend) :
      ReqStep c h req (.timeout h nowMs io)
        ([.timer h nowMs req.attemptDeadlineMs] ++ sends ++
          [.callback (some h) status none])
        (.calling (enterRound c.policy req (req.haRound + 1) gapUnits))
  -- The next round is not started: too late, or no schedule for it.
  | replayRefused (nowMs : UInt64) (io : TimeoutIo) (status : RClientError)
      (hdue : req.attemptDeadlineMs ≤ nowMs) (hnone : req.best = none)
      (hover : req.haRoundDeadlineMs ≤ nowMs) (hphase : req.phase = .round)
      (hleft : req.haRound < c.policy.replayCount)
      (hwhy : (status = .errTimeout ∧ req.dedupDeadlineMs ≤ io.roundMs) ∨
        (status = .errConfig ∧
          rHaScheduleUnits c.policy.replayGap (req.haRound + 1) false = .error status)) :
      ReqStep c h req (.timeout h nowMs io)
        ([.timer h nowMs req.attemptDeadlineMs] ++ [.callback (some h) status none])
        (.calling req)
  -- The last round is over and the final phase begins.
  | finalEntered (nowMs : UInt64) (io : TimeoutIo) (entered : RClientReq)
      (hdue : req.attemptDeadlineMs ≤ nowMs) (hnone : req.best = none)
      (hover : req.haRoundDeadlineMs ≤ nowMs) (hphase : req.phase = .round)
      (hlast : ¬ req.haRound < c.policy.replayCount)
      (hentered : rEnterFinal c.policy req = .ok entered) :
      ReqStep c h req (.timeout h nowMs io) [.timer h nowMs req.attemptDeadlineMs]
        (.live entered)
  -- The last round is over and there is no final phase.
  | ended (nowMs : UInt64) (io : TimeoutIo)
      (hdue : req.attemptDeadlineMs ≤ nowMs) (hnone : req.best = none)
      (hover : req.haRoundDeadlineMs ≤ nowMs) (hphase : req.phase = .round)
      (hlast : ¬ req.haRound < c.policy.replayCount) (hzero : c.policy.finalReceiveUnits = 0) :
      ReqStep c h req (.timeout h nowMs io)
        ([.timer h nowMs req.attemptDeadlineMs] ++ [.callback (some h) .errTimeout none])
        (.calling req)
  -- The final phase is over.
  | expired (nowMs : UInt64) (io : TimeoutIo)
      (hdue : req.attemptDeadlineMs ≤ nowMs) (hnone : req.best = none)
      (hover : req.haRoundDeadlineMs ≤ nowMs) (hphase : req.phase = .final) :
      ReqStep c h req (.timeout h nowMs io)
        ([.timer h nowMs req.attemptDeadlineMs] ++ [.callback (some h) .errTimeout none])
        (.calling req)

/-- What the reply of such a call does to the client: the other requests are
    untouched, and this one is written back or removed and left in its callback. -/
structure Handled (c : RClient) (h : Handle) (reply : Reply) (view : View) : Prop where
  others : ∀ k, k ≠ h →
    reply.client.inflight.find? (·.handle == k) = c.inflight.find? (·.handle == k)
  effects : ∀ e ∈ reply.effects, e.handle? = some h ∨ e.handle? = none
  outcome :
    (∃ req, view = .live req ∧ reply.frame = none ∧
      reply.client.inflight.find? (·.handle == h) = some req ∧
      reply.client.inflight.map (·.handle) = c.inflight.map (·.handle)) ∨
    (∃ req, view = .calling req ∧ req.handle = h ∧ reply.frame = some (.completing req) ∧
      reply.client.inflight.map (·.handle) = (c.inflight.map (·.handle)).erase h)

theorem handled_put {c c' : RClient} {h : Handle} {req : RClientReq} {status : RClientError}
    {effects : List Effect} (hinflight : c'.inflight = c.inflight)
    (hmem : h ∈ c.inflight.map (·.handle)) (hhandle : req.handle = h)
    (heffects : ∀ e ∈ effects, e.handle? = some h) :
    Handled c h (.done status (c'.putRequest req) effects) (.live req) := by
  subst hhandle
  refine ⟨?_, fun e he => .inl (heffects e he), .inl ⟨req, rfl, rfl, ?_, ?_⟩⟩
  · intro k hk
    simp only [Reply.done, RClient.putRequest, hinflight]
    exact Keyed.find_replace_ne hk
  · simp only [Reply.done, RClient.putRequest, hinflight]
    exact Keyed.find_replace_self hmem
  · simp only [Reply.done, RClient.putRequest, hinflight]
    exact Keyed.map_key_replace

/-- The client that completes a request has it in its list, written back or not. -/
structure SameBut (h : Handle) (c c' : RClient) : Prop where
  static : c'.static = c.static
  handles : c'.inflight.map (·.handle) = c.inflight.map (·.handle)
  others : ∀ k, k ≠ h →
    c'.inflight.find? (·.handle == k) = c.inflight.find? (·.handle == k)

theorem SameBut.refl (h : Handle) (c : RClient) : SameBut h c c := ⟨rfl, rfl, fun _ _ => rfl⟩

theorem SameBut.put {c c' : RClient} {req : RClientReq} (hstatic : c'.static = c.static)
    (hinflight : c'.inflight = c.inflight) : SameBut req.handle c (c'.putRequest req) := by
  refine ⟨hstatic, ?_, ?_⟩
  · simp only [RClient.putRequest, hinflight]
    exact Keyed.map_key_replace
  · intro k hk
    simp only [RClient.putRequest, hinflight]
    exact Keyed.find_replace_ne hk

theorem complete_effects (c : RClient) (req : RClientReq) (status : RClientError)
    (selected : Option RRateLimitResult) (io : CompleteIo) (before : List Effect) :
    ∃ observed : List Effect, (∀ e ∈ observed, ∃ p, e = .profile p) ∧
      (Reply.complete c req status selected io before).effects = before ++ (observed ++
        (if status = .ok && selected.isSome then rCompletionDelivery c req io else []) ++
        [.callback (some req.handle) status selected]) := by
  refine ⟨if c.requestProfileCb then
      [Effect.profile (completionProfile req status selected io.profileMs)] else [], ?_, rfl⟩
  intro e he
  split at he
  · exact ⟨_, List.mem_singleton.mp he⟩
  · exact absurd he List.not_mem_nil

theorem handled_complete {c c' : RClient} {req : RClientReq} {status : RClientError}
    {selected : Option RRateLimitResult} {io : CompleteIo} {before : List Effect}
    (hsame : SameBut req.handle c c') (hbefore : ∀ e ∈ before, e.handle? = some req.handle) :
    Handled c req.handle (.complete c' req status selected io before) (.calling req) := by
  refine ⟨?_, ?_, .inr ⟨req, rfl, rfl, rfl, ?_⟩⟩
  · intro k hk
    simp only [Reply.complete, rRequestComplete, rRequestRemove]
    rw [← hsame.others k hk]
    exact Keyed.find_eraseP_ne hk
  · intro e he
    obtain ⟨observed, hobserved, heq⟩ := complete_effects c' req status selected io before
    rw [heq] at he
    rcases List.mem_append.mp he with he | he
    · exact .inl (hbefore e he)
    rcases List.mem_append.mp he with he | he
    · rcases List.mem_append.mp he with he | he
      · obtain ⟨p, rfl⟩ := hobserved e he
        exact .inr rfl
      · split at he
        · exact .inl (rCompletionDelivery_handle he)
        · exact absurd he List.not_mem_nil
    · rw [List.mem_singleton.mp he]
      exact .inl rfl
  · simp only [Reply.complete, rRequestComplete, rRequestRemove]
    rw [← hsame.handles]
    exact Keyed.map_key_eraseP

/-- A best-effort send depends on the configuration of the client only. -/
theorem rCompletionDelivery_of_static {c c' : RClient} (hstatic : c'.static = c.static)
    (req : RClientReq) (io : CompleteIo) :
    rCompletionDelivery c' req io = rCompletionDelivery c req io := by
  unfold rCompletionDelivery rSendRateRequest
  rw [policy_of_static hstatic, udpSend_of_static hstatic]
  split
  · rfl
  split
  · rfl
  split
  · rfl
  simp only [Bool.not_true, Bool.false_and, Bool.false_eq_true, if_false]
  rfl

theorem complete_about {c c' : RClient} (hstatic : c'.static = c.static) (req : RClientReq)
    (status : RClientError) (selected : Option RRateLimitResult) (io : CompleteIo)
    {before : List Effect} (hbefore : ∀ e ∈ before, e.handle? = some req.handle) :
    about req.handle (Reply.complete c' req status selected io before).effects =
      before ++ (if status = .ok && selected.isSome then rCompletionDelivery c req io else []) ++
        [.callback (some req.handle) status selected] := by
  obtain ⟨observed, hobserved, heq⟩ := complete_effects c' req status selected io before
  have hquiet : about req.handle observed = [] := by
    apply about_eq_nil
    intro e he
    obtain ⟨p, rfl⟩ := hobserved e he
    simp [Effect.handle?]
  have hdelivery : about req.handle
      (if status = .ok && selected.isSome then rCompletionDelivery c' req io else []) =
      if status = .ok && selected.isSome then rCompletionDelivery c req io else [] := by
    rw [rCompletionDelivery_of_static hstatic]
    split
    · exact about_eq_self fun e he => rCompletionDelivery_handle he
    · rfl
  rw [heq, about_append, about_append, about_append, about_eq_self hbefore, hquiet, hdelivery,
    about_cons_self rfl, about_nil, List.nil_append, List.append_assoc]

theorem recordResponse_handle (req : RClientReq) (response : RResponse) (sender : RAddr)
    (alloc : SeenAlloc) : (recordResponse req response sender alloc).handle = req.handle := by
  unfold recordResponse rSeenServerAdd rSeenAddrAdd
  simp only
  repeat' split
  all_goals rfl

theorem holdCandidate_handle (req : RClientReq) : (holdCandidate req).handle = req.handle := by
  unfold holdCandidate
  split <;> rfl

/-- A reply of the current client `c'` treats `req` as one of the transitions
    says; `c` is the client as it was created. -/
def Treated (c c' : RClient) (req : RClientReq) (call : Call) (reply : Reply) : Prop :=
  ∃ view, Handled c' req.handle reply view ∧
    ReqStep c req.handle req call (about req.handle reply.effects) view

theorem treated_put {c c' c₁ : RClient} {req req' : RClientReq} {call : Call}
    {status : RClientError} {effects : List Effect} (hinflight : c₁.inflight = c'.inflight)
    (hmem : req.handle ∈ c'.inflight.map (·.handle)) (hhandle : req'.handle = req.handle)
    (heffects : ∀ e ∈ effects, e.handle? = some req.handle)
    (hstep : ReqStep c req.handle req call effects (.live req')) :
    Treated c c' req call (.done status (c₁.putRequest req') effects) := by
  refine ⟨.live req', handled_put hinflight hmem hhandle heffects, ?_⟩
  simp only [Reply.done]
  rw [about_eq_self heffects]
  exact hstep

theorem treated_complete {c c' c₁ : RClient} {req req' : RClientReq} {call : Call}
    {status : RClientError} {selected : Option RRateLimitResult} {io : CompleteIo}
    {before : List Effect} (hstatic : c'.static = c.static) (hsame : SameBut req.handle c' c₁)
    (hhandle : req'.handle = req.handle) (hbefore : ∀ e ∈ before, e.handle? = some req.handle)
    (hstep : ReqStep c req.handle req call
      (before ++ (if status = .ok && selected.isSome then rCompletionDelivery c req' io else []) ++
        [.callback (some req.handle) status selected]) (.calling req')) :
    Treated c c' req call (.complete c₁ req' status selected io before) := by
  refine ⟨.calling req', ?_, ?_⟩
  · rw [← hhandle] at hsame hbefore ⊢
    exact handled_complete hsame hbefore
  · rw [← hhandle] at hbefore
    have habout := complete_about (hsame.static.trans hstatic) req' status selected io hbefore
    rw [hhandle] at habout
    rw [habout]
    exact hstep

theorem acceptResponse_treated {c c' : RClient} (hstatic : c'.static = c.static)
    {req : RClientReq} (hmem : req.handle ∈ c'.inflight.map (·.handle)) {response : RResponse}
    (buf : Bytes) (sender : RAddr) (io : DatagramIo)
    (hallowed : rAllowedServerId req response.serverId = true)
    (hgate : io.gateMs ≤ req.dedupDeadlineMs) :
    Treated c c' req (.datagram buf sender io) (acceptResponse c' req response sender io) := by
  have hhandle := recordResponse_handle req response sender io.allocSeen
  have haccepted : ∀ e ∈ [Effect.accepted req.handle response], e.handle? = some req.handle := by
    intro e he
    rw [List.mem_singleton.mp he]
    rfl
  simp only [acceptResponse]
  cases hselect : selectBest (recordResponse req response sender io.allocSeen) io.nowMs with
  | none =>
    refine treated_put rfl hmem ?_ haccepted ?_
    · rw [holdCandidate_handle, hhandle]
    · exact .retained buf sender io response hallowed hgate hselect
  | some best =>
    refine treated_complete hstatic ?_ hhandle haccepted ?_
    · rw [← hhandle]
      exact .put rfl rfl
    · exact .selected buf sender io response best hallowed hgate hselect

theorem rEnterFinal_handle {policy : RRequestPolicy} {req entered : RClientReq}
    (h : rEnterFinal policy req = .ok entered) : entered.handle = req.handle := by
  unfold rEnterFinal at h
  split at h
  · exact absurd h (by simp)
  · obtain rfl := Except.ok.inj h
    rfl

theorem rEnterFinal_error {policy : RRequestPolicy} {req : RClientReq} {rc : RClientError}
    (h : rEnterFinal policy req = .error rc) :
    rc = .errTimeout ∧ policy.finalReceiveUnits = 0 := by
  unfold rEnterFinal at h
  split at h
  · exact ⟨(Except.error.inj h).symm, ‹_›⟩
  · exact absurd h (by simp)

theorem toNat_succ_of_lt {a n : UInt32} (h : a < n) : (a + 1).toNat = a.toNat + 1 := by
  have hn := n.toNat_lt
  rw [UInt32.lt_iff_toNat_lt] at h
  rw [UInt32.toNat_add, UInt32.toNat_one]
  omega

theorem not_lt_succ_of_lt {a n : UInt32} (h : a < n) : ¬ n < a + 1 := by
  have hsucc := toNat_succ_of_lt h
  rw [UInt32.lt_iff_toNat_lt] at h ⊢
  omega

theorem succ_pos_of_lt {a n : UInt32} (h : a < n) : a + 1 > 0 := by
  have hsucc := toNat_succ_of_lt h
  change 0 < a + 1
  rw [UInt32.lt_iff_toNat_lt, hsucc]
  exact Nat.succ_pos _

theorem replayRound_treated {c c' : RClient} (hstatic : c'.static = c.static)
    {req : RClientReq} (hmem : req.handle ∈ c'.inflight.map (·.handle)) (nowMs : UInt64)
    (io : TimeoutIo) (hdue : req.attemptDeadlineMs ≤ nowMs) (hnone : req.best = none)
    (hover : req.haRoundDeadlineMs ≤ nowMs) (hphase : req.phase = .round)
    (hleft : req.haRound < c.policy.replayCount) :
    Treated c c' req (.timeout req.handle nowMs io)
      (replayRound c' req io [.timer req.handle nowMs req.attemptDeadlineMs]) := by
  have hpolicy := policy_of_static hstatic
  have htimer : ∀ e ∈ [Effect.timer req.handle nowMs req.attemptDeadlineMs],
      e.handle? = some req.handle := by
    intro e he
    rw [List.mem_singleton.mp he]
    rfl
  unfold replayRound
  rcases rStartRound_cases c' req (req.haRound + 1) io.roundMs io.udpSend with
    ⟨heq, hlate⟩ | ⟨rc, heq, hgap⟩ | ⟨gapUnits, hgap, -, hintime, heq⟩
  · rw [heq]
    refine treated_complete hstatic (.put rfl rfl) rfl htimer ?_
    refine .replayRefused nowMs io .errTimeout hdue hnone hover hphase hleft (.inl ⟨rfl, ?_⟩)
    rcases hlate with hlate | hlate
    · rw [hpolicy] at hlate
      exact absurd hlate (not_lt_succ_of_lt hleft)
    · exact hlate
  · obtain rfl := rHaScheduleUnits_error hgap
    rw [hpolicy] at hgap
    rw [heq]
    refine treated_complete hstatic (.put rfl rfl) rfl htimer ?_
    exact .replayRefused nowMs io .errConfig hdue hnone hover hphase hleft (.inr ⟨rfl, hgap⟩)
  · rw [hpolicy] at hgap
    rw [hpolicy, decide_eq_true (succ_pos_of_lt hleft)] at heq
    rw [heq]
    generalize hstarted : enterRound c.policy req (req.haRound + 1) gapUnits = started
    have hhandle : started.handle = req.handle := by rw [← hstarted]; rfl
    obtain ⟨n, hclient⟩ := rSendRateRequest_client c' started true false
      (.round (req.haRound + 1)) io.roundMs io.udpSend
    have heffects := rSendRateRequest_effects c' started true false
      (.round (req.haRound + 1)) io.roundMs io.udpSend
    generalize rSendRateRequest c' started true false (.round (req.haRound + 1)) io.roundMs
      io.udpSend = sent at hclient heffects
    have hput : SameBut req.handle c' (sent.client.putRequest started) := by
      rw [← hhandle]
      exact .put (by rw [hclient]; rfl) (by rw [hclient])
    have hown : ∀ sends, (sends = [] ∨ sends = sendEffects started true
        (.round (req.haRound + 1)) io.roundMs io.udpSend) →
        ∀ e ∈ [Effect.timer req.handle nowMs req.attemptDeadlineMs] ++ sends,
          e.handle? = some req.handle := by
      rintro sends hsends e he
      rcases List.mem_append.mp he with he | he
      · exact htimer e he
      · rcases hsends with rfl | rfl
        · exact absurd he List.not_mem_nil
        · rw [sendEffects_handle he, hhandle]
    by_cases hok : sent.status = .ok
    · rcases heffects with ⟨-, ⟨-, hfail⟩ | ⟨-, hfail⟩⟩ | ⟨hsends, -⟩
      · exact absurd (hok.symm.trans hfail) (by decide)
      · exact absurd (hok.symm.trans hfail) (by decide)
      · simp only
        rw [if_pos hok, hsends]
        refine treated_put (by rw [hclient]) hmem hhandle (hown _ (.inr rfl)) ?_
        rw [← hstarted]
        exact .replayed nowMs io gapUnits hdue hnone hover hphase hleft hgap hintime
    · have hsends : sent.effects = [] ∨ sent.effects = sendEffects started true
          (.round (req.haRound + 1)) io.roundMs io.udpSend := heffects.imp And.left And.left
      have hstatus : sent.status = .errIo ∨ sent.status = .errProtocol := by
        rcases heffects with ⟨-, ⟨-, hfail⟩ | ⟨-, hfail⟩⟩ | ⟨-, -, -, hfail | hfail⟩
        · exact .inr hfail
        · exact .inl hfail
        · exact absurd hfail hok
        · exact .inl hfail
      simp only
      rw [if_neg hok]
      refine treated_complete hstatic hput hhandle (hown _ hsends) ?_
      have hplain : (sent.status = .ok && (none : Option RRateLimitResult).isSome) = false := by
        simp
      rw [hplain]
      simp only [Bool.false_eq_true, if_false, List.append_nil]
      rw [← hstarted] at hsends ⊢
      exact .replayFailed nowMs io gapUnits sent.status sent.effects hdue hnone hover hphase hleft
        hgap hintime hstatus hsends

theorem rClientOnTimeout_treated {c c' : RClient} (hstatic : c'.static = c.static)
    {req : RClientReq} (hfind : c'.inflight.find? (·.handle == req.handle) = some req)
    (nowMs : UInt64) (io : TimeoutIo) :
    Treated c c' req (.timeout req.handle nowMs io) (rClientOnTimeout c' req nowMs io) := by
  have hpolicy := policy_of_static hstatic
  have hmem : req.handle ∈ c'.inflight.map (·.handle) :=
    List.mem_map_of_mem (List.mem_of_find?_eq_some hfind)
  have htimer : ∀ e ∈ [Effect.timer req.handle nowMs req.attemptDeadlineMs],
      e.handle? = some req.handle := by
    intro e he
    rw [List.mem_singleton.mp he]
    rfl
  unfold rClientOnTimeout
  by_cases hearly : nowMs < req.attemptDeadlineMs
  · simp only [if_pos hearly]
    refine ⟨.live req, ⟨fun _ _ => rfl, fun e he => .inl (htimer e he),
      .inl ⟨req, rfl, rfl, hfind, rfl⟩⟩, ?_⟩
    rw [Reply.done, about_eq_self htimer]
    exact .early nowMs io hearly
  have hdue := UInt64.not_lt.mp hearly
  simp only [if_neg hearly]
  unfold rRequestPolicyOnTimeout
  split
  · rename_i best hbest
    split
    · rename_i hafter
      exact treated_complete hstatic (.refl _ _) rfl htimer
        (.elected nowMs io best hdue hbest hafter)
    · rename_i hbefore
      exact treated_put rfl hmem rfl htimer
        (.held nowMs io best hdue hbest (UInt64.not_le.mp hbefore))
  · rename_i hbest
    split
    · rename_i hbefore
      exact treated_put rfl hmem rfl htimer (.rearmed nowMs io hdue hbest hbefore)
    rename_i hover
    have hover := UInt64.not_lt.mp hover
    cases hphase : req.phase with
    | round =>
      simp only
      rw [hpolicy]
      split
      · rename_i hleft
        exact replayRound_treated hstatic hmem nowMs io hdue hbest hover hphase hleft
      · rename_i hlast
        cases hentered : rEnterFinal c.policy req with
        | error rc =>
          obtain ⟨rfl, hzero⟩ := rEnterFinal_error hentered
          exact treated_complete hstatic (.refl _ _) rfl htimer
            (.ended nowMs io hdue hbest hover hphase hlast hzero)
        | ok entered =>
          exact treated_put rfl hmem (rEnterFinal_handle hentered) htimer
            (.finalEntered nowMs io entered hdue hbest hover hphase hlast hentered)
    | final =>
      exact treated_complete hstatic (.refl _ _) rfl htimer
        (.expired nowMs io hdue hbest hover hphase)

end RlClient
