import RlClient.Selection

/-!
# What is sent for a request

The packets of a request leave in three places: round zero, the replay rounds and
the completion delivery. `SentBy` says which of them one transition makes and
under which guards; the readings `attempts` and `attemptCount` of a trace follow
the endpoints of the snapshot by their index.
-/

namespace RlClient

/-! ### Readings -/

def Effect.attempt? (h : Handle) (pass : SendPass) : Effect → Option Nat
  | .udpSend k pass' _ i _ _ _ => if k = some h ∧ pass' = pass then some i else none
  | _ => none

/-- The endpoints that the sends of one pass of request `h` go to, in order. -/
def attempts (h : Handle) (pass : SendPass) (trace : List Effect) : List Nat :=
  trace.filterMap (Effect.attempt? h pass)

def Effect.attemptsAt (h : Handle) (i : Nat) : Effect → Bool
  | .udpSend k _ _ j _ _ _ => k == some h && j == i
  | _ => false

def attemptCount (h : Handle) (i : Nat) (trace : List Effect) : Nat :=
  trace.countP (Effect.attemptsAt h i)

/-- `P` holds of every send for request `h`: of its pass, the clock reading before
    it, the index and the address of its endpoint, and its packet. -/
def EverySend (h : Handle) (P : SendPass → UInt64 → Nat → RAddr → Bytes → Prop)
    (trace : List Effect) : Prop :=
  ∀ pass startedMs i addr packet ok,
    Effect.udpSend (some h) pass startedMs i addr packet ok ∈ trace →
      P pass startedMs i addr packet

/-- The packet and the endpoint are those of `req`. -/
def RClientReq.Owns (req : RClientReq) (i : Nat) (addr : RAddr) (packet : Bytes) : Prop :=
  packet = req.packet ∧ ∃ target, req.targets[i]? = some target ∧ addr = target.addr

@[simp] theorem attempts_append (h : Handle) (pass : SendPass) (l r : List Effect) :
    attempts h pass (l ++ r) = attempts h pass l ++ attempts h pass r := List.filterMap_append

@[simp] theorem attemptCount_append (h : Handle) (i : Nat) (l r : List Effect) :
    attemptCount h i (l ++ r) = attemptCount h i l + attemptCount h i r := List.countP_append

theorem EverySend.append {h : Handle} {P : SendPass → UInt64 → Nat → RAddr → Bytes → Prop}
    {l r : List Effect} (hl : EverySend h P l) (hr : EverySend h P r) :
    EverySend h P (l ++ r) := by
  intro pass startedMs i addr packet ok hmem
  rcases List.mem_append.mp hmem with hmem | hmem
  · exact hl pass startedMs i addr packet ok hmem
  · exact hr pass startedMs i addr packet ok hmem

theorem EverySend.imp {h : Handle} {P Q : SendPass → UInt64 → Nat → RAddr → Bytes → Prop}
    {trace : List Effect} (hsends : EverySend h P trace)
    (himp : ∀ pass startedMs i addr packet, P pass startedMs i addr packet →
      Q pass startedMs i addr packet) : EverySend h Q trace := by
  intro pass startedMs i addr packet ok hmem
  exact himp pass startedMs i addr packet (hsends pass startedMs i addr packet ok hmem)

theorem RClientReq.Owns.of_same {req req' : RClientReq} (hsame : SameRequest req req') {i : Nat}
    {addr : RAddr} {packet : Bytes} (howns : req'.Owns i addr packet) :
    req.Owns i addr packet := by
  unfold RClientReq.Owns at howns ⊢
  rw [hsame.packet, hsame.targets] at howns
  exact howns

def sendsIn (effects : List Effect) : List Effect := effects.filter Effect.isSend

theorem attempts_sendsIn (h : Handle) (pass : SendPass) (effects : List Effect) :
    attempts h pass (sendsIn effects) = attempts h pass effects := by
  unfold attempts sendsIn
  rw [List.filterMap_filter]
  apply List.filterMap_congr
  intro e _
  cases e with
  | udpSend => rfl
  | _ => rfl

theorem attemptCount_sendsIn (h : Handle) (i : Nat) (effects : List Effect) :
    attemptCount h i (sendsIn effects) = attemptCount h i effects := by
  unfold attemptCount sendsIn
  rw [List.countP_filter]
  apply List.countP_congr
  intro e _
  cases e with
  | udpSend => simp [Effect.isSend]
  | _ => simp [Effect.attemptsAt]

theorem everySend_sendsIn {h : Handle} {P : SendPass → UInt64 → Nat → RAddr → Bytes → Prop}
    {effects : List Effect} (hsends : EverySend h P (sendsIn effects)) :
    EverySend h P effects := by
  intro pass startedMs i addr packet ok hmem
  exact hsends pass startedMs i addr packet ok (List.mem_filter.mpr ⟨hmem, rfl⟩)

theorem sendsIn_append (l r : List Effect) : sendsIn (l ++ r) = sendsIn l ++ sendsIn r :=
  List.filter_append l r

theorem sendsIn_eq_self {sends : List Effect} (hsends : ∀ e ∈ sends, e.isSend = true) :
    sendsIn sends = sends := List.filter_eq_self.mpr hsends

theorem sendsIn_behind {first : Effect} {sends : List Effect} (hfirst : first.isSend = false)
    (hsends : ∀ e ∈ sends, e.isSend = true) : sendsIn ([first] ++ sends) = sends := by
  rw [sendsIn_append, sendsIn_eq_self hsends, sendsIn, List.filter_cons_of_neg (by simp [hfirst])]
  rfl

theorem sendsIn_between {first last : Effect} {sends : List Effect}
    (hfirst : first.isSend = false) (hlast : last.isSend = false)
    (hsends : ∀ e ∈ sends, e.isSend = true) : sendsIn ([first] ++ sends ++ [last]) = sends := by
  rw [sendsIn_append, sendsIn_behind hfirst hsends, sendsIn,
    List.filter_cons_of_neg (by simp [hlast])]
  exact List.append_nil sends

/-! ### One pass -/

theorem everySend_sendEffects (req : RClientReq) (missingOnly : Bool) (pass : SendPass)
    (startedMs : UInt64) (udpSend : Nat → Bool) (h : Handle) :
    EverySend h (fun pass' startedMs' i addr packet =>
        pass' = pass ∧ startedMs' = startedMs ∧ req.Owns i addr packet)
      (sendEffects req missingOnly pass startedMs udpSend) := by
  intro pass' startedMs' i addr packet ok hmem
  obtain ⟨⟨target, j⟩, htarget, heq⟩ := List.mem_map.mp hmem
  obtain ⟨-, rfl, rfl, rfl, rfl, rfl, -⟩ := Effect.udpSend.inj heq
  have hzip := (List.mem_filter.mp htarget).1
  exact ⟨rfl, rfl, rfl, target, List.mem_zipIdx_iff_getElem?.mp hzip, rfl⟩

theorem attempts_sendEffects (req : RClientReq) (missingOnly : Bool) (pass : SendPass)
    (startedMs : UInt64) (udpSend : Nat → Bool) :
    attempts req.handle pass (sendEffects req missingOnly pass startedMs udpSend) =
      (attemptedTargets req missingOnly).map (·.2) := by
  unfold attempts sendEffects
  rw [List.filterMap_map, ← List.filterMap_eq_map]
  apply List.filterMap_congr
  intro target _
  simp [Effect.attempt?]

theorem attempts_other_pass {req : RClientReq} {missingOnly : Bool} {pass pass' : SendPass}
    (hne : pass ≠ pass') (startedMs : UInt64) (udpSend : Nat → Bool) (h : Handle) :
    attempts h pass' (sendEffects req missingOnly pass startedMs udpSend) = [] := by
  unfold attempts sendEffects
  rw [List.filterMap_map, List.filterMap_eq_nil_iff]
  intro target _
  simp [Effect.attempt?, hne]

theorem attemptedTargets_nodup (req : RClientReq) (missingOnly : Bool) :
    ((attemptedTargets req missingOnly).map (·.2)).Nodup := by
  have hall : (req.targets.zipIdx.map (·.2)).Nodup := by
    rw [List.zipIdx_map_snd]
    exact List.nodup_range'
  exact hall.sublist (List.filter_sublist.map _)

theorem attemptCount_sendEffects (req : RClientReq) (missingOnly : Bool) (pass : SendPass)
    (startedMs : UInt64) (udpSend : Nat → Bool) (h : Handle) (i : Nat) :
    attemptCount h i (sendEffects req missingOnly pass startedMs udpSend) ≤ 1 := by
  have honce := List.nodup_iff_count_le_one.mp (attemptedTargets_nodup req missingOnly) i
  rw [List.count, List.countP_map] at honce
  unfold attemptCount sendEffects
  rw [List.countP_map]
  refine Nat.le_trans (List.countP_mono_left ?_) honce
  intro target _ hat
  simp only [Function.comp_apply, Effect.attemptsAt, Bool.and_eq_true] at hat
  exact hat.2

theorem attemptedTargets_all (req : RClientReq) :
    (attemptedTargets req false).map (·.2) = List.range req.targets.length := by
  unfold attemptedTargets
  simp only [Bool.false_and, Bool.not_false, List.filter_true]
  rw [List.zipIdx_map_snd, List.range_eq_range']

/-! ### One transition -/

/-- The sends of one transition of request `req`: none, a replay round to every
    endpoint without a response, or a completion delivery to them. -/
inductive SentBy (c : RClient) (req : RClientReq) : View → List Effect → Prop
  | quiet (view : View) (hround : ∀ req', view = .live req' → req'.haRound = req.haRound) :
      SentBy c req view []
  | replay (view : View) (req' : RClientReq) (startedMs : UInt64) (udpSend : Nat → Bool)
      (hview : view = .live req' ∨ view = .calling req') (hsame : SameRequest req req')
      (hround : req'.haRound.toNat = req.haRound.toNat + 1)
      (hleft : req.haRound < c.policy.replayCount) (hnone : req.best = none)
      (hintime : startedMs < req.dedupDeadlineMs) :
      SentBy c req view (sendEffects req' true (.round req'.haRound) startedMs udpSend)
  | delivery (req' : RClientReq) (io : CompleteIo) (hsame : SameRequest req req')
      (henabled : c.policy.completionDelivery = true)
      (hintime : io.deliveryMs < req.dedupDeadlineMs) :
      SentBy c req (.calling req') (sendEffects req' true .delivery io.deliveryMs io.udpSend)

/-- The completion delivery: nothing when it is disabled or too late. -/
theorem rCompletionDelivery_cases (c : RClient) (req : RClientReq) (io : CompleteIo) :
    rCompletionDelivery c req io = [] ∨
      (c.policy.completionDelivery = true ∧ io.deliveryMs < req.dedupDeadlineMs ∧
        rCompletionDelivery c req io =
          sendEffects req true .delivery io.deliveryMs io.udpSend) := by
  unfold rCompletionDelivery
  split
  · exact .inl rfl
  · rename_i hopen
    rw [Bool.not_eq_true, Bool.or_eq_false_iff] at hopen
    rcases rSendRateRequest_effects c req true true .delivery io.deliveryMs io.udpSend with
      ⟨hnone, -⟩ | ⟨hsends, -⟩
    · exact .inl hnone
    · right
      refine ⟨?_, UInt64.not_le.mp (of_decide_eq_false hopen.2), hsends⟩
      exact (Bool.not_eq_false' _).mp hopen.1

theorem ReqStep.sentBy {c : RClient} {h : Handle} {req : RClientReq} {call : Call}
    {effects : List Effect} {view : View} (hstep : ReqStep c h req call effects view) :
    SentBy c req view (sendsIn effects) := by
  have hquiet : ∀ req', SentBy c req (.calling req') [] := by
    intro req'
    exact .quiet _ fun _ hlive => absurd hlive (by simp)
  -- a completion sends what its delivery sends
  have hdelivered : ∀ (trigger : Effect) (req' : RClientReq) (io : CompleteIo)
      (result : Option RRateLimitResult), trigger.isSend = false → SameRequest req req' →
      SentBy c req (.calling req') (sendsIn ([trigger] ++ rCompletionDelivery c req' io ++
        [.callback (some h) .ok result])) := by
    intro trigger req' io result htrigger hsame
    rw [sendsIn_between htrigger rfl rCompletionDelivery_isSend]
    rcases rCompletionDelivery_cases c req' io with hnone | ⟨henabled, hintime, hsends⟩
    · rw [hnone]
      exact hquiet req'
    · rw [hsends]
      refine .delivery req' io hsame henabled ?_
      rw [← hsame.dedupDeadlineMs]
      exact hintime
  cases hstep with
  | retained buf sender io response =>
    refine .quiet _ ?_
    intro req' hreq'
    obtain ⟨addrs, addrCap, heq⟩ := recordResponse_eq req response sender io.allocSeen
    rw [← View.live.inj hreq', holdCandidate_eq, heq]
  | selected buf sender io response best =>
    exact hdelivered _ _ _ _ rfl (recordResponse_same req response sender io.allocSeen)
  | early => exact .quiet _ fun req' hreq' => by rw [← View.live.inj hreq']
  | held => exact .quiet _ fun req' hreq' => by rw [← View.live.inj hreq']
  | elected => exact hdelivered _ _ _ _ rfl (SameRequest.refl req)
  | rearmed => exact .quiet _ fun req' hreq' => by rw [← View.live.inj hreq']
  | replayed nowMs io gapUnits _ hnone _ _ hleft _ hintime =>
    rw [sendsIn_behind rfl sendEffects_isSend]
    exact .replay _ _ _ _ (.inl rfl) ⟨rfl, rfl, rfl, rfl, rfl, rfl, rfl, rfl⟩
      (toNat_succ_of_lt hleft) hleft hnone hintime
  | replayFailed nowMs io gapUnits status sends _ hnone _ _ hleft _ hintime _ hsends =>
    rcases hsends with rfl | rfl
    · exact hquiet _
    · rw [sendsIn_between rfl rfl sendEffects_isSend]
      exact .replay _ _ _ _ (.inr rfl) ⟨rfl, rfl, rfl, rfl, rfl, rfl, rfl, rfl⟩
        (toNat_succ_of_lt hleft) hleft hnone hintime
  | replayRefused => exact hquiet _
  | finalEntered nowMs io entered _ _ _ _ _ hentered =>
    obtain ⟨-, rfl⟩ := rEnterFinal_ok hentered
    exact .quiet _ fun req' hreq' => by rw [← View.live.inj hreq']
  | ended => exact hquiet _
  | expired => exact hquiet _

end RlClient
