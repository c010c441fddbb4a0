import RlClient.Schedule
import RlClient.Selection

/-!
# Deadlines along a run

With a clock that never runs backwards, the deadlines a request goes through are
the ones its policy prescribes, whatever the lateness of the timers. Each is
computed from the one before; the invariant `Timed` ties them to the start of the
request and to the number of due timers it has seen.
-/

namespace RlClient

/-! ### The clock -/

/-- The clock readings of a call that the schedule depends on, in program order. -/
def Call.readings : Call → List UInt64
  | .submit _ io => [io.startMs, io.roundMs]
  | .datagram _ _ io => [io.gateMs, io.nowMs]
  | .timeout _ nowMs _ => [nowMs]
  | _ => []

/-- The clock never runs backwards, and `io.now_ms` agrees with the time passed
    to `r_client_on_timeout`. -/
structure Clocked (calls : List Call) : Prop where
  monotone : (calls.flatMap Call.readings).Pairwise (· ≤ ·)
  timers : ∀ h nowMs io, Call.timeout h nowMs io ∈ calls → io.roundMs = nowMs

theorem Clocked.left {calls more : List Call} (h : Clocked (calls ++ more)) : Clocked calls := by
  refine ⟨?_, fun k nowMs io hmem => h.timers k nowMs io (List.mem_append_left _ hmem)⟩
  have hmono := h.monotone
  rw [List.flatMap_append] at hmono
  exact (List.pairwise_append.mp hmono).1

theorem Clocked.last_le {calls : List Call} {call : Call} (h : Clocked (calls ++ [call]))
    {r r' : UInt64} (hr : r ∈ calls.flatMap Call.readings) (hr' : r' ∈ call.readings) :
    r ≤ r' := by
  have hmono := h.monotone
  rw [List.flatMap_append, List.flatMap_singleton] at hmono
  exact (List.pairwise_append.mp hmono).2.2 r hr r' hr'

/-! ### Due timers -/

/-- A call of `r_client_on_timeout` for `h` at or after the deadline it finds. -/
def Effect.isDueTimer (h : Handle) : Effect → Bool
  | .timer k nowMs deadlineMs => k == h && decide (deadlineMs ≤ nowMs)
  | _ => false

def dueTimers (h : Handle) (trace : List Effect) : Nat := trace.countP (Effect.isDueTimer h)

@[simp] theorem dueTimers_append (h : Handle) (l r : List Effect) :
    dueTimers h (l ++ r) = dueTimers h l + dueTimers h r := List.countP_append

theorem dueTimers_sends {h : Handle} {sends : List Effect}
    (hsends : ∀ e ∈ sends, e.isSend = true) : dueTimers h sends = 0 := by
  rw [dueTimers, List.countP_eq_zero]
  intro e he
  have hsend := hsends e he
  cases e with
  | udpSend => simp [Effect.isDueTimer]
  | _ => exact absurd hsend Bool.false_ne_true

theorem dueTimers_about (h : Handle) (trace : List Effect) :
    dueTimers h (about h trace) = dueTimers h trace := by
  apply countP_about
  intro e he
  cases e with
  | timer k nowMs deadlineMs =>
    simp only [Effect.isDueTimer, Bool.and_eq_true, beq_iff_eq] at he
    exact congrArg some he.1
  | _ => exact absurd he Bool.false_ne_true

theorem dueTimers_due {h : Handle} {nowMs deadlineMs : UInt64} (hdue : deadlineMs ≤ nowMs) :
    dueTimers h [.timer h nowMs deadlineMs] = 1 := by
  simp [dueTimers, Effect.isDueTimer, hdue]

theorem dueTimers_early {h : Handle} {nowMs deadlineMs : UInt64} (hearly : nowMs < deadlineMs) :
    dueTimers h [.timer h nowMs deadlineMs] = 0 := by
  simp [dueTimers, Effect.isDueTimer, UInt64.not_le.mpr hearly]

/-! ### The invariant -/

/-- The end of round zero for a request started at `startMs`. -/
def RRequestPolicy.firstDeadline (policy : RRequestPolicy) (startMs : UInt64) : Nat :=
  startMs.toNat + policy.unitMs.toNat * policy.replayGap.unitsThrough 0

/-- Some clock reading has passed the preference deadline and round zero. -/
def PreferencePassed (policy : RRequestPolicy) (readings : List UInt64) (req : RClientReq) : Prop :=
  ∃ r ∈ readings, req.haPreferenceDeadlineMs ≤ r ∧ policy.firstDeadline req.startMs ≤ r.toNat

/-- Where a request stands in its schedule. `due` counts the due timers so far,
    `readings` the clock readings. Only round zero holds a candidate; behind it the
    preference deadline has already passed. -/
inductive Stage (policy : RRequestPolicy) (readings : List UInt64) (due : Nat)
    (req : RClientReq) : Prop
  | first (hphase : req.phase = .round) (hround : req.haRound.toNat = 0) (hdue : due = 0)
      (hdeadline : req.haRoundDeadlineMs.toNat = policy.firstDeadline req.startMs)
      (hpref : req.haPreferenceDeadlineMs = req.haRoundDeadlineMs)
  | replay (k : Nat) (hphase : req.phase = .round) (hround : req.haRound.toNat = k + 1)
      (hcount : k + 1 ≤ policy.replayCount.toNat) (hdue : due = k + 1)
      (hdeadline : req.haRoundDeadlineMs.toNat = req.startMs.toNat +
        policy.unitMs.toNat * policy.replayGap.unitsThrough (k + 1))
      (hnone : req.best = none)
      (hpassed : PreferencePassed policy readings req)
  | final (hphase : req.phase = .final) (hunits : policy.finalReceiveUnits ≠ 0)
      (hdue : due = policy.replayCount.toNat + 1)
      (hdeadline : req.haRoundDeadlineMs.toNat = req.startMs.toNat + policy.horizonMs)
      (hnone : req.best = none)
      (hpassed : PreferencePassed policy readings req)

structure Timed (policy : RRequestPolicy) (readings : List UInt64) (due : Nat)
    (req : RClientReq) : Prop where
  attempt : req.attemptDeadlineMs = req.haRoundDeadlineMs
  dedup : req.dedupDeadlineMs.toNat = req.startMs.toNat + policy.horizonMs
  stage : Stage policy readings due req

theorem Timed.later {policy : RRequestPolicy} {readings : List UInt64} {due : Nat}
    {req : RClientReq} (h : Timed policy readings due req) (more : List UInt64) :
    Timed policy (readings ++ more) due req := by
  refine ⟨h.attempt, h.dedup, ?_⟩
  cases h.stage with
  | first hphase hround hdue hdeadline hpref =>
    exact .first hphase hround hdue hdeadline hpref
  | replay k hphase hround hcount hdue hdeadline hnone hpassed =>
    obtain ⟨r, hr, hle⟩ := hpassed
    exact .replay k hphase hround hcount hdue hdeadline hnone ⟨r, List.mem_append_left _ hr, hle⟩
  | final hphase hunits hdue hdeadline hnone hpassed =>
    obtain ⟨r, hr, hle⟩ := hpassed
    exact .final hphase hunits hdue hdeadline hnone ⟨r, List.mem_append_left _ hr, hle⟩

/-- A deadline one stage further on, as the source computes it. -/
theorem deadline_toNat {base : UInt64} {policy : RRequestPolicy} {units : UInt32} {bound : UInt64}
    (h : base.toNat + policy.unitMs.toNat * units.toNat ≤ bound.toNat) :
    (base + policy.unitMs * units.toUInt64).toNat =
      base.toNat + policy.unitMs.toNat * units.toNat := by
  have hbound := bound.toNat_lt
  have hwiden : units.toUInt64.toNat = units.toNat := by simp
  have hmul : (policy.unitMs * units.toUInt64).toNat = policy.unitMs.toNat * units.toNat := by
    rw [UInt64.toNat_mul, hwiden]
    exact Nat.mod_eq_of_lt (by omega)
  rw [UInt64.toNat_add, hmul]
  exact Nat.mod_eq_of_lt (by omega)

/-- The sum of the rounds through `k` fits under the horizon. -/
theorem unitsThrough_le_horizon (policy : RRequestPolicy) {k : Nat}
    (hk : k ≤ policy.replayCount.toNat) :
    policy.unitMs.toNat * policy.replayGap.unitsThrough k ≤ policy.horizonMs := by
  unfold RRequestPolicy.horizonMs
  have hmono := unitsThrough_mono policy.replayGap hk
  exact Nat.mul_le_mul_left _ (by omega)

/-! ### One transition -/

/-- A timed request that is due has its round behind it. -/
theorem Timed.round_over {policy : RRequestPolicy} {readings : List UInt64} {due : Nat}
    {req : RClientReq} (h : Timed policy readings due req) {nowMs : UInt64}
    (hdue : req.attemptDeadlineMs ≤ nowMs) : ¬ nowMs < req.haRoundDeadlineMs := by
  rw [← h.attempt]
  exact UInt64.not_lt.mpr hdue

/-- Behind round zero the preference deadline is in the past. -/
theorem Timed.preference_passed {policy : RRequestPolicy} {readings : List UInt64} {due : Nat}
    {req : RClientReq} (h : Timed policy readings due req) {nowMs : UInt64}
    (hlate : ∀ r ∈ readings, r ≤ nowMs) (hbehind : req.phase = .final ∨ req.haRound.toNat ≠ 0) :
    req.haPreferenceDeadlineMs ≤ nowMs ∧ policy.firstDeadline req.startMs ≤ nowMs.toNat := by
  have hnow : PreferencePassed policy readings req →
      req.haPreferenceDeadlineMs ≤ nowMs ∧ policy.firstDeadline req.startMs ≤ nowMs.toNat := by
    rintro ⟨r, hr, hpref, hfirst⟩
    exact ⟨UInt64.le_trans hpref (hlate r hr),
      Nat.le_trans hfirst (UInt64.le_iff_toNat_le.mp (hlate r hr))⟩
  cases h.stage with
  | first hphase hround =>
    rcases hbehind with hfinal | hnext
    · exact absurd (hphase.symm.trans hfinal) (by decide)
    · exact absurd hround hnext
  | replay k _ _ _ _ _ _ hpassed => exact hnow hpassed
  | final _ _ _ _ _ hpassed => exact hnow hpassed

theorem selectBest_ne_none_iff {req : RClientReq} {nowMs : UInt64} {best : RRateLimitResult}
    (hbest : req.best = some best) :
    selectBest req nowMs ≠ none ↔ req.haPreferenceDeadlineMs ≤ nowMs ∨
      rIsOldestKnownServer req.allowedIds best.serverId = true := by
  unfold selectBest
  rw [hbest, or_comm]
  simp only [ne_eq, ite_eq_right_iff, reduceCtorEq, imp_false, not_not, Bool.or_eq_true,
    decide_eq_true_iff]

theorem selectBest_eq_none {req : RClientReq} {nowMs : UInt64} {best : RRateLimitResult}
    (hbest : req.best = some best) (h : selectBest req nowMs = none) :
    nowMs < req.haPreferenceDeadlineMs ∧
      rIsOldestKnownServer req.allowedIds best.serverId = false := by
  have hnot := mt (selectBest_ne_none_iff hbest).mpr (not_not.mpr h)
  rw [not_or, UInt64.not_le, Bool.not_eq_true] at hnot
  exact hnot

theorem recordResponse_best_isSome (req : RClientReq) (response : RResponse) (sender : RAddr)
    (alloc : SeenAlloc) : ∃ best, (recordResponse req response sender alloc).best = some best := by
  obtain ⟨addrs, addrCap, heq⟩ := recordResponse_eq req response sender alloc
  rw [heq]
  change ∃ best, rCandidateTryUpdateBest req.best response.result = some best
  unfold rCandidateTryUpdateBest
  split
  · exact ⟨_, rfl⟩
  · rename_i current hcurrent
    split
    · exact ⟨_, rfl⟩
    · exact ⟨current, hcurrent⟩

/-- A response retained by a timed request arrives in round zero, before its
    deadline. -/
theorem Timed.retained_first {policy : RRequestPolicy} {readings : List UInt64} {due : Nat}
    {req : RClientReq} (h : Timed policy readings due req) {response : RResponse}
    {sender : RAddr} {alloc : SeenAlloc} {nowMs : UInt64} (hlate : ∀ r ∈ readings, r ≤ nowMs)
    (hopen : selectBest (recordResponse req response sender alloc) nowMs = none) :
    req.phase = .round ∧ req.haRound.toNat = 0 ∧
      req.haPreferenceDeadlineMs = req.haRoundDeadlineMs ∧ nowMs < req.haRoundDeadlineMs := by
  obtain ⟨best, hbest⟩ := recordResponse_best_isSome req response sender alloc
  obtain ⟨hbefore, -⟩ := selectBest_eq_none hbest hopen
  obtain ⟨addrs, addrCap, heq⟩ := recordResponse_eq req response sender alloc
  rw [heq] at hbefore
  have hnot : ¬ req.haPreferenceDeadlineMs ≤ nowMs := UInt64.not_le.mpr hbefore
  cases h.stage with
  | first hphase hround _ _ hpref =>
    refine ⟨hphase, hround, hpref, ?_⟩
    rw [← hpref]
    exact hbefore
  | replay k _ hround =>
    exact absurd (h.preference_passed hlate (.inr (by omega))).1 hnot
  | final hphase => exact absurd (h.preference_passed hlate (.inl hphase)).1 hnot

/-- A timed request in a round: its deadline, its place and its count. -/
theorem Timed.in_round {policy : RRequestPolicy} {readings : List UInt64} {due : Nat}
    {req : RClientReq} (h : Timed policy readings due req) (hphase : req.phase = .round) :
    req.haRoundDeadlineMs.toNat = req.startMs.toNat +
        policy.unitMs.toNat * policy.replayGap.unitsThrough req.haRound.toNat ∧
      req.haRound.toNat ≤ policy.replayCount.toNat ∧ due = req.haRound.toNat := by
  cases h.stage with
  | first _ hround hdue hdeadline =>
    rw [hround]
    exact ⟨hdeadline, Nat.zero_le _, hdue⟩
  | replay k _ hround hcount hdue hdeadline =>
    rw [hround]
    exact ⟨hdeadline, hcount, hdue⟩
  | final hfinal => exact absurd (hphase.symm.trans hfinal) (by decide)

/-- A round that is over has round zero behind it. -/
theorem Timed.first_over {policy : RRequestPolicy} {readings : List UInt64} {due : Nat}
    {req : RClientReq} (h : Timed policy readings due req) (hphase : req.phase = .round)
    {nowMs : UInt64} (hover : req.haRoundDeadlineMs ≤ nowMs) :
    policy.firstDeadline req.startMs ≤ nowMs.toNat := by
  obtain ⟨hdeadline, -, -⟩ := h.in_round hphase
  have hmono := unitsThrough_mono policy.replayGap (Nat.zero_le req.haRound.toNat)
  calc policy.firstDeadline req.startMs
      ≤ req.haRoundDeadlineMs.toNat := by
        rw [hdeadline]
        exact Nat.add_le_add_left (Nat.mul_le_mul_left _ hmono) _
    _ ≤ nowMs.toNat := UInt64.le_iff_toNat_le.mp hover

theorem enterRound_succ (policy : RRequestPolicy) (req : RClientReq) {round : UInt32}
    (hround : round ≠ 0) (gapUnits : UInt32) :
    enterRound policy req round gapUnits = { req with
      phase := .round
      haRound := round
      haRoundStartMs := req.haRoundDeadlineMs
      haRoundDeadlineMs := req.haRoundDeadlineMs + policy.unitMs * gapUnits.toUInt64
      haPreferenceDeadlineMs := req.haRoundDeadlineMs
      attemptDeadlineMs := req.haRoundDeadlineMs + policy.unitMs * gapUnits.toUInt64 } := by
  unfold enterRound
  simp only [if_neg hround]

theorem Timed.next_round {policy : RRequestPolicy} {readings : List UInt64} {due : Nat}
    {req : RClientReq} (h : Timed policy readings due req) (hphase : req.phase = .round)
    (hleft : req.haRound < policy.replayCount) {gapUnits : UInt32}
    (hgap : rHaScheduleUnits policy.replayGap (req.haRound + 1) false = .ok gapUnits)
    (hnone : req.best = none) {nowMs : UInt64} (hover : req.haRoundDeadlineMs ≤ nowMs) :
    Timed policy (readings ++ [nowMs]) (due + 1)
      (enterRound policy req (req.haRound + 1) gapUnits) := by
  have hfirst := h.first_over hphase hover
  obtain ⟨hdeadline, -, hdue⟩ := h.in_round hphase
  have hsucc := toNat_succ_of_lt hleft
  have hne : req.haRound + 1 ≠ 0 := by
    intro hzero
    rw [hzero] at hsucc
    exact absurd hsucc (by simp)
  have hcount : req.haRound.toNat + 1 ≤ policy.replayCount.toNat :=
    UInt32.lt_iff_toNat_lt.mp hleft
  have hunits : gapUnits.toNat = policy.replayGap.gapUnits (req.haRound.toNat + 1) := by
    rw [rHaScheduleUnits_toNat hgap, hsucc]
  have hnext : req.haRoundDeadlineMs.toNat + policy.unitMs.toNat * gapUnits.toNat =
      req.startMs.toNat +
        policy.unitMs.toNat * policy.replayGap.unitsThrough (req.haRound.toNat + 1) := by
    rw [hdeadline, hunits, unitsThrough_succ, Nat.mul_add, Nat.add_assoc]
  have hbound : req.haRoundDeadlineMs.toNat + policy.unitMs.toNat * gapUnits.toNat ≤
      req.dedupDeadlineMs.toNat := by
    rw [hnext, h.dedup]
    exact Nat.add_le_add_left (unitsThrough_le_horizon policy hcount) _
  rw [enterRound_succ policy req hne]
  refine ⟨rfl, h.dedup, .replay req.haRound.toNat rfl hsucc hcount ?_ ?_ hnone ?_⟩
  · rw [hdue]
  · exact (deadline_toNat hbound).trans hnext
  · exact ⟨nowMs, List.mem_append_right _ List.mem_cons_self, hover, hfirst⟩

theorem Timed.enter_final {policy : RRequestPolicy} {readings : List UInt64} {due : Nat}
    {req entered : RClientReq} (h : Timed policy readings due req) (hphase : req.phase = .round)
    (hlast : ¬ req.haRound < policy.replayCount) (hentered : rEnterFinal policy req = .ok entered)
    (hnone : req.best = none) {nowMs : UInt64} (hover : req.haRoundDeadlineMs ≤ nowMs) :
    Timed policy (readings ++ [nowMs]) (due + 1) entered := by
  have hfirst := h.first_over hphase hover
  obtain ⟨hdeadline, hcount, hdue⟩ := h.in_round hphase
  obtain ⟨hunits, rfl⟩ := rEnterFinal_ok hentered
  have hround : req.haRound.toNat = policy.replayCount.toNat := by
    have hge := mt UInt32.lt_iff_toNat_lt.mpr hlast
    omega
  have hnext : req.haRoundDeadlineMs.toNat +
      policy.unitMs.toNat * policy.finalReceiveUnits.toNat =
      req.startMs.toNat + policy.horizonMs := by
    unfold RRequestPolicy.horizonMs
    rw [hdeadline, hround, Nat.mul_add, Nat.add_assoc]
  have hbound : req.haRoundDeadlineMs.toNat +
      policy.unitMs.toNat * policy.finalReceiveUnits.toNat ≤ req.dedupDeadlineMs.toNat := by
    rw [hnext, h.dedup]
  refine ⟨rfl, h.dedup, .final rfl hunits ?_ ((deadline_toNat hbound).trans hnext) hnone ?_⟩
  · rw [hdue, hround]
  · exact ⟨nowMs, List.mem_append_right _ List.mem_cons_self, hover, hfirst⟩

/-- A timed request that is due holds no candidate whose preference deadline is
    still ahead. -/
theorem Timed.not_held {policy : RRequestPolicy} {readings : List UInt64} {due : Nat}
    {req : RClientReq} (h : Timed policy readings due req) {best : RRateLimitResult}
    (hbest : req.best = some best) {nowMs : UInt64} (hdue : req.attemptDeadlineMs ≤ nowMs) :
    req.haPreferenceDeadlineMs ≤ nowMs := by
  cases h.stage with
  | first _ _ _ _ hpref =>
    rw [hpref, ← h.attempt]
    exact hdue
  | replay _ _ _ _ _ _ hnone => exact absurd (hbest.symm.trans hnone) (by simp)
  | final _ _ _ _ hnone => exact absurd (hbest.symm.trans hnone) (by simp)

theorem ReqStep.timed {c : RClient} {h : Handle} {req req' : RClientReq} {call : Call}
    {effects : List Effect} {readings : List UInt64} {due : Nat}
    (hstep : ReqStep c h req call effects (.live req')) (htimed : Timed c.policy readings due req)
    (hlate : ∀ r ∈ readings, ∀ r' ∈ call.readings, r ≤ r') :
    Timed c.policy (readings ++ call.readings) (due + dueTimers h effects) req' := by
  cases hstep with
  | retained buf sender io response hallowed hgate hopen =>
    have hnow : ∀ r ∈ readings, r ≤ io.nowMs := fun r hr => hlate r hr _ (by simp [Call.readings])
    obtain ⟨hphase, hround, hpref, -⟩ := htimed.retained_first hnow hopen
    obtain ⟨addrs, addrCap, heq⟩ := recordResponse_eq req response sender io.allocSeen
    have hzero : dueTimers h [.accepted h response] = 0 := rfl
    have hattempt : ¬ req.haPreferenceDeadlineMs < req.attemptDeadlineMs := by
      rw [hpref, htimed.attempt]
      exact UInt64.lt_irrefl _
    rw [hzero, Nat.add_zero, holdCandidate_eq, heq]
    simp only [hattempt, decide_false, Bool.and_false, Bool.false_eq_true, if_false]
    refine ⟨htimed.attempt, htimed.dedup, ?_⟩
    cases htimed.stage with
    | first _ _ hdue hdeadline _ => exact .first hphase hround hdue hdeadline hpref
    | replay k _ hround' => exact absurd hround (by omega)
    | final hphase' => exact absurd (hphase.symm.trans hphase') (by decide)
  | early nowMs io hearly =>
    rw [dueTimers_early hearly, Nat.add_zero]
    exact htimed.later _
  | held nowMs io best hdue hbest hbefore =>
    exact absurd (htimed.not_held hbest hdue) (UInt64.not_le.mpr hbefore)
  | rearmed nowMs io hdue hnone hbefore => exact absurd hbefore (htimed.round_over hdue)
  | replayed nowMs io gapUnits hdue hnone hover hphase hleft hgap hintime =>
    rw [dueTimers_append, dueTimers_due hdue, dueTimers_sends sendEffects_isSend]
    exact htimed.next_round hphase hleft hgap hnone hover
  | finalEntered nowMs io entered hdue hnone hover hphase hlast hentered =>
    rw [dueTimers_due hdue]
    exact htimed.enter_final hphase hlast hentered hnone hover

/-! ### Whole runs -/

theorem Built.timed {gcm : Gcm} {c : RClient} {h : Handle} {args : SubmitArgs} {io : SubmitIo}
    {req : RClientReq} (built : Built gcm c h args io req) {gapUnits : UInt32}
    (hgap : rHaScheduleUnits c.policy.replayGap 0 false = .ok gapUnits)
    (readings : List UInt64) : Timed c.policy readings 0 (firstRound c req gapUnits) := by
  obtain ⟨hhorizon, -⟩ := rRequestPolicyTtlMs_toNat built.ttl
  have hdedup : (io.startMs + built.ttlMs.toUInt64).toNat =
      io.startMs.toNat + c.policy.horizonMs := by
    rw [toNat_add_of_le_max built.fits, hhorizon]
  have hunits : gapUnits.toNat = c.policy.replayGap.unitsThrough 0 := by
    rw [rHaScheduleUnits_toNat hgap, unitsThrough_zero]
    rfl
  have hbound : io.startMs.toNat + c.policy.unitMs.toNat * gapUnits.toNat ≤
      (io.startMs + built.ttlMs.toUInt64).toNat := by
    rw [hdedup, hunits]
    exact Nat.add_le_add_left (unitsThrough_le_horizon c.policy (Nat.zero_le _)) _
  rw [built.eq]
  refine ⟨rfl, hdedup, .first rfl rfl rfl ?_ rfl⟩
  rw [RRequestPolicy.firstDeadline, ← hunits]
  exact deadline_toNat hbound

/-- **Deadlines.** Every request in flight of every run with a clock that never
    runs backwards is where its schedule says. -/
theorem run_timed {gcm : Gcm} {args : CreateArgs} {c : RClient}
    (hcreate : rClientCreate args = .ok c) {calls : List Call} {m : Machine}
    {trace : List Effect} (hrun : run gcm c calls = some (m, trace)) (hclock : Clocked calls)
    {h : Handle} {req : RClientReq} (hview : m.view h = .live req) :
    Timed c.policy (calls.flatMap Call.readings) (dueTimers h trace) req := by
  have hinv := live_induction (h := h) hcreate
    (P := fun calls req trace => Clocked calls →
      Timed c.policy (calls.flatMap Call.readings) (dueTimers h trace) req)
    ?_ ?_ ?_ hrun hview hclock
  · rw [dueTimers_about] at hinv
    exact hinv
  · intro calls call req trace htimed hclock
    rw [List.flatMap_append]
    exact (htimed hclock.left).later _
  · intro calls args io req gapUnits built hgap _
    rw [dueTimers_append, dueTimers_sends sendEffects_isSend]
    exact built.timed hgap _
  · intro calls call req req' trace effects htimed hstep hclock
    rw [List.flatMap_append, List.flatMap_singleton, dueTimers_append]
    exact hstep.timed (htimed hclock.left) fun r hr r' hr' => hclock.last_le hr hr'

end RlClient
