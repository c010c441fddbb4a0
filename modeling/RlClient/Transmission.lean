import RlClient.Attempts

/-!
# Transmission along a run

Whatever the interleaving of responses and late timers: a request has one packet
and one list of endpoints, each endpoint is attempted once in round zero, at most
once in every replay round and at most once more on completion.
-/

namespace RlClient

/-- What has been sent for a request submitted as `started`. -/
structure Transmitted (h : Handle) (started : RClientReq) (limit : Nat) (trace : List Effect) :
    Prop where
  owned : EverySend h (fun _ startedMs i addr packet =>
    started.Owns i addr packet ∧ startedMs < started.dedupDeadlineMs) trace
  first : attempts h (.round 0) trace = List.range started.targets.length
  count : ∀ i, attemptCount h i trace ≤ limit

/-- How often an endpoint may have been attempted: once for every round begun, and
    once more when the request is over. -/
def sendLimit (policy : RRequestPolicy) : View → Nat
  | .live req => req.haRound.toNat + 1
  | _ => policy.replayCount.toNat + 2

/-! ### One transition -/

theorem Transmitted.extend {h : Handle} {started : RClientReq} {limit limit' : Nat}
    {trace effects : List Effect} (ht : Transmitted h started limit trace)
    (howned : EverySend h (fun _ startedMs i addr packet =>
      started.Owns i addr packet ∧ startedMs < started.dedupDeadlineMs) effects)
    (hfirst : attempts h (.round 0) effects = []) {n : Nat}
    (hcount : ∀ i, attemptCount h i effects ≤ n) (hlimit : limit + n ≤ limit') :
    Transmitted h started limit' (trace ++ effects) := by
  refine ⟨ht.owned.append howned, ?_, ?_⟩
  · rw [attempts_append, hfirst, List.append_nil]
    exact ht.first
  · intro i
    rw [attemptCount_append]
    exact Nat.le_trans (Nat.add_le_add (ht.count i) (hcount i)) hlimit

theorem Transmitted.quiet {h : Handle} {started : RClientReq} {limit limit' : Nat}
    {trace effects : List Effect} (ht : Transmitted h started limit trace)
    (hquiet : sendsIn effects = []) (hlimit : limit ≤ limit') :
    Transmitted h started limit' (trace ++ effects) := by
  refine ht.extend (everySend_sendsIn ?_) ?_ (n := 0) ?_ hlimit
  · rw [hquiet]
    intro pass startedMs i addr packet ok hmem
    exact absurd hmem List.not_mem_nil
  · rw [← attempts_sendsIn, hquiet]
    rfl
  · intro i
    rw [← attemptCount_sendsIn, hquiet]
    exact Nat.le_refl 0

theorem Transmitted.pass {h : Handle} {started req : RClientReq} {limit limit' : Nat}
    {trace effects : List Effect} (ht : Transmitted h started limit trace)
    (hsame : SameRequest started req) {pass : SendPass} {startedMs : UInt64}
    {udpSend : Nat → Bool} (hsends : sendsIn effects = sendEffects req true pass startedMs udpSend)
    (hpass : pass ≠ .round 0) (hintime : startedMs < started.dedupDeadlineMs)
    (hlimit : limit + 1 ≤ limit') : Transmitted h started limit' (trace ++ effects) := by
  refine ht.extend (everySend_sendsIn ?_) ?_ (n := 1) ?_ hlimit
  · rw [hsends]
    refine (everySend_sendEffects req true pass startedMs udpSend h).imp ?_
    rintro _ _ i addr packet ⟨-, rfl, howns⟩
    exact ⟨howns.of_same hsame, hintime⟩
  · rw [← attempts_sendsIn, hsends]
    exact attempts_other_pass hpass startedMs udpSend h
  · intro i
    rw [← attemptCount_sendsIn, hsends]
    exact attemptCount_sendEffects req true pass startedMs udpSend h i

/-- Every transition keeps to the discipline, and no round behind the last one is
    begun. -/
theorem Transmitted.step {c : RClient} {h : Handle} {started req : RClientReq}
    {call : Call} {trace effects : List Effect} {view : View}
    (ht : Transmitted h started (req.haRound.toNat + 1) trace)
    (hround : req.haRound.toNat ≤ c.policy.replayCount.toNat) (hsame : SameRequest started req)
    (hstep : ReqStep c h req call effects view) :
    Transmitted h started (sendLimit c.policy view) (trace ++ effects) ∧
      ∀ req', view = .live req' → req'.haRound.toNat ≤ c.policy.replayCount.toNat := by
  have hsent := hstep.sentBy
  generalize hsends : sendsIn effects = sends at hsent
  cases hsent with
  | quiet view hsameRound =>
    refine ⟨ht.quiet hsends ?_, ?_⟩
    · cases view with
      | live req' => exact Nat.le_of_eq (by rw [sendLimit, hsameRound req' rfl])
      | _ =>
        simp only [sendLimit]
        omega
    · intro req' hview
      rw [hsameRound req' hview]
      exact hround
  | replay view req' startedMs udpSend hview hsame' hnext hleft hnone hintime =>
    have hcount := UInt32.lt_iff_toNat_lt.mp hleft
    have hpass : SendPass.round req'.haRound ≠ .round 0 := by
      intro heq
      rw [SendPass.round.inj heq] at hnext
      exact absurd hnext (by simp)
    rw [hsame.dedupDeadlineMs] at hintime
    refine ⟨ht.pass (hsame.trans hsame') hsends hpass hintime ?_, ?_⟩
    · rcases hview with rfl | rfl
      · simp only [sendLimit]
        omega
      · simp only [sendLimit]
        omega
    · intro req'' hlive
      rcases hview with rfl | rfl
      · obtain rfl := View.live.inj hlive
        omega
      · exact absurd hlive (by simp)
  | delivery req' io hsame' henabled hintime =>
    rw [hsame.dedupDeadlineMs] at hintime
    refine ⟨ht.pass (hsame.trans hsame') hsends (by simp) hintime ?_, ?_⟩
    · simp only [sendLimit]
      omega
    · intro req'' hlive
      exact absurd hlive (by simp)

/-! ### Whole runs -/

theorem Built.transmitted {gcm : Gcm} {c : RClient} {h : Handle} {args : SubmitArgs}
    {io : SubmitIo} {req : RClientReq} (built : Built gcm c h args io req) (gapUnits : UInt32)
    (hintime : io.roundMs < req.dedupDeadlineMs) (last : Effect) (hlast : last.isSend = false) :
    Transmitted h (firstRound c req gapUnits) 1 (firstSends c req gapUnits io ++ [last]) := by
  have hhandle : (firstRound c req gapUnits).handle = h := congrArg RClientReq.handle built.eq
  have hnone : sendsIn [last] = [] := List.filter_cons_of_neg (by simp [hlast])
  have hsends : Transmitted h (firstRound c req gapUnits) 1 (firstSends c req gapUnits io) := by
    refine ⟨?_, ?_, ?_⟩
    · refine (everySend_sendEffects _ false (.round 0) io.roundMs io.udpSend h).imp ?_
      rintro _ _ i addr packet ⟨-, rfl, howns⟩
      exact ⟨howns, hintime⟩
    · rw [← hhandle, attempts_sendEffects, attemptedTargets_all]
    · exact attemptCount_sendEffects _ false (.round 0) io.roundMs io.udpSend h
  exact hsends.quiet hnone (Nat.le_refl 1)

theorem attempts_about (h : Handle) (pass : SendPass) (trace : List Effect) :
    attempts h pass (about h trace) = attempts h pass trace := by
  apply filterMap_about
  intro e hother
  cases e with
  | udpSend k =>
    refine if_neg ?_
    rintro ⟨rfl, -⟩
    exact hother rfl
  | _ => rfl

theorem attemptCount_about (h : Handle) (i : Nat) (trace : List Effect) :
    attemptCount h i (about h trace) = attemptCount h i trace := by
  apply countP_about
  intro e he
  cases e with
  | udpSend k =>
    simp only [Effect.attemptsAt, Bool.and_eq_true, beq_iff_eq] at he
    exact he.1
  | _ => exact absurd he Bool.false_ne_true

theorem Transmitted.of_about {h : Handle} {started : RClientReq} {limit : Nat}
    {trace : List Effect} (ht : Transmitted h started limit (about h trace)) :
    Transmitted h started limit trace := by
  refine ⟨?_, ?_, ?_⟩
  · intro pass startedMs i addr packet ok hmem
    exact ht.owned pass startedMs i addr packet ok (mem_about.mpr ⟨hmem, rfl⟩)
  · rw [← attempts_about]
    exact ht.first
  · intro i
    rw [← attemptCount_about]
    exact ht.count i

theorem run_transmitted {gcm : Gcm} {args : CreateArgs} {c : RClient}
    (hcreate : rClientCreate args = .ok c) {calls : List Call} {m : Machine}
    {trace : List Effect} (hrun : run gcm c calls = some (m, trace)) {h : Handle}
    {started : RClientReq} (hsubmitted : Effect.submitted h started ∈ trace) :
    Transmitted h started (sendLimit c.policy (m.view h)) trace ∧
      ∀ req, m.view h = .live req → req.haRound.toNat ≤ c.policy.replayCount.toNat := by
  have hinv := life_induction (h := h) hcreate
    (P := fun _ view trace => ∀ started, Effect.submitted h started ∈ trace →
      Transmitted h started (sendLimit c.policy view) trace ∧
        ∀ req, view = .live req → req.haRound.toNat ≤ c.policy.replayCount.toNat)
    (fun _ hmem => absurd hmem List.not_mem_nil) ?_ hrun started (mem_about.mpr ⟨hsubmitted, rfl⟩)
  · exact ⟨hinv.1.of_about, hinv.2⟩
  intro calls m trace call view effects view' hrun' hview' hsent hlife started hmem
  have hearlier : Mark.submitted started ∉ marks h effects →
      Effect.submitted h started ∈ about h trace := by
    intro hnot
    rcases List.mem_append.mp hmem with hmem | hmem
    · exact hmem
    · exact absurd (submitted_mem.mp hmem) hnot
  cases hlife with
  | idle =>
    rw [List.append_nil] at hmem ⊢
    exact hsent started hmem
  | launched args io req gapUnits built hgap hintime =>
    rw [run_unborn hcreate hrun' hview', List.nil_append] at hmem ⊢
    have hstarted : started = firstRound c req gapUnits := by
      rcases List.mem_append.mp hmem with hmem | hmem
      · exact absurd (sendEffects_isSend _ hmem) Bool.false_ne_true
      · exact (Effect.submitted.inj (List.mem_singleton.mp hmem)).2
    subst hstarted
    refine ⟨built.transmitted gapUnits hintime _ rfl, ?_⟩
    intro req' hlive
    rw [← View.live.inj hlive]
    exact Nat.zero_le _
  | treated req call effects view hstep =>
    have hmem' : Effect.submitted h started ∈ about h trace := by
      apply hearlier
      rcases hstep.marks with ⟨-, -, hmarks⟩ | ⟨-, -, hmarks⟩
      · simp [hmarks]
      · simp [hmarks]
    obtain ⟨ht, hround⟩ := hsent started hmem'
    have hsame := submitted_same hcreate hrun' (mem_about.mp hmem').1 hview'
    exact ht.step (hround req rfl) hsame hstep
  | cancelled req =>
    obtain ⟨ht, hround⟩ := hsent started (hearlier (by simp [marks, Effect.mark?]))
    have hlimit := hround req rfl
    refine ⟨ht.quiet rfl ?_, fun _ hlive => absurd hlive (by simp)⟩
    simp only [sendLimit]
    omega
  | returned req =>
    obtain ⟨ht, -⟩ := hsent started (hearlier List.not_mem_nil)
    exact ⟨ht.quiet rfl (Nat.le_refl _), fun _ hlive => absurd hlive (by simp)⟩
  | sendFailed args io req gapUnits status sends built hstatus hsends =>
    have hquiet : marks h sends = [] := marks_sends (maybeSends_isSend hsends)
    have hnever := hearlier (by rw [marks_append, hquiet]; simp [marks, Effect.mark?])
    rw [run_unborn hcreate hrun' hview'] at hnever
    exact absurd hnever List.not_mem_nil
  | rejected =>
    have hnever := hearlier (by simp [marks, Effect.mark?])
    rw [run_unborn hcreate hrun' hview'] at hnever
    exact absurd hnever List.not_mem_nil
  | emptied =>
    have hnever := hearlier List.not_mem_nil
    rw [run_unborn hcreate hrun' hview'] at hnever
    exact absurd hnever List.not_mem_nil

end RlClient
