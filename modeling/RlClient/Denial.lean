import RlClient.ResponseGrammar
import RlClient.Workflow

/-!
# Why an admission was denied

The parser keeps one flag over all guards and resources; the classifier looks for the
first guard that failed and the first deficit. The two agree: a parsed result that is not
a success has a reason, so the classifier never has to guess one.
-/

namespace RlClient

/-! ### What the parser says of its result -/

/-- Each guard is judged by its own numbers, and the flag by all guards and resources. -/
structure RRateResponse.Judged (response : RRateResponse) : Prop where
  passed : ∀ guard ∈ response.guards,
    guard.passed = decide (guard.currentLatencyMs < guard.thresholdMs)
  success : response.success = (response.guards.all (·.passed) &&
    response.resources.all (·.tokensDeficit == 0))

theorem responseAt_judged (pdu : Bytes) : (responseAt pdu).Judged := by
  refine ⟨?_, ?_⟩
  · intro guard hguard
    obtain ⟨i, -, rfl⟩ := List.mem_map.mp hguard
    rfl
  · simp only [responseAt_eq, List.all_map, Function.comp_def, Bool.true_and]

/-- Whatever the parser accepts is judged. -/
theorem rParseRateResponsePdu_judged {pdu : Bytes} {pduLen guardCap resCap : Nat}
    {response : RRateResponse}
    (h : rParseRateResponsePdu pdu pduLen guardCap resCap = .ok response) : response.Judged := by
  rw [rParseRateResponsePdu_exact] at h
  split at h
  · obtain rfl := Except.ok.inj h
    exact responseAt_judged pdu
  · cases h

/-! ### The reasons -/

def RRateResponse.Short (response : RRateResponse) : Prop :=
  ∃ resource ∈ response.resources, resource.tokensDeficit ≠ 0

def RRateResponse.Slow (response : RRateResponse) : Prop :=
  ∃ guard ∈ response.guards, guard.thresholdMs ≤ guard.currentLatencyMs

def RRateResponse.deficit? (response : RRateResponse) : Option RResourceResult :=
  response.resources.find? (fun resource => resource.tokensDeficit ≠ 0)

def RRateResponse.failed? (response : RRateResponse) : Option RGuardResult :=
  response.guards.find? (fun guard => guard.thresholdMs ≤ guard.currentLatencyMs)

/-- A result of the client holds the arrays of the response; an empty array may be a null
    pointer. -/
structure ResultRef.Holds (result : ResultRef) (response : RRateResponse) : Prop where
  success : result.success = response.success
  resources : result.resources.elems = response.resources
  resourceCount : result.resources.count = response.resources.length
  guards : result.guards.elems = response.guards
  guardCount : result.guards.count = response.guards.length

theorem CArray.notNull_of_holds {arr : CArray α} {l : List α} (helems : arr.elems = l)
    (hcount : arr.count = l.length) : (arr.count > 0 && arr.isNull) = false := by
  cases arr with
  | null n =>
    have hnil : l = [] := helems.symm
    have hzero : n = 0 := by
      rw [hnil] at hcount
      exact hcount
    simp [CArray.count, hzero]
  | array elems => simp [CArray.isNull]

theorem RRateResponse.short_iff {response : RRateResponse} :
    response.Short ↔ response.deficit?.isSome = true := by
  simp [RRateResponse.Short, RRateResponse.deficit?]

theorem RRateResponse.slow_iff {response : RRateResponse} :
    response.Slow ↔ response.failed?.isSome = true := by
  simp [RRateResponse.Slow, RRateResponse.failed?]

theorem RRateResponse.deficit_eq (response : RRateResponse) :
    response.resources.find? (fun resource => resource.tokensDeficit > 0) = response.deficit? := by
  have hpos : ∀ deficit : UInt16, decide (deficit > 0) = decide (deficit ≠ 0) := by
    intro deficit
    exact decide_eq_decide.mpr UInt16.pos_iff_ne_zero
  simp only [RRateResponse.deficit?, hpos]

/-- The outcome of a denial before the fallback. -/
def RRateResponse.scanned (response : RRateResponse) : RAdmissionOutcome :=
  blameGuards (blameResources (.of .error) response.resources) response.guards

section

variable {response : RRateResponse} (hjudged : response.Judged)
include hjudged

theorem RRateResponse.Judged.failed_eq :
    response.guards.find? (fun guard => !guard.passed) = response.failed? := by
  unfold RRateResponse.failed?
  rw [← List.head?_filter, ← List.head?_filter]
  congr 1
  refine List.filter_congr fun guard hguard => ?_
  rw [hjudged.passed guard hguard, ← decide_not]
  exact decide_eq_decide.mpr UInt32.not_lt

/-- The flag is raised exactly when there is no reason against it. -/
theorem RRateResponse.Judged.success_iff :
    response.success = true ↔ response.deficit? = none ∧ response.failed? = none := by
  rw [hjudged.success, ← hjudged.failed_eq, Bool.and_eq_true, RRateResponse.deficit?,
    List.find?_eq_none, List.find?_eq_none, List.all_eq_true, List.all_eq_true, and_comm]
  simp

theorem RRateResponse.Judged.scanned_eq :
    response.scanned.allowed = false ∧ response.scanned.rateLimited = response.deficit?.isSome ∧
      response.scanned.latencyLimited = response.failed?.isSome ∧
      response.scanned.tokensDeficit = (response.deficit?.map (·.tokensDeficit)).getD 0 ∧
      response.scanned.currentLatencyMs = (response.failed?.map (·.currentLatencyMs)).getD 0 ∧
      response.scanned.latencyThresholdMs = (response.failed?.map (·.thresholdMs)).getD 0 := by
  unfold RRateResponse.scanned blameGuards blameResources
  rw [response.deficit_eq, hjudged.failed_eq]
  cases response.deficit? with
  | none => cases response.failed? <;> exact ⟨rfl, rfl, rfl, rfl, rfl, rfl⟩
  | some resource => cases response.failed? <;> exact ⟨rfl, rfl, rfl, rfl, rfl, rfl⟩

/-- A denial has a reason, so none has to be guessed. -/
theorem RRateResponse.Judged.fallback_unused (hdenied : response.success = false) :
    blameFallback response.scanned = response.scanned := by
  obtain ⟨-, hrate, hlatency, -⟩ := hjudged.scanned_eq
  rw [blameFallback, hrate, hlatency]
  apply if_neg
  intro hnone
  simp only [Bool.and_eq_true, Bool.not_eq_true', Option.isSome_eq_false_iff,
    Option.isNone_iff_eq_none] at hnone
  rw [hjudged.success_iff.mpr hnone] at hdenied
  exact absurd hdenied (by simp)

end

section

variable {response : RRateResponse} {result : ResultRef} (hholds : result.Holds response)
include hholds

/-- A success is an admission with the numbers of the first guard. -/
theorem classify_success (hsuccess : response.success = true) :
    rClientAdmissionClassify .ok (some result) = ⟨.allowed, true, false, false, 0,
      (response.guards.head?.map (·.currentLatencyMs)).getD 0,
      (response.guards.head?.map (·.thresholdMs)).getD 0⟩ := by
  have hresources := CArray.notNull_of_holds hholds.resources hholds.resourceCount
  have hguards := CArray.notNull_of_holds hholds.guards hholds.guardCount
  unfold rClientAdmissionClassify
  simp only [hresources, hguards, hholds.success, hsuccess, hholds.guards, Bool.or_false,
    Bool.false_eq_true, ne_eq, not_true, if_false, if_true]
  cases response.guards with
  | nil => rfl
  | cons guard rest => rfl

theorem classify_denial (hdenied : response.success = false) :
    rClientAdmissionClassify .ok (some result) =
      { blameFallback response.scanned with
        decision := denialDecision (blameFallback response.scanned) } := by
  have hresources := CArray.notNull_of_holds hholds.resources hholds.resourceCount
  have hguards := CArray.notNull_of_holds hholds.guards hholds.guardCount
  unfold rClientAdmissionClassify
  simp only [hresources, hguards, hholds.success, hdenied, hholds.guards, hholds.resources,
    Bool.or_false, Bool.false_eq_true, ne_eq, not_true, if_false]
  rfl

end

/-! ### The theorem -/

/-- The numbers that an outcome has of the guards: those of the first failed guard, or of
    the first guard when the request is admitted. -/
def RRateResponse.reported? (response : RRateResponse) (admitted : Bool) : Option RGuardResult :=
  match response.failed? with
  | some guard => some guard
  | none => if admitted then response.guards.head? else none

/-- **Denial reasons are exact.** For every PDU that the parser accepts and every result
    that holds what was parsed, the decision is read off the deficits and the guards, the
    numbers of the outcome are those of the first deficit and the first failed guard, and
    there is always a reason for a denial. -/
theorem denial_reasons_exact {pdu : Bytes} {pduLen guardCap resCap : Nat}
    {response : RRateResponse}
    (hparsed : rParseRateResponsePdu pdu pduLen guardCap resCap = .ok response)
    {result : ResultRef} (hholds : result.Holds response) {outcome : RAdmissionOutcome}
    (houtcome : rClientAdmissionClassify .ok (some result) = outcome) :
    (outcome.decision = .allowed ↔ ¬ response.Short ∧ ¬ response.Slow) ∧
    (outcome.decision = .rateLimited ↔ response.Short ∧ ¬ response.Slow) ∧
    (outcome.decision = .latencyLimited ↔ ¬ response.Short ∧ response.Slow) ∧
    (outcome.decision = .rateAndLatencyLimited ↔ response.Short ∧ response.Slow) ∧
    outcome.decision ≠ .error ∧
    (outcome.allowed = true ↔ outcome.decision = .allowed) ∧
    outcome.tokensDeficit = (response.deficit?.map (·.tokensDeficit)).getD 0 ∧
    outcome.currentLatencyMs =
      ((response.reported? outcome.allowed).map (·.currentLatencyMs)).getD 0 ∧
    outcome.latencyThresholdMs =
      ((response.reported? outcome.allowed).map (·.thresholdMs)).getD 0 ∧
    (response.success = false → blameFallback response.scanned = response.scanned) := by
  have hjudged := rParseRateResponsePdu_judged hparsed
  obtain rfl := houtcome
  rw [RRateResponse.short_iff, RRateResponse.slow_iff]
  cases hsuccess : response.success with
  | true =>
    obtain ⟨hdeficit, hfailed⟩ := hjudged.success_iff.mp hsuccess
    rw [classify_success hholds hsuccess, RRateResponse.reported?, hdeficit, hfailed]
    simp
  | false =>
    have hreason : ¬ (response.deficit? = none ∧ response.failed? = none) := by
      rw [← hjudged.success_iff, hsuccess]
      simp
    obtain ⟨hallowed, hrate, hlatency, hdeficit, hcurrent, hthreshold⟩ := hjudged.scanned_eq
    have hfallback := hjudged.fallback_unused hsuccess
    rw [classify_denial hholds hsuccess, hfallback, RRateResponse.reported?]
    simp only [denialDecision, hallowed, hrate, hlatency, hdeficit, hcurrent, hthreshold]
    cases hfirst : response.deficit? with
    | none =>
      cases hguard : response.failed? with
      | none => exact absurd ⟨hfirst, hguard⟩ hreason
      | some guard => simp
    | some resource =>
      cases hguard : response.failed? with
      | none => simp
      | some guard => simp

/-- A response with one guard at its threshold and two resources, the second of which
    lacks three tokens. -/
def sampleDenialPdu : Bytes :=
  rWriteLe16 0x5252 ++ rWriteLe16 104 ++ List.replicate 4 0 ++ rWriteLe16 1 ++ rWriteLe16 2 ++
    (List.replicate 28 1 ++ rWriteLe32 20 ++ rWriteLe32 20) ++
    (List.replicate 20 2 ++ rWriteLe32 9 ++ rWriteLe16 0 ++ rWriteLe16 0) ++
    (List.replicate 20 3 ++ rWriteLe32 9 ++ rWriteLe16 3 ++ rWriteLe16 0)

def sampleDenial : RRateResponse where
  guards := [⟨.replicate 16 1, 20, 20, false⟩]
  resources := [⟨.replicate 16 2, 0, 9⟩, ⟨.replicate 16 3, 3, 9⟩]
  success := false

theorem denial_reasons_exact_both :
    ∃ outcome, rClientAdmissionClassify .ok (some ⟨false, .array sampleDenial.resources,
        .array sampleDenial.guards⟩) = outcome ∧
      outcome.decision = .rateAndLatencyLimited ∧ outcome.tokensDeficit = 3 ∧
      outcome.currentLatencyMs = 20 := by
  have hparsed : rParseRateResponsePdu sampleDenialPdu 104 1 2 = .ok sampleDenial := by
    decide +kernel
  have hholds : ResultRef.Holds ⟨false, .array sampleDenial.resources, .array sampleDenial.guards⟩
      sampleDenial := ⟨rfl, rfl, rfl, rfl, rfl⟩
  obtain ⟨-, -, -, hboth, -, -, hdeficit, hcurrent, -⟩ := denial_reasons_exact hparsed hholds rfl
  refine ⟨_, rfl, hboth.mpr ⟨?_, ?_⟩, hdeficit, hcurrent⟩
  · exact ⟨⟨.replicate 16 3, 3, 9⟩, by simp [sampleDenial], by decide⟩
  · exact ⟨⟨.replicate 16 1, 20, 20, false⟩, by simp [sampleDenial], by decide⟩

end RlClient
