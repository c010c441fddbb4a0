import RlClient.Schedule
import RlClient.Credential
import RlClient.Numerals

/-!
# Which policies have a dedup TTL

`r_request_policy_ttl_ms` adds up the rounds of a policy, with limits that are
checked along the way. It accepts exactly the policies whose schedule is valid and
whose horizon, as a plain number, is within the limit. None of its computations
wraps: run on natural numbers with every intermediate value checked against its
width, it does the same.
-/

namespace RlClient

open Finset (range sum_range_succ)

/-! ### One round -/

/-- The schedules that `r_ha_schedule_units` has a value for. -/
def RHaSchedule.Valid (schedule : RHaSchedule) : Prop :=
  0 < schedule.initialUnits.toNat ∧ schedule.initialUnits.toNat ≤ schedule.maxUnits.toNat ∧
    match schedule.kind with
    | .fixed => True
    | .linear => 1 ≤ schedule.growth.toNat
    | .exponential => 2 ≤ schedule.growth.toNat
    | .unknown _ => False

theorem units_guard_iff {schedule : RHaSchedule} :
    ¬ ((!false && schedule.initialUnits == 0) ||
        decide (schedule.initialUnits > schedule.maxUnits)) ↔
      0 < schedule.initialUnits.toNat ∧
        schedule.initialUnits.toNat ≤ schedule.maxUnits.toNat := by
  have hzero : schedule.initialUnits = 0 ↔ schedule.initialUnits.toNat = 0 :=
    UInt32.toNat_inj.symm
  simp only [Bool.not_false, Bool.true_and, Bool.or_eq_true, beq_iff_eq, decide_eq_true_eq,
    gt_iff_lt, UInt32.lt_iff_toNat_lt, hzero]
  omega

theorem rHaScheduleUnits_defined_iff {schedule : RHaSchedule} {round : UInt32} :
    (∃ units, rHaScheduleUnits schedule round false = .ok units) ↔ schedule.Valid := by
  unfold rHaScheduleUnits RHaSchedule.Valid
  by_cases hguard : 0 < schedule.initialUnits.toNat ∧
      schedule.initialUnits.toNat ≤ schedule.maxUnits.toNat
  · rw [if_neg (units_guard_iff.mpr hguard), and_iff_right hguard.1, and_iff_right hguard.2]
    cases schedule.kind with
    | fixed => simp
    | linear =>
      by_cases hstep : schedule.growth = 0
      · simp [hstep]
      · have hpos : schedule.growth.toNat ≠ 0 := fun hzero => hstep (UInt32.toNat_inj.mp hzero)
        simp only [hstep, if_false]
        constructor
        · intro _
          omega
        · intro _
          split
          · exact ⟨_, rfl⟩
          · exact ⟨_, rfl⟩
    | exponential =>
      by_cases hfactor : schedule.growth < 2
      · have hsmall := UInt32.lt_iff_toNat_lt.mp hfactor
        simp only [UInt32.reduceToNat] at hsmall
        simp only [hfactor, if_true]
        constructor
        · rintro ⟨units, hunits⟩
          cases hunits
        · intro htwo
          omega
      · have hlarge := mt UInt32.lt_iff_toNat_lt.mpr hfactor
        simp only [UInt32.reduceToNat] at hlarge
        simp only [hfactor, if_false]
        constructor
        · intro _
          omega
        · intro _
          exact ⟨_, rfl⟩
    | unknown value => simp
  · rw [if_pos (not_not.mp (mt units_guard_iff.mp hguard))]
    constructor
    · rintro ⟨units, hunits⟩
      cases hunits
    · rintro ⟨hpos, hle, -⟩
      exact absurd ⟨hpos, hle⟩ hguard

/-- A valid schedule has the units of the closed form in every round. -/
theorem RHaSchedule.Valid.units {schedule : RHaSchedule} (hvalid : schedule.Valid)
    (round : UInt32) : ∃ units, rHaScheduleUnits schedule round false = .ok units ∧
      units.toNat = schedule.gapUnits round.toNat := by
  obtain ⟨units, hunits⟩ := rHaScheduleUnits_defined_iff.mpr hvalid
  exact ⟨units, hunits, rHaScheduleUnits_toNat hunits⟩

theorem RHaSchedule.Valid.gapUnits_zero {schedule : RHaSchedule} (hvalid : schedule.Valid) :
    schedule.gapUnits 0 = schedule.initialUnits.toNat := by
  obtain ⟨-, hle, hkind⟩ := hvalid
  unfold gapUnits
  cases h : schedule.kind with
  | fixed => rfl
  | linear =>
    simp only [Nat.zero_mul, Nat.add_zero]
    exact Nat.min_eq_right hle
  | exponential =>
    simp only [pow_zero, Nat.mul_one]
    exact Nat.min_eq_right hle
  | unknown value => simp [h] at hkind

/-! ### The sum of the rounds -/

/-- The rounds from `round` on are added up when the sum stays within the limit. -/
theorem ttlRounds_of_le {policy : RRequestPolicy} {limit : UInt64} (hvalid : policy.replayGap.Valid)
    {remaining : Nat} {round : UInt32} {total : UInt64}
    (hround : round.toNat + remaining < 2 ^ 32)
    (hsum : total.toNat + ∑ i ∈ range remaining, policy.replayGap.gapUnits (round.toNat + i) ≤
      limit.toNat / policy.unitMs.toNat) :
    ∃ result, ttlRounds policy limit remaining round total = .ok result := by
  induction remaining generalizing round total with
  | zero => exact ⟨total, rfl⟩
  | succ remaining ih =>
    obtain ⟨units, hunits, hgap⟩ := hvalid.units round
    have hnext : (round + 1).toNat = round.toNat + 1 := by
      rw [UInt32.toNat_add, UInt32.toNat_one]
      omega
    rw [Finset.sum_range_succ', Nat.add_zero, ← hgap] at hsum
    have hlimit : limit.toNat / policy.unitMs.toNat < 2 ^ 64 :=
      Nat.lt_of_le_of_lt (Nat.div_le_self _ _) limit.toNat_lt
    have hfits : ¬ total > UINT64_MAX - units.toUInt64 := by
      rw [gt_iff_lt, UInt64.not_lt, UInt64.le_iff_toNat_le, toNat_room]
      omega
    have hadd := toNat_add_of_le_max (UInt64.not_lt.mp hfits)
    have hwithin : ¬ total + units.toUInt64 > limit / policy.unitMs := by
      rw [gt_iff_lt, UInt64.not_lt, UInt64.le_iff_toNat_le, hadd, UInt64.toNat_div]
      omega
    unfold ttlRounds
    simp only [hunits]
    rw [if_neg hfits, if_neg hwithin]
    apply ih
    · omega
    · rw [hadd, hnext]
      have hshift : ∀ i, round.toNat + 1 + i = round.toNat + (i + 1) := fun i => by omega
      simp only [hshift]
      omega

/-! ### The horizon -/

/-- The conditions on the fields of a policy, apart from the length of its horizon. -/
def RRequestPolicy.Admissible (policy : RRequestPolicy) : Prop :=
  0 < policy.unitMs.toNat ∧ policy.replayCount.toNat ≤ 65535 ∧ policy.replayGap.Valid

theorem maxTtlMs_le (hasQuotas : Bool) (quotas : RBech32Quotas) :
    (maxTtlMs hasQuotas quotas).toNat ≤ 2 ^ 32 - 1 := by
  unfold maxTtlMs
  split
  · rw [UInt32.toNat_toUInt64]
    have hlt := quotas.dedupTtlMsMax.toNat_lt
    omega
  · exact Nat.le_refl _

theorem rRequestPolicyTtlMs_of_le {policy : RRequestPolicy} {hasQuotas : Bool}
    {quotas : RBech32Quotas} (hpolicy : policy.Admissible)
    (hlimit : policy.horizonMs ≤ (maxTtlMs hasQuotas quotas).toNat) :
    ∃ ttlMs, rRequestPolicyTtlMs policy hasQuotas quotas = .ok ttlMs := by
  obtain ⟨hunit, hcount, hvalid⟩ := hpolicy
  have hmax := maxTtlMs_le hasQuotas quotas
  have hfirst : 1 ≤ policy.replayGap.unitsThrough policy.replayCount.toNat := by
    calc 1 ≤ policy.replayGap.gapUnits 0 := by
          rw [hvalid.gapUnits_zero]
          exact hvalid.1
      _ = policy.replayGap.unitsThrough 0 := (unitsThrough_zero _).symm
      _ ≤ _ := unitsThrough_mono _ (Nat.zero_le _)
  have hunits : policy.replayGap.unitsThrough policy.replayCount.toNat +
      policy.finalReceiveUnits.toNat ≤ (maxTtlMs hasQuotas quotas).toNat / policy.unitMs.toNat := by
    rw [Nat.le_div_iff_mul_le hunit, Nat.mul_comm]
    exact hlimit
  have hquotient : (maxTtlMs hasQuotas quotas).toNat / policy.unitMs.toNat ≤ 2 ^ 32 - 1 :=
    Nat.le_trans (Nat.div_le_self _ _) hmax
  obtain ⟨total, htotal⟩ : ∃ total, ttlRounds policy (maxTtlMs hasQuotas quotas)
      (policy.replayCount.toNat + 1) 0 0 = .ok total := by
    apply ttlRounds_of_le hvalid
    · rw [UInt32.toNat_zero]
      omega
    · simp only [UInt64.toNat_zero, UInt32.toNat_zero, Nat.zero_add]
      exact Nat.le_trans (Nat.le_add_right _ _) hunits
  obtain ⟨hrounds, -⟩ := ttlRounds_toNat (by simp; omega) htotal
  simp only [UInt64.toNat_zero, UInt32.toNat_zero, Nat.zero_add] at hrounds
  change total.toNat = policy.replayGap.unitsThrough policy.replayCount.toNat at hrounds
  rw [← hrounds] at hunits hfirst
  have hfields : ¬ (decide (policy.unitMs = 0) ||
      decide (policy.replayCount > R_CLIENT_HA_MAX_REPLAY_COUNT)) = true := by
    rw [Bool.or_eq_true, decide_eq_true_eq, decide_eq_true_eq, not_or]
    constructor
    · intro hzero
      rw [hzero] at hunit
      exact Nat.lt_irrefl 0 hunit
    · intro hgt
      have := UInt32.lt_iff_toNat_lt.mp hgt
      exact absurd hcount (Nat.not_le.mpr this)
  have hunitFits : ¬ policy.unitMs > maxTtlMs hasQuotas quotas := by
    rw [gt_iff_lt, UInt64.not_lt, UInt64.le_iff_toNat_le]
    have hone : 1 ≤ (maxTtlMs hasQuotas quotas).toNat / policy.unitMs.toNat := by omega
    rw [Nat.le_div_iff_mul_le hunit, Nat.one_mul] at hone
    exact hone
  have hfits : ¬ total > UINT64_MAX - policy.finalReceiveUnits.toUInt64 := by
    rw [gt_iff_lt, UInt64.not_lt, UInt64.le_iff_toNat_le, toNat_room]
    omega
  have hadd := toNat_add_of_le_max (UInt64.not_lt.mp hfits)
  have hbounds : ¬ (decide (total + policy.finalReceiveUnits.toUInt64 = 0) ||
      decide (total + policy.finalReceiveUnits.toUInt64 > UINT32_MAX / policy.unitMs) ||
      decide (total + policy.finalReceiveUnits.toUInt64 >
        maxTtlMs hasQuotas quotas / policy.unitMs)) = true := by
    rw [Bool.or_eq_true, Bool.or_eq_true, decide_eq_true_eq, decide_eq_true_eq, decide_eq_true_eq,
      not_or, not_or, gt_iff_lt, gt_iff_lt, UInt64.not_lt, UInt64.not_lt, UInt64.le_iff_toNat_le,
      UInt64.le_iff_toNat_le, UInt64.toNat_div, UInt64.toNat_div, hadd]
    refine ⟨⟨?_, ?_⟩, hunits⟩
    · intro hzero
      rw [hzero, UInt64.toNat_zero] at hadd
      omega
    · exact Nat.le_trans hunits (Nat.div_le_div_right hmax)
  unfold rRequestPolicyTtlMs
  rw [if_neg hfields]
  simp only
  rw [if_neg hunitFits, htotal]
  simp only
  rw [if_neg hfits, if_neg hbounds]
  exact ⟨_, rfl⟩

/-- A policy has a TTL when it is admissible and its horizon is within the limit; the
    TTL is the horizon. -/
theorem rRequestPolicyTtlMs_eq_ok_iff {policy : RRequestPolicy} {hasQuotas : Bool}
    {quotas : RBech32Quotas} {ttlMs : UInt32} :
    rRequestPolicyTtlMs policy hasQuotas quotas = .ok ttlMs ↔
      policy.Admissible ∧ policy.horizonMs ≤ (maxTtlMs hasQuotas quotas).toNat ∧
        ttlMs.toNat = policy.horizonMs := by
  constructor
  · intro h
    obtain ⟨hunit, hcount, total, htotal, hadd, -, hlimit, -⟩ := rRequestPolicyTtlMs_ok h
    obtain ⟨hhorizon, hschedules⟩ := rRequestPolicyTtlMs_toNat h
    obtain ⟨hrounds, -⟩ := ttlRounds_toNat (by simp; omega) htotal
    refine ⟨⟨hunit, hcount, ?_⟩, ?_, hhorizon⟩
    · exact rHaScheduleUnits_defined_iff.mp (hschedules 0 (Nat.zero_le _))
    · have hle := UInt64.le_iff_toNat_le.mp hlimit
      rw [UInt64.toNat_div, hadd, hrounds] at hle
      simp only [UInt64.toNat_zero, UInt32.toNat_zero, Nat.zero_add] at hle
      rw [RRequestPolicy.horizonMs, Nat.mul_comm]
      exact Nat.mul_le_of_le_div _ _ _ hle
  · rintro ⟨hpolicy, hlimit, httl⟩
    obtain ⟨found, hfound⟩ := rRequestPolicyTtlMs_of_le hpolicy hlimit
    have hsame : found = ttlMs :=
      UInt32.toNat_inj.mp ((rRequestPolicyTtlMs_toNat hfound).1.trans httl.symm)
    rw [hfound, hsame]

/-! ### Nothing wraps -/

/-- `exponentialUnits` on natural numbers, with every value checked. -/
def exponentialUnitsExact (factor maxUnits : Nat) : Nat → Nat → Option Nat
  | 0, value => some value
  | round + 1, value =>
      if value < maxUnits then do
        let cap ← Width.div maxUnits factor
        let next ← if value > cap then some maxUnits else Width.fit 32 (value * factor)
        exponentialUnitsExact factor maxUnits round next
      else some value

def rHaScheduleUnitsExact (schedule : RHaSchedule) (round : Nat) (allowZero : Bool) :
    Option (Except RClientError Nat) :=
  let initial := schedule.initialUnits.toNat
  let max := schedule.maxUnits.toNat
  let growth := schedule.growth.toNat
  if (!allowZero && initial == 0) || initial > max then some (.error .errConfig)
  else
    match schedule.kind with
    | .fixed => some (.ok initial)
    | .linear =>
        if growth = 0 then some (.error .errConfig)
        else do
          let room ← Width.sub max initial
          let rounds ← Width.div room growth
          if round > rounds then some (.ok max)
          else do
            let grown ← Width.fit 32 (round * growth)
            let value ← Width.fit 32 (initial + grown)
            some (.ok value)
    | .exponential =>
        if growth < 2 then some (.error .errConfig)
        else (exponentialUnitsExact growth max round initial).map .ok
    | .unknown _ => some (.error .errConfig)

def ttlRoundsExact (policy : RRequestPolicy) (maxTtlMs : Nat) :
    (remaining round totalUnits : Nat) → Option (Except RClientError Nat)
  | 0, _, totalUnits => some (.ok totalUnits)
  | remaining + 1, round, totalUnits => do
      match ← rHaScheduleUnitsExact policy.replayGap round false with
      | .error _ => some (.error .errConfig)
      | .ok gapUnits =>
          let room ← Width.sub UINT64_MAX.toNat gapUnits
          if totalUnits > room then some (.error .errConfig)
          else do
            let total ← Width.fit 64 (totalUnits + gapUnits)
            let limit ← Width.div maxTtlMs policy.unitMs.toNat
            if total > limit then some (.error .errConfig)
            else do
              let next ← Width.fit 32 (round + 1)
              ttlRoundsExact policy maxTtlMs remaining next total

def rRequestPolicyTtlMsExact (policy : RRequestPolicy) (hasQuotas : Bool)
    (quotas : RBech32Quotas) : Option (Except RClientError Nat) :=
  let unitMs := policy.unitMs.toNat
  if unitMs = 0 || policy.replayCount.toNat > R_CLIENT_HA_MAX_REPLAY_COUNT.toNat then
    some (.error .errConfig)
  else
    let limit := (maxTtlMs hasQuotas quotas).toNat
    if unitMs > limit then some (.error .errConfig)
    else do
      match ← ttlRoundsExact policy limit (policy.replayCount.toNat + 1) 0 0 with
      | .error rc => some (.error rc)
      | .ok totalUnits =>
          let room ← Width.sub UINT64_MAX.toNat policy.finalReceiveUnits.toNat
          if totalUnits > room then some (.error .errConfig)
          else do
            let total ← Width.fit 64 (totalUnits + policy.finalReceiveUnits.toNat)
            let wire ← Width.div UINT32_MAX.toNat unitMs
            let quota ← Width.div limit unitMs
            if total = 0 || total > wire || total > quota then some (.error .errConfig)
            else do
              let product ← Width.fit 64 (total * unitMs)
              let ttl ← Width.fit 32 product
              some (.ok ttl)

theorem exponentialUnitsExact_eq {factor maxUnits : UInt32} (hfactor : 2 ≤ factor.toNat) (n : Nat)
    (value : UInt32) :
    exponentialUnitsExact factor.toNat maxUnits.toNat n value.toNat =
      some (exponentialUnits factor maxUnits n value).toNat := by
  induction n generalizing value with
  | zero => rfl
  | succ n ih =>
    unfold exponentialUnitsExact exponentialUnits
    by_cases hlt : value < maxUnits
    · rw [if_pos (UInt32.lt_iff_toNat_lt.mp hlt), if_pos hlt, Width.div_of_pos (by omega)]
      simp only [Option.bind_eq_bind, Option.bind_some]
      by_cases hbig : value > maxUnits / factor
      · have hbig' : value.toNat > maxUnits.toNat / factor.toNat := by
          rw [← UInt32.toNat_div]
          exact UInt32.lt_iff_toNat_lt.mp hbig
        rw [if_pos hbig', if_pos hbig]
        exact ih maxUnits
      · have hsmall : ¬ value.toNat > maxUnits.toNat / factor.toNat := by
          rw [← UInt32.toNat_div]
          exact mt UInt32.lt_iff_toNat_lt.mpr hbig
        have hfit : value.toNat * factor.toNat < 2 ^ 32 :=
          Nat.lt_of_le_of_lt (Nat.mul_le_of_le_div _ _ _ (Nat.not_lt.mp hsmall)) maxUnits.toNat_lt
        rw [if_neg hsmall, if_neg hbig, Width.fit_of_lt hfit, Option.bind_some, ← ih]
        rw [UInt32.toNat_mul, Nat.mod_eq_of_lt hfit]
    · rw [if_neg (mt UInt32.lt_iff_toNat_lt.mpr hlt), if_neg hlt]

theorem units_guard_eq (schedule : RHaSchedule) (allowZero : Bool) :
    ((!allowZero && schedule.initialUnits.toNat == 0) ||
        decide (schedule.initialUnits.toNat > schedule.maxUnits.toNat)) =
      ((!allowZero && schedule.initialUnits == 0) ||
        decide (schedule.initialUnits > schedule.maxUnits)) := by
  have hzero : (schedule.initialUnits.toNat == 0) = (schedule.initialUnits == 0) := by
    rw [Bool.eq_iff_iff, beq_iff_eq, beq_iff_eq, ← UInt32.toNat_inj]
    rfl
  rw [hzero, decide_eq_decide.mpr UInt32.lt_iff_toNat_lt.symm]

/-- The rounds of a schedule are computed without wrapping. -/
theorem rHaScheduleUnitsExact_eq (schedule : RHaSchedule) (round : UInt32) (allowZero : Bool) :
    rHaScheduleUnitsExact schedule round.toNat allowZero =
      some ((rHaScheduleUnits schedule round allowZero).map UInt32.toNat) := by
  unfold rHaScheduleUnitsExact rHaScheduleUnits
  simp only [units_guard_eq]
  split
  · rfl
  rename_i hguard
  have hle : schedule.initialUnits.toNat ≤ schedule.maxUnits.toNat := by
    apply Nat.not_lt.mp
    intro hgt
    exact hguard (by simp [UInt32.lt_iff_toNat_lt.mpr hgt])
  cases schedule.kind with
  | fixed => rfl
  | unknown value => rfl
  | exponential =>
    simp only
    by_cases hfactor : schedule.growth < 2
    · have hsmall : schedule.growth.toNat < 2 := UInt32.lt_iff_toNat_lt.mp hfactor
      rw [if_pos hsmall, if_pos hfactor]
      rfl
    · have hsmall : ¬ schedule.growth.toNat < 2 :=
        fun hlt => hfactor (UInt32.lt_iff_toNat_lt.mpr hlt)
      rw [if_neg hsmall, if_neg hfactor, exponentialUnitsExact_eq (Nat.not_lt.mp hsmall)]
      rfl
  | linear =>
    by_cases hstep : schedule.growth = 0
    · simp only [hstep, UInt32.toNat_zero, if_true]
      rfl
    have hpos : 0 < schedule.growth.toNat :=
      Nat.pos_iff_ne_zero.mpr fun hzero => hstep (UInt32.toNat_inj.mp hzero)
    have hroom : (schedule.maxUnits - schedule.initialUnits).toNat =
        schedule.maxUnits.toNat - schedule.initialUnits.toNat :=
      UInt32.toNat_sub_of_le _ _ (UInt32.le_iff_toNat_le.mpr hle)
    simp only
    rw [if_neg (Nat.pos_iff_ne_zero.mp hpos), if_neg hstep, Width.sub_of_le hle]
    simp only [Option.bind_eq_bind, Option.bind_some, Width.div_of_pos hpos]
    by_cases hover : round > (schedule.maxUnits - schedule.initialUnits) / schedule.growth
    · have hover' : round.toNat >
          (schedule.maxUnits.toNat - schedule.initialUnits.toNat) / schedule.growth.toNat := by
        rw [← hroom, ← UInt32.toNat_div]
        exact UInt32.lt_iff_toNat_lt.mp hover
      rw [if_pos hover', if_pos hover]
      rfl
    · have hfit : ¬ round.toNat >
          (schedule.maxUnits.toNat - schedule.initialUnits.toNat) / schedule.growth.toNat := by
        rw [← hroom, ← UInt32.toNat_div]
        exact mt UInt32.lt_iff_toNat_lt.mpr hover
      have hgrown := Nat.mul_le_of_le_div _ _ _ (Nat.not_lt.mp hfit)
      have hmax := schedule.maxUnits.toNat_lt
      have hproduct : round.toNat * schedule.growth.toNat < 2 ^ 32 := by omega
      have hsum : schedule.initialUnits.toNat + round.toNat * schedule.growth.toNat < 2 ^ 32 := by
        omega
      have hvalue : (schedule.initialUnits + round * schedule.growth).toNat =
          schedule.initialUnits.toNat + round.toNat * schedule.growth.toNat := by
        rw [UInt32.toNat_add, UInt32.toNat_mul, Nat.mod_eq_of_lt hproduct, Nat.mod_eq_of_lt hsum]
      rw [if_neg hfit, if_neg hover, Width.fit_of_lt hproduct, Option.bind_some,
        Width.fit_of_lt hsum, Option.bind_some, ← hvalue]
      rfl

theorem sub_max (x : UInt32) :
    Width.sub UINT64_MAX.toNat x.toNat = some (UINT64_MAX - x.toUInt64).toNat := by
  have hx := x.toNat_lt
  have hmax : UINT64_MAX.toNat = 2 ^ 64 - 1 := rfl
  have hle : x.toNat ≤ UINT64_MAX.toNat := by omega
  rw [Width.sub_of_le hle, toNat_room, hmax]

theorem map_ok {α β : Type} (f : α → β) (a : α) :
    (Except.ok a : Except RClientError α).map f = .ok (f a) := rfl

theorem ttlRoundsExact_eq {policy : RRequestPolicy} (hunit : 0 < policy.unitMs.toNat)
    (limit : UInt64) (remaining : Nat) {round : UInt32} (total : UInt64)
    (hround : round.toNat + remaining < 2 ^ 32) :
    ttlRoundsExact policy limit.toNat remaining round.toNat total.toNat =
      some ((ttlRounds policy limit remaining round total).map UInt64.toNat) := by
  induction remaining generalizing round total with
  | zero => rfl
  | succ remaining ih =>
    unfold ttlRoundsExact ttlRounds
    rw [rHaScheduleUnitsExact_eq]
    simp only [Option.bind_eq_bind, Option.bind_some]
    cases rHaScheduleUnits policy.replayGap round false with
    | error rc => rfl
    | ok gapUnits =>
      simp only [map_ok]
      rw [sub_max, Option.bind_some]
      by_cases hover : total > UINT64_MAX - gapUnits.toUInt64
      · rw [if_pos (UInt64.lt_iff_toNat_lt.mp hover), if_pos hover]
        rfl
      · have hadd := toNat_add_of_le_max (UInt64.not_lt.mp hover)
        have hsum : total.toNat + gapUnits.toNat < 2 ^ 64 := by
          rw [← hadd]
          exact UInt64.toNat_lt _
        rw [if_neg (mt UInt64.lt_iff_toNat_lt.mpr hover), if_neg hover, Width.fit_of_lt hsum,
          Option.bind_some, Width.div_of_pos hunit, Option.bind_some, ← hadd, ← UInt64.toNat_div]
        by_cases hlimit : total + gapUnits.toUInt64 > limit / policy.unitMs
        · rw [if_pos (UInt64.lt_iff_toNat_lt.mp hlimit), if_pos hlimit]
          rfl
        · have hnext : (round + 1).toNat = round.toNat + 1 := by
            rw [UInt32.toNat_add, UInt32.toNat_one]
            omega
          rw [if_neg (mt UInt64.lt_iff_toNat_lt.mpr hlimit), if_neg hlimit,
            Width.fit_of_lt (by omega), Option.bind_some, ← hnext]
          exact ih _ (by omega)

theorem toNat_eq_zero_iff {a : UInt64} : a.toNat = 0 ↔ a = 0 := by
  rw [← UInt64.toNat_inj, UInt64.toNat_zero]

/-- The TTL of a policy is computed without wrapping, whatever its fields are. -/
theorem rRequestPolicyTtlMsExact_eq (policy : RRequestPolicy) (hasQuotas : Bool)
    (quotas : RBech32Quotas) :
    rRequestPolicyTtlMsExact policy hasQuotas quotas =
      some ((rRequestPolicyTtlMs policy hasQuotas quotas).map UInt32.toNat) := by
  have hfields : (decide (policy.unitMs.toNat = 0) ||
      decide (policy.replayCount.toNat > R_CLIENT_HA_MAX_REPLAY_COUNT.toNat)) =
      (decide (policy.unitMs = 0) ||
        decide (policy.replayCount > R_CLIENT_HA_MAX_REPLAY_COUNT)) := by
    rw [decide_eq_decide.mpr toNat_eq_zero_iff, decide_eq_decide.mpr UInt32.lt_iff_toNat_lt.symm]
  unfold rRequestPolicyTtlMsExact rRequestPolicyTtlMs
  simp only [hfields]
  split
  · rfl
  rename_i hvalid
  have hunit : 0 < policy.unitMs.toNat := by
    rw [Nat.pos_iff_ne_zero]
    intro hzero
    have hzero64 : policy.unitMs = 0 := UInt64.toNat_inj.mp hzero
    exact hvalid (by simp [hzero64])
  have hcount : policy.replayCount.toNat ≤ 65535 := by
    apply Nat.not_lt.mp
    intro hgt
    exact hvalid (by simp [show policy.replayCount > R_CLIENT_HA_MAX_REPLAY_COUNT from
      UInt32.lt_iff_toNat_lt.mpr hgt])
  by_cases hlong : policy.unitMs > maxTtlMs hasQuotas quotas
  · rw [if_pos (UInt64.lt_iff_toNat_lt.mp hlong), if_pos hlong]
    rfl
  rw [if_neg (mt UInt64.lt_iff_toNat_lt.mpr hlong), if_neg hlong]
  have hstart : (0 : UInt32).toNat + (policy.replayCount.toNat + 1) < 2 ^ 32 := by
    rw [UInt32.toNat_zero]
    omega
  have hrounds := ttlRoundsExact_eq hunit (maxTtlMs hasQuotas quotas)
    (policy.replayCount.toNat + 1) 0 hstart
  rw [UInt32.toNat_zero, UInt64.toNat_zero] at hrounds
  rw [hrounds]
  simp only [Option.bind_eq_bind, Option.bind_some]
  cases ttlRounds policy (maxTtlMs hasQuotas quotas) (policy.replayCount.toNat + 1) 0 0 with
  | error rc => rfl
  | ok totalUnits =>
    simp only [map_ok]
    rw [sub_max, Option.bind_some]
    by_cases hover : totalUnits > UINT64_MAX - policy.finalReceiveUnits.toUInt64
    · rw [if_pos (UInt64.lt_iff_toNat_lt.mp hover), if_pos hover]
      rfl
    have hadd := toNat_add_of_le_max (UInt64.not_lt.mp hover)
    have hsum : totalUnits.toNat + policy.finalReceiveUnits.toNat < 2 ^ 64 := by
      rw [← hadd]
      exact UInt64.toNat_lt _
    rw [if_neg (mt UInt64.lt_iff_toNat_lt.mpr hover), if_neg hover, Width.fit_of_lt hsum,
      Option.bind_some, Width.div_of_pos hunit, Option.bind_some, Width.div_of_pos hunit,
      Option.bind_some, ← hadd, ← UInt64.toNat_div, ← UInt64.toNat_div]
    generalize totalUnits + policy.finalReceiveUnits.toUInt64 = total
    have hbounds : (decide (total.toNat = 0) ||
        decide (total.toNat > (UINT32_MAX / policy.unitMs).toNat) ||
        decide (total.toNat > (maxTtlMs hasQuotas quotas / policy.unitMs).toNat)) =
        (decide (total = 0) || decide (total > UINT32_MAX / policy.unitMs) ||
          decide (total > maxTtlMs hasQuotas quotas / policy.unitMs)) := by
      rw [decide_eq_decide.mpr toNat_eq_zero_iff,
        decide_eq_decide.mpr UInt64.lt_iff_toNat_lt.symm,
        decide_eq_decide.mpr UInt64.lt_iff_toNat_lt.symm]
    rw [hbounds]
    split
    · rfl
    rename_i hwithin
    have hproduct : total.toNat * policy.unitMs.toNat < 2 ^ 32 := by
      have hnot : ¬ total > UINT32_MAX / policy.unitMs := by
        intro hgt
        exact hwithin (by simp [hgt])
      have hle := UInt64.le_iff_toNat_le.mp (UInt64.not_lt.mp hnot)
      rw [UInt64.toNat_div] at hle
      have hmul := Nat.mul_le_of_le_div _ _ _ hle
      have hmax32 : UINT32_MAX.toNat = 2 ^ 32 - 1 := rfl
      omega
    have hwide : total.toNat * policy.unitMs.toNat < 2 ^ 64 := by omega
    rw [Width.fit_of_lt hwide, Option.bind_some, Width.fit_of_lt hproduct, Option.bind_some, map_ok,
      UInt64.toNat_toUInt32, UInt64.toNat_mul, Nat.mod_eq_of_lt hwide, Nat.mod_eq_of_lt hproduct]

/-! ### The theorem -/

theorem decoded_dedup_pos {word : UInt32} {quotas : RBech32Quotas}
    (h : rDecodeQuotaWord word = some quotas) :
    0 < quotas.dedupTtlMsMax.toNat ∧ quotas.dedupTtlMsMax.toNat ≤ 2000 := by
  rw [rDecodeQuotaWord_eq] at h
  split at h
  · rename_i hvalid
    obtain ⟨-, -, hlow, hhigh⟩ := hvalid
    obtain rfl := Option.some.inj h
    have hfits : (quotasOf word).dedupTtlMsMax.toNat = 10 * dedupUnits word :=
      UInt32.toNat_ofNat_of_lt' (show 10 * dedupUnits word < 2 ^ 32 by omega)
    omega
  · cases h

theorem maxTtlMs_of_quota {quotas : RBech32Quotas} (hpos : 0 < quotas.dedupTtlMsMax.toNat) :
    (maxTtlMs true quotas).toNat = quotas.dedupTtlMsMax.toNat := by
  have hgt : quotas.dedupTtlMsMax > 0 := UInt32.lt_iff_toNat_lt.mpr hpos
  unfold maxTtlMs
  rw [if_pos (by simp [hgt]), UInt32.toNat_toUInt64]

/-- **The TTL is the horizon.** With the quotas of a credential, a policy has a TTL
    exactly when its fields are admissible and its horizon is at most the quota,
    which is never zero; without quotas the bound is that of the wire field. The TTL
    is the horizon then. For any fields, the schedule and the TTL are computed
    without a step that wraps. -/
theorem ttl_closed_form (policy : RRequestPolicy) :
    (∀ word quotas, rDecodeQuotaWord word = some quotas → ∀ ttlMs,
      rRequestPolicyTtlMs policy true quotas = .ok ttlMs ↔
        policy.Admissible ∧ policy.horizonMs ≤ quotas.dedupTtlMsMax.toNat ∧
          ttlMs.toNat = policy.horizonMs) ∧
    (∀ quotas ttlMs, rRequestPolicyTtlMs policy false quotas = .ok ttlMs ↔
      policy.Admissible ∧ policy.horizonMs ≤ 2 ^ 32 - 1 ∧ ttlMs.toNat = policy.horizonMs) ∧
    (∀ schedule round allowZero, rHaScheduleUnitsExact schedule round.toNat allowZero =
      some ((rHaScheduleUnits schedule round allowZero).map UInt32.toNat)) ∧
    ∀ hasQuotas quotas, rRequestPolicyTtlMsExact policy hasQuotas quotas =
      some ((rRequestPolicyTtlMs policy hasQuotas quotas).map UInt32.toNat) := by
  refine ⟨?_, ?_, rHaScheduleUnitsExact_eq, rRequestPolicyTtlMsExact_eq policy⟩
  · intro word quotas hdecoded ttlMs
    rw [rRequestPolicyTtlMs_eq_ok_iff, maxTtlMs_of_quota (decoded_dedup_pos hdecoded).1]
  · intro quotas ttlMs
    have hmax : (maxTtlMs false quotas).toNat = 2 ^ 32 - 1 := rfl
    rw [rRequestPolicyTtlMs_eq_ok_iff, hmax]

/-- An exponential schedule `2, 6, 9` of units of 100 ms with one unit at the end: the
    horizon of 1800 ms is within a quota of 200 units of ten milliseconds. -/
def samplePolicy : RRequestPolicy where
  unitMs := 100
  replayCount := 2
  replayGap := { kind := .exponential, initialUnits := 2, maxUnits := 9, growth := 3 }
  finalReceiveUnits := 1
  completionDelivery := false

/-- A quota of 200 units for the TTL, and nothing else. -/
def sampleQuotaWord : UInt32 := 104857600

theorem ttl_closed_form_exponential :
    ∃ quotas, rDecodeQuotaWord sampleQuotaWord = some quotas ∧
      rRequestPolicyTtlMs samplePolicy true quotas = .ok 1800 ∧ samplePolicy.Admissible ∧
      samplePolicy.horizonMs = 1800 := by
  have hdecoded : rDecodeQuotaWord sampleQuotaWord = some (quotasOf sampleQuotaWord) := by
    decide +kernel
  have httl : rRequestPolicyTtlMs samplePolicy true (quotasOf sampleQuotaWord) = .ok 1800 := by
    decide +kernel
  obtain ⟨hadmissible, -, hhorizon⟩ :=
    ((ttl_closed_form samplePolicy).1 _ _ hdecoded 1800).mp httl
  exact ⟨_, hdecoded, httl, hadmissible, hhorizon.symm⟩

end RlClient
