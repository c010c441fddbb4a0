import Mathlib.Algebra.BigOperators.Intervals
import Mathlib.Algebra.Order.BigOperators.Group.Finset
import RlClient.Request

/-!
# The schedule in plain arithmetic

What a request policy means: round `k` lasts `gapUnits k` units, where the three
kinds of schedule are capped sequences of natural numbers. The 32-bit and 64-bit
computations of `r_ha_schedule_units` and `r_request_policy_ttl_ms` are shown to
compute these numbers exactly, for every policy they accept.
-/

namespace RlClient

open Finset (range sum_range_succ)

/-- `B(k)`: the duration of round `k` in units. -/
def RHaSchedule.gapUnits (schedule : RHaSchedule) (k : Nat) : Nat :=
  match schedule.kind with
  | .fixed => schedule.initialUnits.toNat
  | .linear => min schedule.maxUnits.toNat
      (schedule.initialUnits.toNat + k * schedule.growth.toNat)
  | .exponential => min schedule.maxUnits.toNat
      (schedule.initialUnits.toNat * schedule.growth.toNat ^ k)
  | .unknown _ => 0

def RHaSchedule.unitsThrough (schedule : RHaSchedule) (k : Nat) : Nat :=
  ∑ i ∈ range (k + 1), schedule.gapUnits i

theorem unitsThrough_succ (schedule : RHaSchedule) (k : Nat) :
    schedule.unitsThrough (k + 1) = schedule.unitsThrough k + schedule.gapUnits (k + 1) :=
  sum_range_succ _ _

theorem unitsThrough_zero (schedule : RHaSchedule) :
    schedule.unitsThrough 0 = schedule.gapUnits 0 := by
  simp [RHaSchedule.unitsThrough]

theorem unitsThrough_mono (schedule : RHaSchedule) {j k : Nat} (h : j ≤ k) :
    schedule.unitsThrough j ≤ schedule.unitsThrough k :=
  Finset.sum_le_sum_of_subset (Finset.range_mono (Nat.succ_le_succ h))

/-- The horizon `U * (B(0) + ... + B(N) + F)` of a policy, in milliseconds. -/
def RRequestPolicy.horizonMs (policy : RRequestPolicy) : Nat :=
  policy.unitMs.toNat * (policy.replayGap.unitsThrough policy.replayCount.toNat +
    policy.finalReceiveUnits.toNat)

/-! ### One round -/

theorem linear_units {initial max step round : Nat} (hstep : 0 < step) (hle : initial ≤ max) :
    (if round > (max - initial) / step then max else initial + round * step) =
      min max (initial + round * step) := by
  by_cases hround : round > (max - initial) / step
  · rw [if_pos hround]
    have hover : max - initial < round * step := (Nat.div_lt_iff_lt_mul hstep).mp hround
    omega
  · rw [if_neg hround]
    have hfit : round * step ≤ max - initial := by
      calc round * step ≤ (max - initial) / step * step :=
            Nat.mul_le_mul_right step (Nat.not_lt.mp hround)
        _ ≤ max - initial := Nat.div_mul_le_self _ _
    omega

theorem exponentialUnits_toNat {factor maxUnits : UInt32} (hfactor : 2 ≤ factor.toNat) (n : Nat)
    {value : UInt32} (hvalue : value.toNat ≤ maxUnits.toNat) :
    (exponentialUnits factor maxUnits n value).toNat =
      min maxUnits.toNat (value.toNat * factor.toNat ^ n) := by
  induction n generalizing value with
  | zero =>
    rw [exponentialUnits, pow_zero, Nat.mul_one, Nat.min_eq_right hvalue]
  | succ n ih =>
    unfold exponentialUnits
    have hpow : 1 ≤ factor.toNat ^ n := Nat.one_le_pow _ _ (by omega)
    have hgrow : value.toNat * factor.toNat ^ (n + 1) =
        value.toNat * factor.toNat * factor.toNat ^ n := by
      rw [pow_succ', Nat.mul_assoc]
    by_cases hlt : value < maxUnits
    · rw [if_pos hlt, hgrow]
      rw [UInt32.lt_iff_toNat_lt] at hlt
      by_cases hbig : value > maxUnits / factor
      · -- one more factor would pass the cap
        rw [if_pos hbig, ih (Nat.le_refl _)]
        have hover : maxUnits.toNat < value.toNat * factor.toNat := by
          change maxUnits / factor < value at hbig
          rw [UInt32.lt_iff_toNat_lt, UInt32.toNat_div] at hbig
          exact (Nat.div_lt_iff_lt_mul (by omega)).mp hbig
        have hcap : maxUnits.toNat ≤ maxUnits.toNat * factor.toNat ^ n :=
          Nat.le_mul_of_pos_right _ hpow
        have hcap' : maxUnits.toNat ≤ value.toNat * factor.toNat * factor.toNat ^ n :=
          Nat.le_trans (Nat.le_of_lt hover) (Nat.le_mul_of_pos_right _ hpow)
        rw [Nat.min_eq_left hcap, Nat.min_eq_left hcap']
      · rw [if_neg hbig]
        have hfit : value.toNat * factor.toNat ≤ maxUnits.toNat := by
          have hle : value ≤ maxUnits / factor := UInt32.not_lt.mp hbig
          rw [UInt32.le_iff_toNat_le, UInt32.toNat_div] at hle
          exact Nat.mul_le_of_le_div _ _ _ hle
        have hmul : (value * factor).toNat = value.toNat * factor.toNat := by
          rw [UInt32.toNat_mul]
          exact Nat.mod_eq_of_lt (Nat.lt_of_le_of_lt hfit maxUnits.toNat_lt)
        rw [ih (by rw [hmul]; exact hfit), hmul]
    · rw [if_neg hlt]
      have hmax : value.toNat = maxUnits.toNat := by
        rw [UInt32.lt_iff_toNat_lt] at hlt
        omega
      have hcap : maxUnits.toNat ≤ value.toNat * factor.toNat ^ (n + 1) := by
        rw [hmax]
        exact Nat.le_mul_of_pos_right _ (Nat.one_le_pow _ _ (by omega))
      rw [Nat.min_eq_left hcap, hmax]

/-- `r_ha_schedule_units` computes `B(k)`. -/
theorem rHaScheduleUnits_toNat {schedule : RHaSchedule} {round units : UInt32} {allowZero : Bool}
    (h : rHaScheduleUnits schedule round allowZero = .ok units) :
    units.toNat = schedule.gapUnits round.toNat := by
  unfold rHaScheduleUnits at h
  split at h
  · exact absurd h (by simp)
  rename_i hvalid
  have hle : schedule.initialUnits.toNat ≤ schedule.maxUnits.toNat := by
    have hnot : ¬ schedule.initialUnits > schedule.maxUnits := by
      intro hgt
      exact hvalid (by simp [hgt])
    exact UInt32.le_iff_toNat_le.mp (UInt32.not_lt.mp hnot)
  unfold RHaSchedule.gapUnits
  cases hkind : schedule.kind with
  | fixed =>
    simp only [hkind] at h ⊢
    rw [← Except.ok.inj h]
  | linear =>
    simp only [hkind] at h ⊢
    split at h
    · exact absurd h (by simp)
    rename_i hstep
    have hpos : 0 < schedule.growth.toNat := by
      rw [Nat.pos_iff_ne_zero]
      intro hzero
      exact hstep (UInt32.toNat_inj.mp hzero)
    rw [← linear_units hpos hle]
    have hroom : (schedule.maxUnits - schedule.initialUnits).toNat =
        schedule.maxUnits.toNat - schedule.initialUnits.toNat :=
      UInt32.toNat_sub_of_le _ _ (UInt32.le_iff_toNat_le.mpr hle)
    split at h
    · rename_i hover
      have hover' : round.toNat >
          (schedule.maxUnits.toNat - schedule.initialUnits.toNat) / schedule.growth.toNat := by
        have := UInt32.lt_iff_toNat_lt.mp hover
        rwa [UInt32.toNat_div, hroom] at this
      rw [if_pos hover', ← Except.ok.inj h]
    · rename_i hfit
      have hfit' : ¬ round.toNat >
          (schedule.maxUnits.toNat - schedule.initialUnits.toNat) / schedule.growth.toNat := by
        have := mt UInt32.lt_iff_toNat_lt.mpr hfit
        rwa [UInt32.toNat_div, hroom] at this
      rw [if_neg hfit', ← Except.ok.inj h]
      have hmul : round.toNat * schedule.growth.toNat ≤
          schedule.maxUnits.toNat - schedule.initialUnits.toNat :=
        Nat.mul_le_of_le_div _ _ _ (Nat.not_lt.mp hfit')
      have hmax := schedule.maxUnits.toNat_lt
      rw [UInt32.toNat_add, UInt32.toNat_mul, Nat.mod_eq_of_lt (a := _ * _) (by omega),
        Nat.mod_eq_of_lt (by omega)]
  | exponential =>
    simp only [hkind] at h ⊢
    split at h
    · exact absurd h (by simp)
    rename_i hfactor
    have htwo : 2 ≤ schedule.growth.toNat := by
      have := mt UInt32.lt_iff_toNat_lt.mpr hfactor
      exact Nat.not_lt.mp this
    rw [← Except.ok.inj h]
    exact exponentialUnits_toNat htwo _ hle
  | unknown value =>
    simp only [hkind] at h
    exact absurd h (by simp)

/-! ### The horizon -/

theorem toNat_room (x : UInt32) : (UINT64_MAX - x.toUInt64).toNat = 2 ^ 64 - 1 - x.toNat := by
  have hwiden : x.toUInt64.toNat = x.toNat := by simp
  have hx := x.toNat_lt
  rw [UInt64.toNat_sub_of_le, hwiden]
  · rfl
  · rw [UInt64.le_iff_toNat_le, hwiden]
    simp only [UINT64_MAX, UInt64.reduceToNat]
    omega

/-- The overflow check the source makes before it adds a 32-bit word. -/
theorem toNat_add_of_le_max {a : UInt64} {x : UInt32} (h : a ≤ UINT64_MAX - x.toUInt64) :
    (a + x.toUInt64).toNat = a.toNat + x.toNat := by
  have hwiden : x.toUInt64.toNat = x.toNat := by simp
  have hx := x.toNat_lt
  have hle := UInt64.le_iff_toNat_le.mp h
  rw [toNat_room] at hle
  rw [UInt64.toNat_add, hwiden]
  omega

/-- `ttlRounds` adds up the rounds from `round` on, each of which has a schedule. -/
theorem ttlRounds_toNat {policy : RRequestPolicy} {limit : UInt64} {remaining : Nat}
    {round : UInt32} {total result : UInt64} (hround : round.toNat + remaining < 2 ^ 32)
    (h : ttlRounds policy limit remaining round total = .ok result) :
    result.toNat = total.toNat +
        ∑ i ∈ range remaining, policy.replayGap.gapUnits (round.toNat + i) ∧
      ∀ i < remaining, ∃ units, rHaScheduleUnits policy.replayGap (UInt32.ofNat (round.toNat + i))
        false = .ok units := by
  induction remaining generalizing round total with
  | zero =>
    rw [ttlRounds] at h
    rw [← Except.ok.inj h]
    exact ⟨by simp, fun i hi => absurd hi (Nat.not_lt_zero i)⟩
  | succ remaining ih =>
    unfold ttlRounds at h
    split at h
    · exact absurd h (by simp)
    rename_i units hunits
    simp only at h
    split at h
    · exact absurd h (by simp)
    rename_i hfits
    split at h
    · exact absurd h (by simp)
    have hnext : (round + 1).toNat = round.toNat + 1 := by
      rw [UInt32.toNat_add, UInt32.toNat_one]
      omega
    have hsum := toNat_add_of_le_max (UInt64.not_lt.mp hfits)
    obtain ⟨hresult, hschedules⟩ := ih (by omega) h
    constructor
    · rw [hresult, hsum, hnext, Finset.sum_range_succ', rHaScheduleUnits_toNat hunits]
      simp only [Nat.add_zero, Nat.add_assoc, Nat.add_comm 1]
      omega
    · intro i hi
      cases i with
      | zero =>
        refine ⟨units, ?_⟩
        rw [Nat.add_zero, UInt32.ofNat_toNat]
        exact hunits
      | succ i =>
        obtain ⟨next, hnextUnits⟩ := hschedules i (by omega)
        refine ⟨next, ?_⟩
        rw [hnext, Nat.add_assoc, Nat.add_comm 1] at hnextUnits
        exact hnextUnits

/-- The checks a policy has passed when it has a TTL, and how the TTL is formed. -/
theorem rRequestPolicyTtlMs_ok {policy : RRequestPolicy} {hasQuotas : Bool}
    {quotas : RBech32Quotas} {ttlMs : UInt32}
    (h : rRequestPolicyTtlMs policy hasQuotas quotas = .ok ttlMs) :
    0 < policy.unitMs.toNat ∧ policy.replayCount.toNat ≤ 65535 ∧
      ∃ total : UInt64,
        ttlRounds policy (maxTtlMs hasQuotas quotas) (policy.replayCount.toNat + 1) 0 0 =
          .ok total ∧
        (total + policy.finalReceiveUnits.toUInt64).toNat =
          total.toNat + policy.finalReceiveUnits.toNat ∧
        total + policy.finalReceiveUnits.toUInt64 ≤ UINT32_MAX / policy.unitMs ∧
        total + policy.finalReceiveUnits.toUInt64 ≤ maxTtlMs hasQuotas quotas / policy.unitMs ∧
        ttlMs = ((total + policy.finalReceiveUnits.toUInt64) * policy.unitMs).toUInt32 := by
  unfold rRequestPolicyTtlMs at h
  split at h
  · exact absurd h (by simp)
  rename_i hvalid
  have hcount : policy.replayCount.toNat ≤ 65535 := by
    have hnot : ¬ policy.replayCount > R_CLIENT_HA_MAX_REPLAY_COUNT := by
      intro hgt
      exact hvalid (by simp [hgt])
    exact UInt32.le_iff_toNat_le.mp (UInt32.not_lt.mp hnot)
  have hunit : 0 < policy.unitMs.toNat := by
    rw [Nat.pos_iff_ne_zero]
    intro hzero
    have hzero64 : policy.unitMs = 0 := UInt64.toNat_inj.mp hzero
    exact hvalid (by simp [hzero64])
  simp only at h
  split at h
  · exact absurd h (by simp)
  split at h
  · exact absurd h (by simp)
  rename_i total htotal
  split at h
  · exact absurd h (by simp)
  rename_i hfits
  split at h
  · exact absurd h (by simp)
  rename_i hbounds
  refine ⟨hunit, hcount, total, htotal, toNat_add_of_le_max (UInt64.not_lt.mp hfits), ?_, ?_,
    (Except.ok.inj h).symm⟩
  · apply UInt64.not_lt.mp
    intro hgt
    exact hbounds (by simp [hgt])
  · apply UInt64.not_lt.mp
    intro hgt
    exact hbounds (by simp [hgt])

/-- A policy that `r_request_policy_ttl_ms` accepts: the TTL is the horizon, and
    every round up to `N` has a schedule. -/
theorem rRequestPolicyTtlMs_toNat {policy : RRequestPolicy} {hasQuotas : Bool}
    {quotas : RBech32Quotas} {ttlMs : UInt32}
    (h : rRequestPolicyTtlMs policy hasQuotas quotas = .ok ttlMs) :
    ttlMs.toNat = policy.horizonMs ∧
      ∀ k ≤ policy.replayCount.toNat, ∃ units,
        rHaScheduleUnits policy.replayGap (UInt32.ofNat k) false = .ok units := by
  obtain ⟨-, hcount, total, htotal, hunits, hwire, -, rfl⟩ := rRequestPolicyTtlMs_ok h
  obtain ⟨hrounds, hschedules⟩ := ttlRounds_toNat (by simp; omega) htotal
  simp only [UInt64.toNat_zero, UInt32.toNat_zero, Nat.zero_add] at hrounds hschedules
  constructor
  · -- the product is checked against the width of the wire field before it is formed
    have hfit : (total + policy.finalReceiveUnits.toUInt64).toNat * policy.unitMs.toNat ≤
        2 ^ 32 - 1 := by
      have hle := UInt64.le_iff_toNat_le.mp hwire
      rw [UInt64.toNat_div] at hle
      exact Nat.mul_le_of_le_div _ _ _ hle
    rw [UInt64.toNat_toUInt32, UInt64.toNat_mul, Nat.mod_eq_of_lt (a := _ * _) (by omega),
      Nat.mod_eq_of_lt (by omega), hunits, hrounds, Nat.mul_comm]
    rfl
  · intro k hk
    exact hschedules k (by omega)

end RlClient
