import RlClient.Dns

/-!
# The distance of a forced refresh

A forced refresh keeps a distance from the last one: the configured minimum and a random
part of the configured jitter. The two sums in its computation are not checked. With the
largest jitter the bound of the range, `max + 1`, is zero and the remainder by it is not
defined; with a minimum and a jitter that do not fit together the distance wraps and comes
out below the minimum. Words are added here as the machine adds them, and a remainder by
zero has no value.
-/

namespace RlClient

/-- The remainder of two words, which the language defines for a divisor other than zero. -/
def remDefined (a b : UInt64) : Option UInt64 := if b = 0 then none else some (a % b)

/-- `r_rand_range`, where it is defined. -/
def rRandRangeDefined (max : UInt64) (draw : Option UInt64) : Option UInt64 :=
  if max = 0 then some 0
  else
    match draw with
    | none => some 0
    | some value => remDefined value (max + 1)

/-- The configured minimum; zero stands for a second. -/
def forcedBaseMs (policy : RDnsRefreshPolicy) : UInt64 :=
  if policy.forcedRefreshMinIntervalMs = 0 then 1000 else policy.forcedRefreshMinIntervalMs

/-- `min_interval` of a forced `r_dns_maybe_refresh`, where it is defined. -/
def forcedIntervalDefined (policy : RDnsRefreshPolicy) (draw : Option UInt64) : Option UInt64 :=
  if policy.forcedRefreshJitterMs > 0 then do
    let range ← rRandRangeDefined policy.forcedRefreshJitterMs draw
    some (forcedBaseMs policy + range)
  else some (forcedBaseMs policy)

/-- The forced decision of `r_dns_maybe_refresh`. The interval is computed first, also when
    there has been no refresh to keep a distance from. -/
def forcedDueDefined (membership : RMembership) (policy : RDnsRefreshPolicy) (io : RefreshIo) :
    Option Bool := do
  let minInterval ← forcedIntervalDefined policy io.jitterDraw
  some (!(membership.lastDnsRefreshMs != 0
    && decide (io.nowMs - membership.lastDnsRefreshMs < minInterval)))

/-! ### The computation with every remainder defined -/

theorem rRandRangeDefined_eq {max range : UInt64} {draw : Option UInt64}
    (h : rRandRangeDefined max draw = some range) : rRandRange max draw = range := by
  unfold rRandRangeDefined at h
  unfold rRandRange
  by_cases hmax : max = 0
  · rw [if_pos hmax] at h ⊢
    exact Option.some.inj h
  · rw [if_neg hmax] at h ⊢
    cases draw with
    | none => exact Option.some.inj h
    | some value =>
      simp only [remDefined] at h
      split at h
      · cases h
      · exact Option.some.inj h

theorem forcedIntervalDefined_eq {policy : RDnsRefreshPolicy} {draw : Option UInt64}
    {interval : UInt64} (h : forcedIntervalDefined policy draw = some interval) :
    forcedIntervalMs policy draw = interval := by
  unfold forcedIntervalDefined at h
  unfold forcedIntervalMs
  by_cases hjitter : policy.forcedRefreshJitterMs > 0
  · rw [if_pos hjitter] at h ⊢
    obtain ⟨range, hrange, hsum⟩ := Option.bind_eq_some_iff.mp h
    rw [rRandRangeDefined_eq hrange]
    exact Option.some.inj hsum
  · rw [if_neg hjitter] at h ⊢
    exact Option.some.inj h

/-- Where the interval is defined the decision is the client's. -/
theorem forcedDueDefined_eq {policy : RDnsRefreshPolicy} {io : RefreshIo} {interval : UInt64}
    (h : forcedIntervalDefined policy io.jitterDraw = some interval) (membership : RMembership) :
    forcedDueDefined membership policy io = some (refreshDue membership policy true io) := by
  simp [forcedDueDefined, refreshDue, h, forcedIntervalDefined_eq h]

/-- The range and the distance it gives are computed together: without jitter both are
    trivial. -/
theorem forcedIntervalDefined_of_range {policy : RDnsRefreshPolicy} {draw : Option UInt64}
    {range : UInt64} (h : rRandRangeDefined policy.forcedRefreshJitterMs draw = some range) :
    forcedIntervalDefined policy draw = some (forcedBaseMs policy + range) := by
  unfold forcedIntervalDefined
  by_cases hjitter : policy.forcedRefreshJitterMs > 0
  · rw [if_pos hjitter, h]
    rfl
  · have hzero : policy.forcedRefreshJitterMs = 0 := by
      apply UInt64.toNat_inj.mp
      simpa [UInt64.lt_iff_toNat_lt] using hjitter
    unfold rRandRangeDefined at h
    rw [if_pos hzero] at h
    rw [if_neg hjitter, ← Option.some.inj h, UInt64.add_zero]

theorem rRandRangeDefined_of_lt {max : UInt64} (hmax : max.toNat + 1 < 2 ^ 64) (value : UInt64) :
    ∃ range, rRandRangeDefined max (some value) = some range ∧
      range.toNat = value.toNat % (max.toNat + 1) := by
  have hbound : (max + 1).toNat = max.toNat + 1 := by
    rw [UInt64.toNat_add, UInt64.toNat_one, Nat.mod_eq_of_lt hmax]
  unfold rRandRangeDefined
  by_cases hzero : max = 0
  · refine ⟨0, if_pos hzero, ?_⟩
    rw [hzero]
    exact (Nat.mod_one _).symm
  · have hdefined : max + 1 ≠ 0 := by
      intro h
      have := congrArg UInt64.toNat h
      rw [hbound, UInt64.toNat_zero] at this
      omega
    refine ⟨value % (max + 1), ?_, ?_⟩
    · rw [if_neg hzero]
      exact if_neg hdefined
    · rw [UInt64.toNat_mod, hbound]

/-- With the largest jitter the range has no value. -/
theorem rRandRangeDefined_of_not_lt {max : UInt64} (hmax : ¬ max.toNat + 1 < 2 ^ 64)
    (value : UInt64) : rRandRangeDefined max (some value) = none := by
  have hlt := max.toNat_lt
  have hlargest : max = 18446744073709551615 := by
    apply UInt64.toNat_inj.mp
    change max.toNat = 18446744073709551615
    omega
  rw [hlargest]
  rfl

theorem rRandRangeDefined_none (max : UInt64) : rRandRangeDefined max none = some 0 := by
  unfold rRandRangeDefined
  split <;> rfl

/-! ### When the distance is the minimum and the range -/

/-- What a forced decision is to find: a range within the jitter, a distance that is the
    minimum and the range, and no undefined step, whatever the client remembers. -/
def DistanceKept (policy : RDnsRefreshPolicy) (draw : Option UInt64) : Prop :=
  ∃ range interval, rRandRangeDefined policy.forcedRefreshJitterMs draw = some range ∧
    range ≤ policy.forcedRefreshJitterMs ∧
    forcedIntervalDefined policy draw = some interval ∧
    interval.toNat = (forcedBaseMs policy).toNat + range.toNat ∧
    forcedBaseMs policy ≤ interval ∧
    ∀ membership nowMs progress,
      forcedDueDefined membership policy ⟨nowMs, draw, progress⟩ =
        some (refreshDue membership policy true ⟨nowMs, draw, progress⟩)

theorem distanceKept_of_range {policy : RDnsRefreshPolicy} {draw : Option UInt64}
    {range : UInt64} (hrange : rRandRangeDefined policy.forcedRefreshJitterMs draw = some range)
    (hle : range ≤ policy.forcedRefreshJitterMs)
    (hsum : (forcedBaseMs policy).toNat + range.toNat < 2 ^ 64) : DistanceKept policy draw := by
  have hinterval := forcedIntervalDefined_of_range hrange
  have hexact : (forcedBaseMs policy + range).toNat =
      (forcedBaseMs policy).toNat + range.toNat := by
    rw [UInt64.toNat_add, Nat.mod_eq_of_lt hsum]
  refine ⟨range, _, hrange, hle, hinterval, hexact, ?_, fun membership nowMs progress => ?_⟩
  · rw [UInt64.le_iff_toNat_le, hexact]
    exact Nat.le_add_right _ _
  · exact forcedDueDefined_eq hinterval membership

/-- When the source of randomness fails the range is empty. -/
theorem distanceKept_none (policy : RDnsRefreshPolicy) : DistanceKept policy none := by
  refine distanceKept_of_range (rRandRangeDefined_none _) ?_ ?_
  · exact UInt64.zero_le
  · rw [UInt64.toNat_zero]
    exact (forcedBaseMs policy).toNat_lt

theorem distanceKept_some_iff (policy : RDnsRefreshPolicy) (value : UInt64) :
    DistanceKept policy (some value) ↔
      policy.forcedRefreshJitterMs.toNat + 1 < 2 ^ 64 ∧
        (forcedBaseMs policy).toNat + value.toNat % (policy.forcedRefreshJitterMs.toNat + 1)
          < 2 ^ 64 := by
  constructor
  · rintro ⟨range, interval, hrange, -, -, hexact, -⟩
    have hjitter : policy.forcedRefreshJitterMs.toNat + 1 < 2 ^ 64 := by
      by_contra hlargest
      rw [rRandRangeDefined_of_not_lt hlargest] at hrange
      cases hrange
    obtain ⟨range', hrange', hvalue⟩ := rRandRangeDefined_of_lt hjitter value
    obtain rfl : range = range' := Option.some.inj (hrange.symm.trans hrange')
    rw [← hvalue, ← hexact]
    exact ⟨hjitter, interval.toNat_lt⟩
  · rintro ⟨hjitter, hsum⟩
    obtain ⟨range, hrange, hvalue⟩ := rRandRangeDefined_of_lt hjitter value
    refine distanceKept_of_range hrange ?_ (by rwa [hvalue])
    rw [UInt64.le_iff_toNat_le, hvalue]
    exact Nat.le_of_lt_succ (Nat.mod_lt _ (Nat.succ_pos _))

/-- **When a forced refresh keeps its distance.** For every policy and every draw: unless
    the source of randomness fails, the decision is defined and its distance is the minimum
    and a part of the jitter exactly when the jitter is not the largest word and the minimum
    fits together with the part that is drawn. That it is so for every draw says that the
    minimum and the whole jitter fit together. -/
theorem forced_distance_kept_iff (policy : RDnsRefreshPolicy) :
    (∀ draw, DistanceKept policy draw ↔
      ∀ value, draw = some value →
        policy.forcedRefreshJitterMs.toNat + 1 < 2 ^ 64 ∧
          (forcedBaseMs policy).toNat + value.toNat % (policy.forcedRefreshJitterMs.toNat + 1)
            < 2 ^ 64) ∧
    ((∀ draw, DistanceKept policy draw) ↔
      (forcedBaseMs policy).toNat + policy.forcedRefreshJitterMs.toNat < 2 ^ 64) := by
  have hpos : 0 < (forcedBaseMs policy).toNat := by
    unfold forcedBaseMs
    split
    · decide
    · rename_i hne
      exact Nat.pos_of_ne_zero fun h => hne (UInt64.toNat_inj.mp h)
  refine ⟨fun draw => ?_, ⟨fun hall => ?_, fun hfits draw => ?_⟩⟩
  · cases draw with
    | none => exact iff_of_true (distanceKept_none policy) (by simp)
    | some value => simp [distanceKept_some_iff]
  · -- the whole jitter is one of the draws
    have hlargest := (distanceKept_some_iff policy policy.forcedRefreshJitterMs).mp (hall _)
    rw [Nat.mod_eq_of_lt (Nat.lt_succ_self _)] at hlargest
    exact hlargest.2
  · cases draw with
    | none => exact distanceKept_none policy
    | some value =>
      have hmod := Nat.mod_lt value.toNat (Nat.succ_pos policy.forcedRefreshJitterMs.toNat)
      refine (distanceKept_some_iff policy value).mpr ⟨by omega, ?_⟩
      simp only [Nat.succ_eq_add_one] at hmod
      omega

/-- With the largest jitter the first refresh of a new client is already undefined; with the
    largest minimum and a jitter of one, a draw of one makes the distance zero. -/
theorem forced_distance_undefined :
    forcedDueDefined .empty ⟨0, 0, 18446744073709551615⟩ ⟨0, some 5, .pending⟩ = none ∧
      forcedIntervalDefined ⟨0, 18446744073709551615, 1⟩ (some 1) = some 0 ∧
      ¬ DistanceKept ⟨0, 0, 18446744073709551615⟩ (some 5) ∧
      ¬ DistanceKept ⟨0, 18446744073709551615, 1⟩ (some 1) := by
  refine ⟨by decide, by decide, ?_, ?_⟩
  · rw [distanceKept_some_iff]
    decide
  · rw [distanceKept_some_iff]
    decide

end RlClient
