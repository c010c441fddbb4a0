import Mathlib.Algebra.Order.Floor.Div
import Mathlib.Data.List.Sort
import RlClient.Ranking

/-!
# The latency histogram of the load generator

Latencies are counted in buckets of 1, 10 and 100 microseconds, with one bucket for what
takes a second or more; a percentile is read off the counts, as the upper end of the bucket
in which the running sum reaches the rank. `OrderStat` relates running sums and ranks, and
the rest is that buckets grow with the latencies.
-/

namespace RlClient

def PERF_LATENCY_OVERFLOW_BUCKET : UInt32 := 28000

def PERF_LATENCY_BUCKETS : Nat := 28001

/-- `perf_latency_bucket`. -/
def perfLatencyBucket (us : UInt64) : UInt32 :=
  if us < 10000 then us.toUInt32
  else if us < 100000 then 10000 + ((us - 10000) / 10).toUInt32
  else if us < 1000000 then 19000 + ((us - 100000) / 100).toUInt32
  else PERF_LATENCY_OVERFLOW_BUCKET

/-- `perf_latency_bucket_upper_us`. -/
def perfLatencyBucketUpperUs (bucket : UInt32) : UInt64 :=
  if bucket < 10000 then bucket.toUInt64 + 1
  else if bucket < 19000 then 10000 + ((bucket - 10000).toUInt64 + 1) * 10
  else if bucket < PERF_LATENCY_OVERFLOW_BUCKET then
    100000 + ((bucket - 19000).toUInt64 + 1) * 100
  else 1000000

abbrev PerfHist := UInt32 → UInt64

def PerfHist.zero : PerfHist := fun _ => 0

/-- `hist[perf_latency_bucket(us)]++`. -/
def perfRecord (hist : PerfHist) (us : UInt64) : PerfHist := fun bucket =>
  if bucket = perfLatencyBucket us then hist bucket + 1 else hist bucket

def perfHistOf (samples : List UInt64) : PerfHist := samples.foldl perfRecord .zero

/-- The sum of the workers' counts, bucket by bucket. -/
def perfMergeHists (workers : List PerfHist) : PerfHist :=
  workers.foldl (fun sum hist bucket => sum bucket + hist bucket) .zero

/-- The loop of `perf_latency_percentile_upper_us`, with the buckets that are left. -/
def percentileLoop (hist : PerfHist) (rank : UInt64) : Nat → UInt32 → UInt64 → UInt64
  | 0, _, _ => 0
  | n + 1, bucket, seen =>
      let seen := seen + hist bucket
      if seen ≥ rank then perfLatencyBucketUpperUs bucket
      else percentileLoop hist rank n (bucket + 1) seen

/-- `perf_latency_percentile_upper_us`; the rank is computed in 128 bits, which it fits. -/
def perfLatencyPercentileUpperUs (hist : PerfHist) (total : UInt64) (percentile : UInt32) :
    UInt64 :=
  if total = 0 || percentile = 0 || percentile > 100 then 0
  else
    let rank := UInt64.ofNat ((total.toNat * percentile.toNat + 99) / 100)
    percentileLoop hist rank PERF_LATENCY_BUCKETS 0 0

/-! ### Buckets -/

theorem toNat_perfLatencyBucket (us : UInt64) :
    (perfLatencyBucket us).toNat =
      if us.toNat < 10000 then us.toNat
      else if us.toNat < 100000 then 10000 + (us.toNat - 10000) / 10
      else if us.toNat < 1000000 then 19000 + (us.toNat - 100000) / 100
      else 28000 := by
  have hlt := us.toNat_lt
  simp only [perfLatencyBucket, PERF_LATENCY_OVERFLOW_BUCKET, UInt64.lt_iff_toNat_lt]
  change UInt32.toNat (if us.toNat < 10000 then _ else if us.toNat < 100000 then _ else
    if us.toNat < 1000000 then _ else _) = _
  split
  · rw [UInt64.toNat_toUInt32]
    omega
  split
  · have hsub : (us - 10000).toNat = us.toNat - 10000 :=
      UInt64.toNat_sub_of_le _ _ (UInt64.le_iff_toNat_le.mpr (Nat.not_lt.mp ‹_›))
    rw [UInt32.toNat_add, UInt64.toNat_toUInt32, UInt64.toNat_div, hsub]
    change (10000 + (us.toNat - 10000) / 10 % 2 ^ 32) % 2 ^ 32 = _
    omega
  split
  · have hsub : (us - 100000).toNat = us.toNat - 100000 :=
      UInt64.toNat_sub_of_le _ _ (UInt64.le_iff_toNat_le.mpr (Nat.not_lt.mp ‹_›))
    rw [UInt32.toNat_add, UInt64.toNat_toUInt32, UInt64.toNat_div, hsub]
    change (19000 + (us.toNat - 100000) / 100 % 2 ^ 32) % 2 ^ 32 = _
    omega
  · rfl

theorem perfLatencyBucket_lt (us : UInt64) : (perfLatencyBucket us).toNat < 28001 := by
  rw [toNat_perfLatencyBucket]
  split
  · omega
  split
  · omega
  split <;> omega

theorem perfLatencyBucket_mono (us us' : UInt64) (h : us ≤ us') :
    (perfLatencyBucket us).toNat ≤ (perfLatencyBucket us').toNat := by
  rw [UInt64.le_iff_toNat_le] at h
  rw [toNat_perfLatencyBucket, toNat_perfLatencyBucket]
  split
  · split
    · exact h
    split
    · omega
    split <;> omega
  split
  · split
    · omega
    split
    · omega
    split <;> omega
  split
  · rw [if_neg (by omega), if_neg (by omega)]
    split <;> omega
  · rw [if_neg (by omega), if_neg (by omega), if_neg (by omega)]

theorem toNat_perfLatencyBucketUpperUs {bucket : UInt32} (h : bucket.toNat < 28001) :
    (perfLatencyBucketUpperUs bucket).toNat =
      if bucket.toNat < 10000 then bucket.toNat + 1
      else if bucket.toNat < 19000 then 10000 + (bucket.toNat - 10000 + 1) * 10
      else if bucket.toNat < 28000 then 100000 + (bucket.toNat - 19000 + 1) * 100
      else 1000000 := by
  simp only [perfLatencyBucketUpperUs, PERF_LATENCY_OVERFLOW_BUCKET, UInt32.lt_iff_toNat_lt]
  change UInt64.toNat (if bucket.toNat < 10000 then _ else if bucket.toNat < 19000 then _ else
    if bucket.toNat < 28000 then _ else _) = _
  split
  · rw [UInt64.toNat_add, UInt32.toNat_toUInt64, UInt64.toNat_one]
    omega
  split
  · have hsub : (bucket - 10000).toNat = bucket.toNat - 10000 :=
      UInt32.toNat_sub_of_le _ _ (UInt32.le_iff_toNat_le.mpr (Nat.not_lt.mp ‹_›))
    rw [UInt64.toNat_add, UInt64.toNat_mul, UInt64.toNat_add, UInt32.toNat_toUInt64, hsub]
    change (10000 + (bucket.toNat - 10000 + 1) % 2 ^ 64 * 10 % 2 ^ 64) % 2 ^ 64 = _
    omega
  split
  · have hsub : (bucket - 19000).toNat = bucket.toNat - 19000 :=
      UInt32.toNat_sub_of_le _ _ (UInt32.le_iff_toNat_le.mpr (Nat.not_lt.mp ‹_›))
    rw [UInt64.toNat_add, UInt64.toNat_mul, UInt64.toNat_add, UInt32.toNat_toUInt64, hsub]
    change (100000 + (bucket.toNat - 19000 + 1) % 2 ^ 64 * 100 % 2 ^ 64) % 2 ^ 64 = _
    omega
  · rfl

theorem toNat_upper_bucket (us : UInt64) :
    (perfLatencyBucketUpperUs (perfLatencyBucket us)).toNat =
      if us.toNat < 10000 then us.toNat + 1
      else if us.toNat < 100000 then us.toNat / 10 * 10 + 10
      else if us.toNat < 1000000 then us.toNat / 100 * 100 + 100
      else 1000000 := by
  rw [toNat_perfLatencyBucketUpperUs (perfLatencyBucket_lt us), toNat_perfLatencyBucket]
  split
  · rfl
  split
  · rw [if_neg (by omega), if_pos (by omega)]
    omega
  split
  · rw [if_neg (by omega), if_neg (by omega), if_pos (by omega)]
    omega
  · rfl

/-! ### Counts -/

theorem foldl_perfRecord (samples : List UInt64) (hist : PerfHist) (bucket : UInt32) :
    samples.foldl perfRecord hist bucket =
      hist bucket + UInt64.ofNat (samples.countP fun us => bucket = perfLatencyBucket us) := by
  induction samples generalizing hist with
  | nil => exact (UInt64.add_zero _).symm
  | cons us samples ih =>
    rw [List.foldl_cons, ih, List.countP_cons]
    by_cases hbucket : bucket = perfLatencyBucket us
    · rw [perfRecord, if_pos hbucket, if_pos (decide_eq_true hbucket), UInt64.ofNat_add,
        UInt64.add_assoc, UInt64.add_comm 1]
      rfl
    · rw [perfRecord, if_neg hbucket, if_neg (by simpa using hbucket), Nat.add_zero]

/-- A count is the number of latencies in its bucket, as far as a word can tell. -/
theorem perfHistOf_apply (samples : List UInt64) (bucket : UInt32) :
    perfHistOf samples bucket =
      UInt64.ofNat (samples.countP fun us => bucket = perfLatencyBucket us) := by
  rw [perfHistOf, foldl_perfRecord]
  exact UInt64.zero_add _

theorem perfHistOf_perm {samples samples' : List UInt64} (h : samples.Perm samples') :
    perfHistOf samples = perfHistOf samples' := by
  funext bucket
  rw [perfHistOf_apply, perfHistOf_apply, h.countP_eq]

/-- **Merging.** The sum of the workers' counts are the counts of all their latencies. -/
theorem perfMergeHists_map (workers : List (List UInt64)) :
    perfMergeHists (workers.map perfHistOf) = perfHistOf workers.flatten := by
  have hsum : ∀ hist : PerfHist, ∀ bucket,
      (workers.map perfHistOf).foldl (fun sum hist bucket => sum bucket + hist bucket) hist bucket =
        hist bucket + perfHistOf workers.flatten bucket := by
    induction workers with
    | nil => exact fun hist bucket => (UInt64.add_zero _).symm
    | cons samples workers ih =>
      intro hist bucket
      rw [List.map_cons, List.foldl_cons, ih, List.flatten_cons, perfHistOf_apply samples,
        perfHistOf_apply workers.flatten, perfHistOf_apply (samples ++ workers.flatten),
        List.countP_append, UInt64.ofNat_add, UInt64.add_assoc]
  funext bucket
  rw [perfMergeHists, hsum]
  exact UInt64.zero_add _

def countBefore (samples : List UInt64) (k : Nat) : Nat :=
  samples.countP fun us => (perfLatencyBucket us).toNat < k

theorem countBefore_succ (samples : List UInt64) (bucket : UInt32) :
    UInt64.ofNat (countBefore samples bucket.toNat) + perfHistOf samples bucket =
      UInt64.ofNat (countBefore samples (bucket.toNat + 1)) := by
  have hsplit : countBefore samples (bucket.toNat + 1) = countBefore samples bucket.toNat +
      samples.countP fun us => bucket = perfLatencyBucket us := by
    induction samples with
    | nil => rfl
    | cons us samples ih =>
      simp only [countBefore, List.countP_cons] at ih ⊢
      rw [ih]
      rcases Nat.lt_trichotomy (perfLatencyBucket us).toNat bucket.toNat with hlt | heq | hgt
      · have hne : bucket ≠ perfLatencyBucket us := fun h => by rw [← h] at hlt; omega
        simp [hlt, hne, Nat.lt_succ_of_lt hlt]
        omega
      · have hsame : bucket = perfLatencyBucket us := UInt32.toNat_inj.mp heq.symm
        simp [← hsame]
        omega
      · have hne : bucket ≠ perfLatencyBucket us := fun h => by rw [← h] at hgt; omega
        simp [hne, Nat.not_lt.mpr (Nat.le_of_lt hgt), Nat.not_lt.mpr (Nat.succ_le_of_lt hgt)]
  rw [hsplit, UInt64.ofNat_add, perfHistOf_apply]

theorem countBefore_le (samples : List UInt64) (k : Nat) :
    countBefore samples k ≤ samples.length := List.countP_le_length

/-! ### The scan -/

/-- The scan ends in the first bucket at which the running sum reaches the rank. -/
theorem percentileLoop_eq {samples : List UInt64} (hlength : samples.length < 2 ^ 64)
    {rank : UInt64} {target : UInt32}
    (htarget : ∀ k, rank.toNat ≤ countBefore samples (k + 1) ↔ target.toNat ≤ k) (n : Nat)
    (bucket : UInt32) (hfrom : bucket.toNat ≤ target.toNat)
    (hto : target.toNat < bucket.toNat + n) :
    percentileLoop (perfHistOf samples) rank n bucket
      (UInt64.ofNat (countBefore samples bucket.toNat)) = perfLatencyBucketUpperUs target := by
  induction n generalizing bucket with
  | zero => omega
  | succ n ih =>
    have hseen : (UInt64.ofNat (countBefore samples (bucket.toNat + 1))).toNat =
        countBefore samples (bucket.toNat + 1) :=
      UInt64.toNat_ofNat_of_lt' (Nat.lt_of_le_of_lt (countBefore_le _ _) hlength)
    rw [percentileLoop, countBefore_succ]
    by_cases hreached : target.toNat ≤ bucket.toNat
    · have hrank := (htarget bucket.toNat).mpr hreached
      rw [if_pos (UInt64.le_iff_toNat_le.mpr (by rw [hseen]; exact hrank)),
        UInt32.toNat_inj.mp (Nat.le_antisymm hfrom hreached)]
    · have hrank := fun h => hreached ((htarget bucket.toNat).mp h)
      have hnext : (bucket + 1).toNat = bucket.toNat + 1 := by
        have hlt := target.toNat_lt
        rw [UInt32.toNat_add, UInt32.toNat_one]
        omega
      rw [if_neg fun h => hrank (by rw [← hseen]; exact UInt64.le_iff_toNat_le.mp h), ← hnext]
      exact ih (bucket + 1) (by omega) (by omega)

/-! ### Percentiles -/

/-- The nearest-rank percentile: the latency of rank `⌈n * p / 100⌉` among `n`. -/
def nearestRank (samples : List UInt64) (percentile : Nat) : Option UInt64 :=
  (samples.insertionSort (· ≤ ·))[samples.length * percentile ⌈/⌉ 100 - 1]?

def bucketWidth (us : UInt64) : Nat :=
  if us.toNat < 10000 then 1 else if us.toNat < 100000 then 10 else 100

/-- The result is the upper end of the bucket of the percentile. -/
theorem perfLatencyPercentileUpperUs_eq {samples : List UInt64} {total : UInt64}
    (htotal : total.toNat = samples.length) (hne : samples ≠ []) {percentile : UInt32}
    (hlow : 1 ≤ percentile.toNat) (hhigh : percentile.toNat ≤ 100) :
    ∃ v, nearestRank samples percentile.toNat = some v ∧
      perfLatencyPercentileUpperUs (perfHistOf samples) total percentile =
        perfLatencyBucketUpperUs (perfLatencyBucket v) := by
  have hlength : samples.length < 2 ^ 64 := htotal ▸ total.toNat_lt
  have hpos : 0 < samples.length := List.length_pos_iff.mpr hne
  have hrank : samples.length * percentile.toNat ⌈/⌉ 100 =
      (samples.length * percentile.toNat + 99) / 100 := Nat.ceilDiv_eq_add_pred_div _ _
  have hbounds : 1 ≤ (samples.length * percentile.toNat + 99) / 100 ∧
      (samples.length * percentile.toNat + 99) / 100 ≤ samples.length := by
    have hleast : samples.length * 1 ≤ samples.length * percentile.toNat :=
      Nat.mul_le_mul_left _ hlow
    have hmost : samples.length * percentile.toNat ≤ samples.length * 100 :=
      Nat.mul_le_mul_left _ hhigh
    omega
  have hindex : samples.length * percentile.toNat ⌈/⌉ 100 - 1 <
      (samples.insertionSort (· ≤ ·)).length := by
    rw [List.length_insertionSort, hrank]
    omega
  refine ⟨_, List.getElem?_eq_getElem hindex, ?_⟩
  have hvalid : ¬ (decide (total = 0) || decide (percentile = 0) || decide (percentile > 100)) =
      true := by
    simp only [Bool.or_eq_true, decide_eq_true_eq, not_or, gt_iff_lt, UInt32.lt_iff_toNat_lt,
      ← UInt64.toNat_inj, ← UInt32.toNat_inj]
    exact ⟨⟨by rw [htotal]; exact Nat.ne_of_gt hpos, Nat.ne_of_gt hlow⟩, Nat.not_lt.mpr hhigh⟩
  rw [perfLatencyPercentileUpperUs, if_neg hvalid, htotal]
  have hword : (UInt64.ofNat ((samples.length * percentile.toNat + 99) / 100)).toNat =
      (samples.length * percentile.toNat + 99) / 100 :=
    UInt64.toNat_ofNat_of_lt' (Nat.lt_of_le_of_lt hbounds.2 hlength)
  have hstart : (0 : UInt64) = UInt64.ofNat (countBefore samples (0 : UInt32).toNat) := by
    simp [countBefore]
  rw [hstart]
  refine percentileLoop_eq hlength (fun k => ?_) PERF_LATENCY_BUCKETS 0 (Nat.zero_le _) ?_
  · -- the rank is reached at `k` exactly when the percentile's bucket is not behind `k`
    have hiff := OrderStat.lt_countP_iff (f := fun us => (perfLatencyBucket us).toNat)
      perfLatencyBucket_mono (List.perm_insertionSort (· ≤ ·) samples)
      (List.pairwise_insertionSort (· ≤ ·) samples) (List.getElem?_eq_getElem hindex) k
    rw [← hiff, hword, hrank]
    have hbefore : countBefore samples (k + 1) =
        samples.countP fun us => (perfLatencyBucket us).toNat ≤ k := by
      refine List.countP_congr fun us _ => ?_
      simp only [decide_eq_true_eq]
      exact Nat.lt_succ_iff
    rw [hbefore]
    omega
  · have hlt := perfLatencyBucket_lt
      (samples.insertionSort (· ≤ ·))[samples.length * percentile.toNat ⌈/⌉ 100 - 1]
    change _ < 0 + 28001
    omega

theorem upper_bucket_mono {us us' : UInt64} (h : us ≤ us') :
    perfLatencyBucketUpperUs (perfLatencyBucket us) ≤
      perfLatencyBucketUpperUs (perfLatencyBucket us') := by
  rw [UInt64.le_iff_toNat_le] at h ⊢
  rw [toNat_upper_bucket, toNat_upper_bucket]
  split
  · split
    · omega
    split
    · omega
    split <;> omega
  split
  · rw [if_neg (by omega)]
    split
    · omega
    split <;> omega
  split
  · rw [if_neg (by omega), if_neg (by omega)]
    split <;> omega
  · rw [if_neg (by omega), if_neg (by omega), if_neg (by omega)]

theorem nearestRank_mono {samples : List UInt64} {p p' : Nat} {v v' : UInt64} (hle : p ≤ p')
    (hv : nearestRank samples p = some v) (hv' : nearestRank samples p' = some v') : v ≤ v' := by
  obtain ⟨hi, rfl⟩ := List.getElem?_eq_some_iff.mp hv
  obtain ⟨hi', rfl⟩ := List.getElem?_eq_some_iff.mp hv'
  have hindex : samples.length * p ⌈/⌉ 100 - 1 ≤ samples.length * p' ⌈/⌉ 100 - 1 := by
    rw [Nat.ceilDiv_eq_add_pred_div, Nat.ceilDiv_eq_add_pred_div]
    have hmul := Nat.mul_le_mul_left samples.length hle
    omega
  rcases Nat.lt_or_eq_of_le hindex with hlt | heq
  · exact List.pairwise_iff_getElem.mp (List.pairwise_insertionSort (· ≤ ·) samples) _ _ hi hi' hlt
  · simp only [heq]
    exact UInt64.le_refl _

/-- The percentiles of `hist` bound those of `samples`, each from above and by no more than
    a bucket, and grow with the percentage. -/
structure BoundsPercentiles (hist : PerfHist) (total : UInt64) (samples : List UInt64) :
    Prop where
  bound : ∀ percentile : UInt32, 1 ≤ percentile.toNat → percentile.toNat ≤ 100 →
    ∃ v, nearestRank samples percentile.toNat = some v ∧
      (v.toNat < 1000000 →
        v.toNat < (perfLatencyPercentileUpperUs hist total percentile).toNat ∧
          (perfLatencyPercentileUpperUs hist total percentile).toNat ≤
            v.toNat + bucketWidth v) ∧
      (1000000 ≤ v.toNat → perfLatencyPercentileUpperUs hist total percentile = 1000000)
  mono : ∀ percentile percentile' : UInt32, 1 ≤ percentile.toNat →
    percentile.toNat ≤ percentile'.toNat → percentile'.toNat ≤ 100 →
    perfLatencyPercentileUpperUs hist total percentile ≤
      perfLatencyPercentileUpperUs hist total percentile'

theorem boundsPercentiles {samples : List UInt64} {total : UInt64}
    (htotal : total.toNat = samples.length) (hne : samples ≠ []) :
    BoundsPercentiles (perfHistOf samples) total samples := by
  constructor
  · intro percentile hlow hhigh
    obtain ⟨v, hv, hresult⟩ := perfLatencyPercentileUpperUs_eq htotal hne hlow hhigh
    refine ⟨v, hv, ?_, ?_⟩
    · intro hbelow
      rw [hresult, toNat_upper_bucket]
      unfold bucketWidth
      split
      · omega
      split <;> omega
    · intro habove
      apply UInt64.toNat_inj.mp
      rw [hresult, toNat_upper_bucket, if_neg (by omega), if_neg (by omega), if_neg (by omega)]
      rfl
  · intro percentile percentile' hlow hle hhigh
    obtain ⟨v, hv, hresult⟩ :=
      perfLatencyPercentileUpperUs_eq htotal hne hlow (hle.trans hhigh)
    obtain ⟨v', hv', hresult'⟩ :=
      perfLatencyPercentileUpperUs_eq htotal hne (hlow.trans hle) hhigh
    rw [hresult, hresult']
    exact upper_bucket_mono (nearestRank_mono hle hv hv')

/-- **Percentiles of a histogram.** For every non-empty list of latencies whose number is
    the total: the percentiles of its counts bound its percentiles, and so do those of the
    sum of the counts of any workers that have these latencies between them. -/
theorem histogram_percentiles (samples : List UInt64) (total : UInt64)
    (htotal : total.toNat = samples.length) (hne : samples ≠ []) :
    BoundsPercentiles (perfHistOf samples) total samples ∧
      ∀ workers : List (List UInt64), workers.flatten.Perm samples →
        BoundsPercentiles (perfMergeHists (workers.map perfHistOf)) total samples := by
  have hbounds := boundsPercentiles htotal hne
  refine ⟨hbounds, fun workers hworkers => ?_⟩
  rw [perfMergeHists_map, perfHistOf_perm hworkers]
  exact hbounds

/-- Two workers, one of them with a latency in the second kind of bucket. -/
theorem histogram_percentiles_two_workers :
    nearestRank [5, 10057, 3] 99 = some 10057 ∧
      BoundsPercentiles (perfMergeHists ([[5], [10057, 3]].map perfHistOf)) 3 [5, 10057, 3] :=
  ⟨by decide, (histogram_percentiles [5, 10057, 3] 3 rfl (by decide)).2 _ (List.Perm.refl _)⟩

end RlClient
