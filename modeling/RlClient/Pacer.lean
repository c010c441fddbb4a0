import Mathlib.Algebra.Order.BigOperators.Group.List
import Mathlib.Algebra.Order.Floor.Div
import Mathlib.Data.List.Basic
import Mathlib.Tactic.Ring
import Mathlib.Tactic.Simps.Basic
import RlClient.Request
import RlClient.Numerals

/-!
# The pacer of the load generator

`perf_pacer_next` hands a worker the next slot of a fixed-rate schedule that is not in
the past. The slots of all workers lie on one grid: slot `s` is due `s / rate` seconds
after the start, rounded down to a nanosecond, and worker `w` owns the slots that are
`w` modulo the number of workers. Rounding the elapsed time up to a slot and the slot
down to a time fit together: the due time of the first slot that is not before the
clock is not before the clock either.
-/

namespace RlClient

/-! ### The pacer -/

/-- `perf_pacer_t`, over the type of its words. -/
structure PerfPacer (Word : Type) where
  startNs : Word
  endNs : Word
  targetRps : Word
  workerCount : Word
  workerId : Word
  nextOrdinal : Word
  skippedSlots : Word
deriving DecidableEq, Repr

@[simps]
def PerfPacer.map {Word Word' : Type} (f : Word → Word') (p : PerfPacer Word) :
    PerfPacer Word' where
  startNs := f p.startNs
  endNs := f p.endNs
  targetRps := f p.targetRps
  workerCount := f p.workerCount
  workerId := f p.workerId
  nextOrdinal := f p.nextOrdinal
  skippedSlots := f p.skippedSlots

abbrev PerfPacer.numbers (p : PerfPacer UInt64) : PerfPacer Nat := p.map UInt64.toNat

def NS_PER_SEC : Nat := 1000000000

def perfPacerInit (startNs targetRps workerCount workerId durationNs : UInt64) :
    Option (PerfPacer UInt64) :=
  if targetRps == 0 || targetRps > 1000000 || workerCount == 0 ||
      workerId ≥ workerCount || durationNs == 0 || durationNs > UINT64_MAX - startNs then
    none
  else
    some {
      startNs := startNs
      endNs := startNs + durationNs
      targetRps := targetRps
      workerCount := workerCount
      workerId := workerId
      nextOrdinal := 0
      skippedSlots := 0 }

namespace PerfPacer

def elapsedNs (p : PerfPacer UInt64) (nowNs : UInt64) : UInt64 :=
  if nowNs > p.startNs then nowNs - p.startNs else 0

/-- The product and the sum are of type `__uint128_t`, and the quotient is cut to 64
    bits. -/
def currentSlot (p : PerfPacer UInt64) (nowNs : UInt64) : UInt64 :=
  UInt64.ofNat
    (((p.elapsedNs nowNs).toNat * p.targetRps.toNat + 999999999) % 2 ^ 128 / NS_PER_SEC)

def desiredOrdinal (p : PerfPacer UInt64) (nowNs : UInt64) : UInt64 :=
  if p.currentSlot nowNs > p.workerId then
    (p.currentSlot nowNs - p.workerId + p.workerCount - 1) / p.workerCount
  else 0

def catchUp (p : PerfPacer UInt64) (nowNs : UInt64) : PerfPacer UInt64 :=
  if p.desiredOrdinal nowNs > p.nextOrdinal then
    { p with
      skippedSlots := p.skippedSlots + (p.desiredOrdinal nowNs - p.nextOrdinal)
      nextOrdinal := p.desiredOrdinal nowNs }
  else p

def slot (p : PerfPacer UInt64) : UInt64 := p.workerId + p.nextOrdinal * p.workerCount

def offsetNs (p : PerfPacer UInt64) : UInt64 :=
  UInt64.ofNat (p.slot.toNat * NS_PER_SEC % 2 ^ 128 / p.targetRps.toNat)

/-- The slot the pacer is at is offered, unless it is past the end. -/
def takeSlot (p : PerfPacer UInt64) : PerfPacer UInt64 × Option UInt64 :=
  if p.offsetNs ≥ p.endNs - p.startNs then (p, none)
  else ({ p with nextOrdinal := p.nextOrdinal + 1 }, some (p.startNs + p.offsetNs))

end PerfPacer

/-- The pacer after the call, and the due time if the call returns true. -/
def perfPacerNext (p : PerfPacer UInt64) (nowNs : UInt64) : PerfPacer UInt64 × Option UInt64 :=
  if nowNs ≥ p.endNs then (p, none) else (p.catchUp nowNs).takeSlot

/-- A slot that a call has offered: the clock it was given, and the time it returned. -/
structure PacedSlot where
  nowNs : UInt64
  slot : UInt64
  dueNs : UInt64
deriving DecidableEq, Repr

def PerfPacer.offer (p : PerfPacer UInt64) (nowNs : UInt64) : List PacedSlot :=
  (perfPacerNext p nowNs).2.toList.map fun dueNs => ⟨nowNs, (p.catchUp nowNs).slot, dueNs⟩

/-- The calls of one worker, with the slots they offered. -/
def perfPacerRun (p : PerfPacer UInt64) : List UInt64 → PerfPacer UInt64 × List PacedSlot
  | [] => (p, [])
  | nowNs :: clock =>
      let rest := perfPacerRun (perfPacerNext p nowNs).1 clock
      (rest.1, p.offer nowNs ++ rest.2)

/-! ### The worker's loop -/

/-- One turn of a paced worker's loop: the clock before the call, whether the sleep
    until the due time succeeded, and the clock after it. -/
structure PacedTurn where
  nowNs : UInt64
  slept : Bool
  awakeNs : UInt64

def workerPacer (startNs targetRps workerCount workerId durationSecs : UInt64) :
    Option (PerfPacer UInt64) :=
  perfPacerInit startNs targetRps workerCount workerId (durationSecs * 1000000000)

/-- The logical starts of `perf_worker` with a target rate. -/
def perfWorkerStarts (p : PerfPacer UInt64) : List PacedTurn → Nat
  | [] => 0
  | turn :: turns =>
      match perfPacerNext p turn.nowNs with
      | (_, none) => 0
      | (p, some _) =>
          if !turn.slept then 0
          else if turn.awakeNs ≥ p.endNs then 0
          else perfWorkerStarts p turns + 1

/-- The count of missed slots that is reported at the end. -/
def missedSlots (targetRps durationSecs logicalStarts : UInt64) : UInt64 :=
  targetRps * durationSecs - logicalStarts

/-! ### The same on numbers that may not wrap -/

def perfPacerInitExact (startNs targetRps workerCount workerId durationNs : Nat) :
    Option (Option (PerfPacer Nat)) := do
  if targetRps = 0 ∨ targetRps > 1000000 ∨ workerCount = 0 ∨ workerId ≥ workerCount ∨
      durationNs = 0 ∨ durationNs > (← Width.sub (2 ^ 64 - 1) startNs) then
    return none
  else
    return some {
      startNs := startNs
      endNs := ← Width.fit 64 (startNs + durationNs)
      targetRps := targetRps
      workerCount := workerCount
      workerId := workerId
      nextOrdinal := 0
      skippedSlots := 0 }

def workerPacerExact (startNs targetRps workerCount workerId durationSecs : Nat) :
    Option (Option (PerfPacer Nat)) := do
  perfPacerInitExact startNs targetRps workerCount workerId
    (← Width.fit 64 (durationSecs * NS_PER_SEC))

namespace PerfPacer

def elapsedExact (p : PerfPacer Nat) (nowNs : Nat) : Option Nat :=
  if nowNs > p.startNs then Width.sub nowNs p.startNs else some 0

def currentSlotExact (p : PerfPacer Nat) (nowNs : Nat) : Option Nat := do
  let product ← Width.fit 128 ((← p.elapsedExact nowNs) * p.targetRps)
  let rounded ← Width.fit 128 (product + 999999999)
  Width.fit 64 (← Width.div rounded NS_PER_SEC)

def desiredExact (p : PerfPacer Nat) (nowNs : Nat) : Option Nat := do
  let current ← p.currentSlotExact nowNs
  if current > p.workerId then
    let ahead ← Width.sub current p.workerId
    let raised ← Width.fit 64 (ahead + p.workerCount)
    Width.div (← Width.sub raised 1) p.workerCount
  else
    return 0

def catchUpExact (p : PerfPacer Nat) (nowNs : Nat) : Option (PerfPacer Nat) := do
  let desired ← p.desiredExact nowNs
  if desired > p.nextOrdinal then
    let skipped ← Width.fit 64 (p.skippedSlots + (← Width.sub desired p.nextOrdinal))
    return { p with skippedSlots := skipped, nextOrdinal := desired }
  else
    return p

def slotExact (p : PerfPacer Nat) : Option Nat := do
  Width.fit 64 (p.workerId + (← Width.fit 64 (p.nextOrdinal * p.workerCount)))

def offsetExact (p : PerfPacer Nat) : Option Nat := do
  let scaled ← Width.fit 128 ((← p.slotExact) * NS_PER_SEC)
  Width.fit 64 (← Width.div scaled p.targetRps)

def takeSlotExact (p : PerfPacer Nat) : Option (PerfPacer Nat × Option Nat) := do
  let offset ← p.offsetExact
  if offset ≥ (← Width.sub p.endNs p.startNs) then
    return (p, none)
  else
    let due ← Width.fit 64 (p.startNs + offset)
    let next ← Width.fit 64 (p.nextOrdinal + 1)
    return ({ p with nextOrdinal := next }, some due)

end PerfPacer

def perfPacerNextExact (p : PerfPacer Nat) (nowNs : Nat) : Option (PerfPacer Nat × Option Nat) :=
  if nowNs ≥ p.endNs then some (p, none)
  else do (← p.catchUpExact nowNs).takeSlotExact

def perfPacerRunExact (p : PerfPacer Nat) : List Nat → Option (PerfPacer Nat × List Nat)
  | [] => some (p, [])
  | nowNs :: clock => do
      let next ← perfPacerNextExact p nowNs
      let rest ← perfPacerRunExact next.1 clock
      return (rest.1, next.2.toList ++ rest.2)

def missedSlotsExact (targetRps durationSecs logicalStarts : Nat) : Option Nat := do
  Width.sub (← Width.fit 64 (targetRps * durationSecs)) logicalStarts

/-! ### The grid -/

namespace PerfPacer

/-- A pacer in the middle of a run of so many seconds. The next slot is at most one
    round of the workers past the last slot of the run. -/
structure Paced (p : PerfPacer UInt64) (seconds : Nat) : Prop where
  rate_pos : 0 < p.targetRps.toNat
  rate_le : p.targetRps.toNat ≤ 1000000
  workers_le : p.workerCount.toNat ≤ 1024
  id_lt : p.workerId.toNat < p.workerCount.toNat
  seconds_le : seconds ≤ 86400
  end_eq : p.endNs.toNat = p.startNs.toNat + seconds * NS_PER_SEC
  ordinal_lt : p.workerId.toNat + p.nextOrdinal.toNat * p.workerCount.toNat <
    p.targetRps.toNat * seconds + p.workerCount.toNat
  skipped_le : p.skippedSlots.toNat ≤ p.nextOrdinal.toNat

/-- The first slot of the grid that is not due before the clock. -/
def firstSlot (p : PerfPacer UInt64) (nowNs : UInt64) : Nat :=
  (nowNs.toNat - p.startNs.toNat) * p.targetRps.toNat ⌈/⌉ NS_PER_SEC

def firstOrdinal (p : PerfPacer UInt64) (nowNs : UInt64) : Nat :=
  (p.firstSlot nowNs - p.workerId.toNat) ⌈/⌉ p.workerCount.toNat

variable {p : PerfPacer UInt64} {nowNs : UInt64} {seconds : Nat}

theorem Paced.slots_le (hp : p.Paced seconds) : p.targetRps.toNat * seconds ≤ 86400000000 :=
  Nat.mul_le_mul hp.rate_le hp.seconds_le

theorem Paced.workers_pos (hp : p.Paced seconds) : 0 < p.workerCount.toNat :=
  Nat.zero_lt_of_lt hp.id_lt

theorem Paced.ordinal_le (hp : p.Paced seconds) :
    p.nextOrdinal.toNat ≤ p.nextOrdinal.toNat * p.workerCount.toNat :=
  Nat.le_mul_of_pos_right _ hp.workers_pos

theorem Paced.firstSlot_le (hp : p.Paced seconds) (hnow : nowNs.toNat < p.endNs.toNat) :
    p.firstSlot nowNs ≤ p.targetRps.toNat * seconds := by
  unfold firstSlot
  rw [ceilDiv_le_iff_le_mul (show 0 < NS_PER_SEC by decide)]
  have helapsed : nowNs.toNat - p.startNs.toNat ≤ seconds * NS_PER_SEC := by
    have hend := hp.end_eq
    omega
  calc (nowNs.toNat - p.startNs.toNat) * p.targetRps.toNat
      ≤ seconds * NS_PER_SEC * p.targetRps.toNat := Nat.mul_le_mul_right _ helapsed
    _ = NS_PER_SEC * (p.targetRps.toNat * seconds) := by ring

theorem Paced.elapsed_le (hp : p.Paced seconds) {s : Nat} (hs : p.firstSlot nowNs ≤ s) :
    nowNs.toNat - p.startNs.toNat ≤ s * NS_PER_SEC / p.targetRps.toNat := by
  unfold firstSlot at hs
  rw [ceilDiv_le_iff_le_mul (show 0 < NS_PER_SEC by decide)] at hs
  rw [Nat.le_div_iff_mul_le hp.rate_pos, Nat.mul_comm s]
  exact hs

theorem Paced.slot_lt (hp : p.Paced seconds) {s : Nat}
    (hs : s * NS_PER_SEC / p.targetRps.toNat < seconds * NS_PER_SEC) :
    s < p.targetRps.toNat * seconds := by
  rw [Nat.div_lt_iff_lt_mul hp.rate_pos] at hs
  apply Nat.lt_of_mul_lt_mul_right (a := NS_PER_SEC)
  calc s * NS_PER_SEC < seconds * NS_PER_SEC * p.targetRps.toNat := hs
    _ = p.targetRps.toNat * seconds * NS_PER_SEC := by ring

/-- The worker's slot at the first ordinal is not before the first slot, and at most one
    round of the workers after it. -/
theorem Paced.firstOrdinal_bounds (hp : p.Paced seconds) (nowNs : UInt64) :
    p.firstSlot nowNs ≤ p.workerId.toNat + p.firstOrdinal nowNs * p.workerCount.toNat ∧
    p.workerId.toNat + p.firstOrdinal nowNs * p.workerCount.toNat <
      p.firstSlot nowNs + p.workerCount.toNat := by
  have hpos := hp.workers_pos
  have hid := hp.id_lt
  by_cases hahead : p.firstSlot nowNs ≤ p.workerId.toNat
  · have hzero : p.firstOrdinal nowNs = 0 := by
      unfold firstOrdinal
      rw [Nat.sub_eq_zero_of_le hahead, zero_ceilDiv]
    rw [hzero, Nat.zero_mul]
    omega
  · have hup : p.firstSlot nowNs - p.workerId.toNat ≤
        p.workerCount.toNat * p.firstOrdinal nowNs := (ceilDiv_le_iff_le_mul hpos).mp le_rfl
    have hdown : p.firstOrdinal nowNs * p.workerCount.toNat ≤
        p.firstSlot nowNs - p.workerId.toNat + p.workerCount.toNat - 1 :=
      Nat.div_mul_le_self _ _
    rw [Nat.mul_comm] at hup
    omega

end PerfPacer

/-! ### The words and the grid -/

namespace PerfPacer

variable {p : PerfPacer UInt64} {nowNs : UInt64} {seconds : Nat}

theorem toNat_elapsedNs (p : PerfPacer UInt64) (nowNs : UInt64) :
    (p.elapsedNs nowNs).toNat = nowNs.toNat - p.startNs.toNat := by
  unfold elapsedNs
  split
  · rename_i hafter
    exact UInt64.toNat_sub_of_le _ _ (UInt64.le_of_lt hafter)
  · rename_i hbefore
    have hle := UInt64.le_iff_toNat_le.mp (UInt64.not_lt.mp hbefore)
    rw [UInt64.toNat_zero]
    omega

theorem elapsedExact_eq (p : PerfPacer UInt64) (nowNs : UInt64) :
    p.numbers.elapsedExact nowNs.toNat = some (nowNs.toNat - p.startNs.toNat) := by
  unfold elapsedExact
  split
  · rename_i hafter
    exact Width.sub_of_le (Nat.le_of_lt hafter)
  · rename_i hbefore
    have hle : nowNs.toNat ≤ p.startNs.toNat := Nat.not_lt.mp hbefore
    rw [Nat.sub_eq_zero_of_le hle]

/-- The product of the elapsed time and the rate is far from 128 bits. -/
theorem Paced.product_lt (hp : p.Paced seconds) (nowNs : UInt64) :
    (nowNs.toNat - p.startNs.toNat) * p.targetRps.toNat < 2 ^ 64 * 1000000 := by
  have hrate := hp.rate_pos
  have hnow := nowNs.toNat_lt
  calc (nowNs.toNat - p.startNs.toNat) * p.targetRps.toNat
      < 2 ^ 64 * p.targetRps.toNat := by
        apply Nat.mul_lt_mul_of_pos_right _ hrate
        omega
    _ ≤ 2 ^ 64 * 1000000 := Nat.mul_le_mul_left _ hp.rate_le

theorem firstSlot_eq_div (p : PerfPacer UInt64) (nowNs : UInt64) :
    ((nowNs.toNat - p.startNs.toNat) * p.targetRps.toNat + 999999999) / NS_PER_SEC =
      p.firstSlot nowNs := by
  unfold firstSlot
  rw [Nat.ceilDiv_eq_add_pred_div, Nat.add_sub_assoc (show 1 ≤ NS_PER_SEC by decide),
    show NS_PER_SEC - 1 = 999999999 by decide]

theorem Paced.toNat_currentSlot (hp : p.Paced seconds) (hnow : nowNs.toNat < p.endNs.toNat) :
    (p.currentSlot nowNs).toNat = p.firstSlot nowNs := by
  have hproduct := hp.product_lt nowNs
  have hfirst := hp.firstSlot_le hnow
  have hslots := hp.slots_le
  unfold currentSlot
  rw [toNat_elapsedNs, Nat.mod_eq_of_lt (by omega), firstSlot_eq_div]
  exact UInt64.toNat_ofNat_of_lt' (show p.firstSlot nowNs < 2 ^ 64 by omega)

theorem Paced.currentSlotExact_eq (hp : p.Paced seconds) (hnow : nowNs.toNat < p.endNs.toNat) :
    p.numbers.currentSlotExact nowNs.toNat = some (p.firstSlot nowNs) := by
  have hproduct := hp.product_lt nowNs
  have hfirst := hp.firstSlot_le hnow
  have hslots := hp.slots_le
  unfold currentSlotExact
  rw [elapsedExact_eq, map_targetRps, Option.bind_eq_bind, Option.bind_some,
    Width.fit_bind _ (by omega), Width.fit_bind _ (by omega),
    Width.div_bind _ (show 0 < NS_PER_SEC by decide), firstSlot_eq_div]
  exact Width.fit_of_lt (by omega)

theorem Paced.toNat_desiredOrdinal (hp : p.Paced seconds) (hnow : nowNs.toNat < p.endNs.toNat) :
    (p.desiredOrdinal nowNs).toNat = p.firstOrdinal nowNs := by
  have hfirst := hp.firstSlot_le hnow
  have hslots := hp.slots_le
  have hworkers := hp.workers_le
  have hpos := hp.workers_pos
  have hcurrent := hp.toNat_currentSlot hnow
  unfold desiredOrdinal
  split
  · rename_i hahead
    have hlt := UInt64.lt_iff_toNat_lt.mp hahead
    have hsub := UInt64.toNat_sub_of_le _ _ (UInt64.le_of_lt hahead)
    rw [hcurrent] at hlt hsub
    have hraised : (p.currentSlot nowNs - p.workerId + p.workerCount).toNat =
        p.firstSlot nowNs - p.workerId.toNat + p.workerCount.toNat := by
      rw [UInt64.toNat_add, hsub, Nat.mod_eq_of_lt (by omega)]
    have hone : (1 : UInt64) ≤ p.currentSlot nowNs - p.workerId + p.workerCount := by
      rw [UInt64.le_iff_toNat_le, hraised, UInt64.toNat_one]
      omega
    rw [UInt64.toNat_div, UInt64.toNat_sub_of_le _ _ hone, hraised, UInt64.toNat_one]
    rfl
  · rename_i hbehind
    have hle := UInt64.le_iff_toNat_le.mp (UInt64.not_lt.mp hbehind)
    unfold firstOrdinal
    rw [UInt64.toNat_zero, Nat.sub_eq_zero_of_le (hcurrent ▸ hle), zero_ceilDiv]

theorem Paced.desiredExact_eq (hp : p.Paced seconds) (hnow : nowNs.toNat < p.endNs.toNat) :
    p.numbers.desiredExact nowNs.toNat = some (p.firstOrdinal nowNs) := by
  have hfirst := hp.firstSlot_le hnow
  have hslots := hp.slots_le
  have hworkers := hp.workers_le
  have hpos := hp.workers_pos
  unfold desiredExact
  rw [hp.currentSlotExact_eq hnow, map_workerId, map_workerCount, Option.bind_eq_bind,
    Option.bind_some]
  split
  · rw [Width.sub_bind _ (by omega), Width.fit_bind _ (by omega), Width.sub_bind _ (by omega),
      Width.div_of_pos hpos]
    rfl
  · rename_i hbehind
    unfold firstOrdinal
    rw [Nat.sub_eq_zero_of_le (Nat.not_lt.mp hbehind), zero_ceilDiv]
    rfl

/-- Catching up moves the worker to the first ordinal that is not in the past, and
    counts the ordinals it passes over. -/
theorem Paced.toNat_catchUp (hp : p.Paced seconds) (hnow : nowNs.toNat < p.endNs.toNat) :
    (p.catchUp nowNs).nextOrdinal.toNat = max p.nextOrdinal.toNat (p.firstOrdinal nowNs) ∧
    (p.catchUp nowNs).skippedSlots.toNat =
      p.skippedSlots.toNat + (p.firstOrdinal nowNs - p.nextOrdinal.toNat) := by
  have hdesired := hp.toNat_desiredOrdinal hnow
  unfold catchUp
  split
  · rename_i hahead
    have hlt := UInt64.lt_iff_toNat_lt.mp hahead
    have hsub := UInt64.toNat_sub_of_le _ _ (UInt64.le_of_lt hahead)
    have hskipped := hp.skipped_le
    have hbound := (p.desiredOrdinal nowNs).toNat_lt
    rw [hdesired] at hlt hsub hbound
    refine ⟨hdesired.trans (Nat.max_eq_right (Nat.le_of_lt hlt)).symm, ?_⟩
    rw [UInt64.toNat_add, hsub]
    exact Nat.mod_eq_of_lt (by omega)
  · rename_i hahead
    have hle := UInt64.le_iff_toNat_le.mp (UInt64.not_lt.mp hahead)
    rw [hdesired] at hle
    exact ⟨(Nat.max_eq_left hle).symm, by omega⟩

theorem catchUp_frame (p : PerfPacer UInt64) (nowNs : UInt64) :
    (p.catchUp nowNs).startNs = p.startNs ∧ (p.catchUp nowNs).endNs = p.endNs ∧
    (p.catchUp nowNs).targetRps = p.targetRps ∧ (p.catchUp nowNs).workerCount = p.workerCount ∧
    (p.catchUp nowNs).workerId = p.workerId := by
  unfold catchUp
  split <;> exact ⟨rfl, rfl, rfl, rfl, rfl⟩

theorem Paced.catchUp (hp : p.Paced seconds) (hnow : nowNs.toNat < p.endNs.toNat) :
    (p.catchUp nowNs).Paced seconds := by
  obtain ⟨hstart, hend, hrate, hcount, hid⟩ := p.catchUp_frame nowNs
  obtain ⟨hordinal, hskipped⟩ := hp.toNat_catchUp hnow
  refine ⟨?_, ?_, ?_, ?_, hp.seconds_le, ?_, ?_, ?_⟩
  · rw [hrate]
    exact hp.rate_pos
  · rw [hrate]
    exact hp.rate_le
  · rw [hcount]
    exact hp.workers_le
  · rw [hid, hcount]
    exact hp.id_lt
  · rw [hend, hstart]
    exact hp.end_eq
  · rw [hid, hcount, hrate, hordinal]
    have hfirst := hp.firstSlot_le hnow
    have hbounds := (hp.firstOrdinal_bounds nowNs).2
    have hlast := hp.ordinal_lt
    rcases Nat.le_total p.nextOrdinal.toNat (p.firstOrdinal nowNs) with hle | hle
    · rw [Nat.max_eq_right hle]
      omega
    · rw [Nat.max_eq_left hle]
      exact hlast
  · rw [hordinal, hskipped]
    have hle := hp.skipped_le
    omega

theorem Paced.catchUpExact_eq (hp : p.Paced seconds) (hnow : nowNs.toNat < p.endNs.toNat) :
    p.numbers.catchUpExact nowNs.toNat = some (p.catchUp nowNs).numbers := by
  have hdesired := hp.toNat_desiredOrdinal hnow
  have hbound := (p.desiredOrdinal nowNs).toNat_lt
  have hskipped := hp.skipped_le
  have hsum := (hp.toNat_catchUp hnow).2
  unfold catchUpExact
  rw [hp.desiredExact_eq hnow, map_nextOrdinal, map_skippedSlots, Option.bind_eq_bind,
    Option.bind_some]
  rw [hdesired] at hbound
  by_cases hahead : p.desiredOrdinal nowNs > p.nextOrdinal
  · have hlt := UInt64.lt_iff_toNat_lt.mp hahead
    rw [hdesired] at hlt
    have hcaught : p.catchUp nowNs = { p with
      skippedSlots := p.skippedSlots + (p.desiredOrdinal nowNs - p.nextOrdinal)
      nextOrdinal := p.desiredOrdinal nowNs } := if_pos hahead
    rw [if_pos hlt, Width.sub_bind _ (by omega), Width.fit_bind _ (by omega), ← hsum, hcaught,
      ← hdesired]
    rfl
  · have hle := UInt64.le_iff_toNat_le.mp (UInt64.not_lt.mp hahead)
    rw [hdesired] at hle
    have hkept : p.catchUp nowNs = p := if_neg hahead
    rw [if_neg (Nat.not_lt.mpr hle), hkept]
    rfl

theorem Paced.toNat_slot (hp : p.Paced seconds) :
    p.slot.toNat = p.workerId.toNat + p.nextOrdinal.toNat * p.workerCount.toNat := by
  have hordinal := hp.ordinal_lt
  have hslots := hp.slots_le
  have hworkers := hp.workers_le
  have hproduct : (p.nextOrdinal * p.workerCount).toNat =
      p.nextOrdinal.toNat * p.workerCount.toNat := by
    rw [UInt64.toNat_mul, Nat.mod_eq_of_lt (by omega)]
  unfold slot
  rw [UInt64.toNat_add, hproduct, Nat.mod_eq_of_lt (by omega)]

theorem Paced.slotExact_eq (hp : p.Paced seconds) :
    p.numbers.slotExact = some p.slot.toNat := by
  have hordinal := hp.ordinal_lt
  have hslots := hp.slots_le
  have hworkers := hp.workers_le
  rw [hp.toNat_slot]
  unfold slotExact
  rw [map_nextOrdinal, map_workerCount, map_workerId, Option.bind_eq_bind,
    Width.fit_bind _ (by omega)]
  exact Width.fit_of_lt (by omega)

/-- The offset of a slot is at most one round of the workers past the end of the run. -/
theorem Paced.offset_lt (hp : p.Paced seconds) :
    p.slot.toNat * NS_PER_SEC / p.targetRps.toNat < 2 ^ 64 := by
  have hordinal := hp.ordinal_lt
  have hworkers := hp.workers_le
  have hseconds := hp.seconds_le
  rw [Nat.div_lt_iff_lt_mul hp.rate_pos]
  have hslot : p.slot.toNat ≤ p.targetRps.toNat * (seconds + 1024) := by
    rw [hp.toNat_slot, Nat.mul_add]
    have hone : 1024 ≤ p.targetRps.toNat * 1024 := Nat.le_mul_of_pos_left _ hp.rate_pos
    omega
  calc p.slot.toNat * NS_PER_SEC
      ≤ p.targetRps.toNat * (seconds + 1024) * NS_PER_SEC := Nat.mul_le_mul_right _ hslot
    _ = (seconds + 1024) * NS_PER_SEC * p.targetRps.toNat := by ring
    _ < 2 ^ 64 * p.targetRps.toNat := by
        apply Nat.mul_lt_mul_of_pos_right _ hp.rate_pos
        unfold NS_PER_SEC
        omega

theorem slot_scaled_lt (p : PerfPacer UInt64) : p.slot.toNat * NS_PER_SEC < 2 ^ 128 := by
  have hslot := p.slot.toNat_lt
  unfold NS_PER_SEC
  omega

theorem Paced.toNat_offsetNs (hp : p.Paced seconds) :
    p.offsetNs.toNat = p.slot.toNat * NS_PER_SEC / p.targetRps.toNat := by
  unfold offsetNs
  rw [Nat.mod_eq_of_lt p.slot_scaled_lt]
  exact UInt64.toNat_ofNat_of_lt' hp.offset_lt

theorem Paced.offsetExact_eq (hp : p.Paced seconds) :
    p.numbers.offsetExact = some p.offsetNs.toNat := by
  unfold offsetExact
  rw [hp.slotExact_eq, hp.toNat_offsetNs, map_targetRps, Option.bind_eq_bind, Option.bind_some,
    Width.fit_bind _ p.slot_scaled_lt, Width.div_bind _ hp.rate_pos]
  exact Width.fit_of_lt hp.offset_lt

end PerfPacer

/-! ### One call -/

namespace PerfPacer

variable {p q r : PerfPacer UInt64} {nowNs : UInt64} {seconds : Nat}

def grid (p : PerfPacer UInt64) : UInt64 × UInt64 × UInt64 × UInt64 × UInt64 :=
  (p.startNs, p.endNs, p.targetRps, p.workerCount, p.workerId)

/-- The slot is one of the run, and its due time is the one of the grid, not before the
    clock and not before the start. -/
structure OnTime (p : PerfPacer UInt64) (seconds : Nat) (offer : PacedSlot) : Prop where
  slot_lt : offer.slot.toNat < p.targetRps.toNat * seconds
  due_eq : offer.dueNs.toNat =
    p.startNs.toNat + offer.slot.toNat * NS_PER_SEC / p.targetRps.toNat
  start_le : p.startNs ≤ offer.dueNs
  now_le : offer.nowNs ≤ offer.dueNs
  due_lt : offer.dueNs < p.endNs

/-- A run of calls that takes `p` to `q`. The ordinals in between are either offered or
    skipped, and the slots are those of the ordinals that are offered, in order. -/
structure Offers (p : PerfPacer UInt64) (seconds : Nat) (q : PerfPacer UInt64)
    (offers : List PacedSlot) : Prop where
  grid_eq : q.grid = p.grid
  paced : q.Paced seconds
  ordinal_le : p.nextOrdinal.toNat ≤ q.nextOrdinal.toNat
  balance : q.nextOrdinal.toNat + p.skippedSlots.toNat =
    p.nextOrdinal.toNat + offers.length + q.skippedSlots.toNat
  onTime : ∀ offer ∈ offers, p.OnTime seconds offer
  owned : ∀ offer ∈ offers, ∃ n, p.nextOrdinal.toNat ≤ n ∧ n < q.nextOrdinal.toNat ∧
    offer.slot.toNat = p.workerId.toNat + n * p.workerCount.toNat
  increasing : offers.Pairwise fun a b => a.slot.toNat < b.slot.toNat

theorem OnTime.of_grid {offer : PacedSlot} (hgrid : q.grid = p.grid)
    (h : q.OnTime seconds offer) : p.OnTime seconds offer := by
  simp only [grid, Prod.mk.injEq] at hgrid
  obtain ⟨hstart, hend, hrate, -, -⟩ := hgrid
  obtain ⟨hslot, hdue, hle, hnow, hlt⟩ := h
  rw [hrate] at hslot hdue
  rw [hstart] at hdue hle
  rw [hend] at hlt
  exact ⟨hslot, hdue, hle, hnow, hlt⟩

theorem Offers.refl (hp : p.Paced seconds) : p.Offers seconds p [] :=
  ⟨rfl, hp, Nat.le_refl _, rfl, by simp, by simp, List.Pairwise.nil⟩

/-- Runs one after the other. The slots of the second are of later ordinals. -/
theorem Offers.append {a b : List PacedSlot} (hpq : p.Offers seconds q a)
    (hqr : q.Offers seconds r b) : p.Offers seconds r (a ++ b) := by
  have hfirst := hpq.ordinal_le
  have hsecond := hqr.ordinal_le
  have hgrid := hpq.grid_eq
  simp only [grid, Prod.mk.injEq] at hgrid
  obtain ⟨-, -, -, hcount, hid⟩ := hgrid
  have howned : ∀ offer ∈ b, ∃ n, q.nextOrdinal.toNat ≤ n ∧ n < r.nextOrdinal.toNat ∧
      offer.slot.toNat = p.workerId.toNat + n * p.workerCount.toNat := by
    rw [← hcount, ← hid]
    exact hqr.owned
  refine ⟨hqr.grid_eq.trans hpq.grid_eq, hqr.paced, hfirst.trans hsecond, ?_, ?_, ?_, ?_⟩
  · have hp := hpq.balance
    have hq := hqr.balance
    rw [List.length_append]
    omega
  · intro offer hmem
    rcases List.mem_append.mp hmem with hmem | hmem
    · exact hpq.onTime offer hmem
    · exact (hqr.onTime offer hmem).of_grid hpq.grid_eq
  · intro offer hmem
    rcases List.mem_append.mp hmem with hmem | hmem
    · obtain ⟨n, hle, hlt, hslot⟩ := hpq.owned offer hmem
      exact ⟨n, hle, by omega, hslot⟩
    · obtain ⟨n, hle, hlt, hslot⟩ := howned offer hmem
      exact ⟨n, by omega, hlt, hslot⟩
  · rw [List.pairwise_append]
    refine ⟨hpq.increasing, hqr.increasing, ?_⟩
    intro x hx y hy
    obtain ⟨m, -, hm, hx⟩ := hpq.owned x hx
    obtain ⟨n, hn, -, hy⟩ := howned y hy
    have hpos : 0 < p.workerCount.toNat := hcount ▸ hpq.paced.workers_pos
    have hlt : m * p.workerCount.toNat < n * p.workerCount.toNat :=
      Nat.mul_lt_mul_of_pos_right (by omega) hpos
    omega

/-- Catching up offers nothing. -/
theorem Paced.catchUp_offers (hp : p.Paced seconds) (hnow : nowNs.toNat < p.endNs.toNat) :
    p.Offers seconds (p.catchUp nowNs) [] := by
  obtain ⟨hstart, hend, hrate, hcount, hid⟩ := p.catchUp_frame nowNs
  obtain ⟨hordinal, hskipped⟩ := hp.toNat_catchUp hnow
  refine ⟨?_, hp.catchUp hnow, ?_, ?_, by simp, by simp, List.Pairwise.nil⟩
  · unfold grid
    rw [hstart, hend, hrate, hcount, hid]
  · rw [hordinal]
    exact Nat.le_max_left _ _
  · rw [hordinal, hskipped, List.length_nil]
    omega

/-- After catching up, the worker's slot is not before the first slot. -/
theorem Paced.firstSlot_le_slot (hp : p.Paced seconds) (hnow : nowNs.toNat < p.endNs.toNat) :
    p.firstSlot nowNs ≤ (p.catchUp nowNs).slot.toNat := by
  obtain ⟨-, -, -, hcount, hid⟩ := p.catchUp_frame nowNs
  rw [(hp.catchUp hnow).toNat_slot, (hp.toNat_catchUp hnow).1, hcount, hid]
  calc p.firstSlot nowNs
      ≤ p.workerId.toNat + p.firstOrdinal nowNs * p.workerCount.toNat :=
        (hp.firstOrdinal_bounds nowNs).1
    _ ≤ _ := Nat.add_le_add_left (Nat.mul_le_mul_right _ (Nat.le_max_right _ _)) _

theorem Paced.toNat_span (hp : p.Paced seconds) :
    (p.endNs - p.startNs).toNat = seconds * NS_PER_SEC := by
  have hend := hp.end_eq
  rw [UInt64.toNat_sub_of_le _ _ (UInt64.le_iff_toNat_le.mpr (by omega))]
  omega

theorem Paced.take (hp : p.Paced seconds) (hwithin : p.offsetNs.toNat < seconds * NS_PER_SEC)
    (hclock : nowNs.toNat - p.startNs.toNat ≤ p.offsetNs.toNat) :
    p.Offers seconds { p with nextOrdinal := p.nextOrdinal + 1 }
      [⟨nowNs, p.slot, p.startNs + p.offsetNs⟩] := by
  have hend := hp.end_eq
  have hendlt := p.endNs.toNat_lt
  have hoffset := hp.toNat_offsetNs
  have hslot := hp.toNat_slot
  have hslotlt : p.slot.toNat < p.targetRps.toNat * seconds := hp.slot_lt (hoffset ▸ hwithin)
  have hslots := hp.slots_le
  have hordinal := hp.ordinal_le
  have hdue : (p.startNs + p.offsetNs).toNat = p.startNs.toNat + p.offsetNs.toNat := by
    rw [UInt64.toNat_add, Nat.mod_eq_of_lt (by omega)]
  have hnext : (p.nextOrdinal + 1).toNat = p.nextOrdinal.toNat + 1 := by
    rw [UInt64.toNat_add, UInt64.toNat_one, Nat.mod_eq_of_lt (by omega)]
  refine ⟨rfl, ?_, ?_, ?_, ?_, ?_, List.pairwise_singleton _ _⟩
  · refine ⟨hp.rate_pos, hp.rate_le, hp.workers_le, hp.id_lt, hp.seconds_le, hp.end_eq, ?_, ?_⟩
    · change p.workerId.toNat + (p.nextOrdinal + 1).toNat * p.workerCount.toNat < _
      rw [hnext, Nat.succ_mul]
      change _ < p.targetRps.toNat * seconds + p.workerCount.toNat
      omega
    · change p.skippedSlots.toNat ≤ (p.nextOrdinal + 1).toNat
      have hskipped := hp.skipped_le
      omega
  · change p.nextOrdinal.toNat ≤ (p.nextOrdinal + 1).toNat
    omega
  · change (p.nextOrdinal + 1).toNat + p.skippedSlots.toNat = _
    rw [hnext, List.length_singleton]
  · intro offer hmem
    obtain rfl := List.mem_singleton.mp hmem
    refine ⟨hslotlt, ?_, ?_, ?_, ?_⟩
    · rw [hdue, hoffset]
    · rw [UInt64.le_iff_toNat_le, hdue]
      omega
    · rw [UInt64.le_iff_toNat_le, hdue]
      change nowNs.toNat ≤ _
      omega
    · rw [UInt64.lt_iff_toNat_lt, hdue]
      omega
  · intro offer hmem
    obtain rfl := List.mem_singleton.mp hmem
    refine ⟨p.nextOrdinal.toNat, Nat.le_refl _, ?_, hslot⟩
    change p.nextOrdinal.toNat < (p.nextOrdinal + 1).toNat
    omega

theorem Paced.next (hp : p.Paced seconds) (nowNs : UInt64) :
    p.Offers seconds (perfPacerNext p nowNs).1 (p.offer nowNs) := by
  unfold offer perfPacerNext
  by_cases hlate : nowNs ≥ p.endNs
  · rw [if_pos hlate]
    exact Offers.refl hp
  have hnow := UInt64.lt_iff_toNat_lt.mp (UInt64.not_le.mp hlate)
  have hcaught := hp.catchUp_offers hnow
  rw [if_neg hlate]
  unfold takeSlot
  by_cases hpast : (p.catchUp nowNs).offsetNs ≥ (p.catchUp nowNs).endNs - (p.catchUp nowNs).startNs
  · rw [if_pos hpast]
    exact hcaught
  · rw [if_neg hpast]
    have hwithin := UInt64.lt_iff_toNat_lt.mp (UInt64.not_le.mp hpast)
    rw [hcaught.paced.toNat_span] at hwithin
    have hclock : nowNs.toNat - (p.catchUp nowNs).startNs.toNat ≤
        (p.catchUp nowNs).offsetNs.toNat := by
      rw [hcaught.paced.toNat_offsetNs, (p.catchUp_frame nowNs).1, (p.catchUp_frame nowNs).2.2.1]
      exact hp.elapsed_le (hp.firstSlot_le_slot hnow)
    exact hcaught.append (hcaught.paced.take hwithin hclock)

theorem Paced.takeSlotExact_eq (hp : p.Paced seconds) :
    p.numbers.takeSlotExact = some (p.takeSlot.1.numbers, p.takeSlot.2.map UInt64.toNat) := by
  have hend := hp.end_eq
  have hendlt := p.endNs.toNat_lt
  have hspan := hp.toNat_span
  unfold takeSlotExact takeSlot
  rw [hp.offsetExact_eq, Option.bind_eq_bind, Option.bind_some, map_endNs, map_startNs,
    Width.sub_bind _ (by omega)]
  by_cases hpast : p.offsetNs ≥ p.endNs - p.startNs
  · have hle := UInt64.le_iff_toNat_le.mp hpast
    rw [if_pos (by omega), if_pos hpast]
    rfl
  · have hlt := UInt64.lt_iff_toNat_lt.mp (UInt64.not_le.mp hpast)
    have hordinal := hp.ordinal_le
    have hordinal_lt := hp.ordinal_lt
    have hslots := hp.slots_le
    have hworkers := hp.workers_le
    have hdue : (p.startNs + p.offsetNs).toNat = p.startNs.toNat + p.offsetNs.toNat := by
      rw [UInt64.toNat_add, Nat.mod_eq_of_lt (by omega)]
    have hnext : (p.nextOrdinal + 1).toNat = p.nextOrdinal.toNat + 1 := by
      rw [UInt64.toNat_add, UInt64.toNat_one, Nat.mod_eq_of_lt (by omega)]
    rw [if_neg (by omega), Width.fit_bind _ (by omega), map_nextOrdinal,
      Width.fit_bind _ (by omega), ← hdue, ← hnext, if_neg hpast]
    rfl

theorem Paced.nextExact_eq (hp : p.Paced seconds) (nowNs : UInt64) :
    perfPacerNextExact p.numbers nowNs.toNat =
      some ((perfPacerNext p nowNs).1.numbers, (perfPacerNext p nowNs).2.map UInt64.toNat) := by
  unfold perfPacerNextExact perfPacerNext
  by_cases hlate : nowNs ≥ p.endNs
  · rw [if_pos hlate, map_endNs, if_pos (UInt64.le_iff_toNat_le.mp hlate)]
    rfl
  · have hnow := UInt64.lt_iff_toNat_lt.mp (UInt64.not_le.mp hlate)
    rw [if_neg hlate, map_endNs, if_neg (Nat.not_le.mpr hnow), hp.catchUpExact_eq hnow,
      Option.bind_eq_bind, Option.bind_some]
    exact (hp.catchUp hnow).takeSlotExact_eq

/-! ### All calls of a worker -/

theorem Paced.run (hp : p.Paced seconds) (clock : List UInt64) :
    p.Offers seconds (perfPacerRun p clock).1 (perfPacerRun p clock).2 := by
  induction clock generalizing p with
  | nil => exact Offers.refl hp
  | cons nowNs clock ih =>
    have hstep := hp.next nowNs
    exact hstep.append (ih hstep.paced)

theorem offer_dues (p : PerfPacer UInt64) (nowNs : UInt64) :
    (p.offer nowNs).map (fun offer => offer.dueNs.toNat) =
      ((perfPacerNext p nowNs).2.map UInt64.toNat).toList := by
  unfold offer
  cases (perfPacerNext p nowNs).2 <;> rfl

theorem Paced.runExact_eq (hp : p.Paced seconds) (clock : List UInt64) :
    perfPacerRunExact p.numbers (clock.map UInt64.toNat) =
      some ((perfPacerRun p clock).1.numbers,
        (perfPacerRun p clock).2.map fun offer => offer.dueNs.toNat) := by
  induction clock generalizing p with
  | nil => rfl
  | cons nowNs clock ih =>
    simp only [List.map_cons, perfPacerRunExact, perfPacerRun]
    rw [hp.nextExact_eq, Option.bind_eq_bind, Option.bind_some, ih (hp.next nowNs).paced,
      Option.bind_eq_bind, Option.bind_some, List.map_append, offer_dues]
    rfl

theorem starts_le_offers (p : PerfPacer UInt64) (turns : List PacedTurn) :
    perfWorkerStarts p turns ≤ (perfPacerRun p (turns.map PacedTurn.nowNs)).2.length := by
  induction turns generalizing p with
  | nil => exact Nat.le_refl 0
  | cons turn turns ih =>
    simp only [List.map_cons, perfPacerRun, perfWorkerStarts, List.length_append, offer,
      List.length_map]
    rcases hnext : perfPacerNext p turn.nowNs with ⟨q, due⟩
    cases due with
    | none => exact Nat.zero_le _
    | some dueNs =>
      have hrest := ih q
      simp only [Option.toList_some, List.length_singleton]
      split
      · exact Nat.zero_le _
      · split
        · exact Nat.zero_le _
        · omega

end PerfPacer

/-! ### All workers -/

section Workers

variable {startNs targetRps workerCount workerId durationSecs : UInt64}

theorem toNat_durationNs (hduration : durationSecs.toNat ≤ 86400) :
    (durationSecs * 1000000000).toNat = durationSecs.toNat * NS_PER_SEC := by
  rw [UInt64.toNat_mul]
  exact Nat.mod_eq_of_lt (show durationSecs.toNat * 1000000000 < 2 ^ 64 by omega)

theorem perfPacerInit_eq_some {durationNs : UInt64} {p : PerfPacer UInt64}
    (h : perfPacerInit startNs targetRps workerCount workerId durationNs = some p) :
    (0 < targetRps.toNat ∧ targetRps.toNat ≤ 1000000 ∧ workerId.toNat < workerCount.toNat ∧
      0 < durationNs.toNat ∧ startNs.toNat + durationNs.toNat < 2 ^ 64) ∧
    p = ⟨startNs, startNs + durationNs, targetRps, workerCount, workerId, 0, 0⟩ := by
  unfold perfPacerInit at h
  split at h
  · cases h
  · rename_i hvalid
    have hmax : (UINT64_MAX - startNs).toNat = 2 ^ 64 - 1 - startNs.toNat :=
      UInt64.toNat_sub_of_le _ _
        (UInt64.le_iff_toNat_le.mpr (Nat.le_of_lt_succ startNs.toNat_lt))
    simp only [Bool.or_eq_true, beq_iff_eq, decide_eq_true_eq, not_or, gt_iff_lt, ge_iff_le,
      UInt64.lt_iff_toNat_lt, UInt64.le_iff_toNat_le, Nat.not_lt, Nat.not_le, hmax,
      ← UInt64.toNat_inj, UInt64.toNat_zero] at hvalid
    obtain ⟨⟨⟨⟨⟨hrate, hmost⟩, -⟩, hid⟩, hduration⟩, hend⟩ := hvalid
    have hstart := startNs.toNat_lt
    exact ⟨⟨by omega, hmost, hid, by omega, by omega⟩, (Option.some.inj h).symm⟩

theorem workerPacer_paced (hworkers : workerCount.toNat ≤ 1024)
    (hduration : durationSecs.toNat ≤ 86400) {p : PerfPacer UInt64}
    (h : workerPacer startNs targetRps workerCount workerId durationSecs = some p) :
    p.Paced durationSecs.toNat ∧ p.startNs = startNs ∧ p.targetRps = targetRps ∧
      p.workerCount = workerCount ∧ p.workerId = workerId ∧ p.nextOrdinal = 0 ∧
      p.skippedSlots = 0 := by
  obtain ⟨⟨hrate, hmost, hid, -, hend⟩, rfl⟩ := perfPacerInit_eq_some h
  rw [toNat_durationNs hduration] at hend
  refine ⟨⟨hrate, hmost, hworkers, hid, hduration, ?_, ?_, Nat.le_refl _⟩, rfl, rfl, rfl, rfl,
    rfl, rfl⟩
  · change (startNs + durationSecs * 1000000000).toNat = _
    rw [UInt64.toNat_add, toNat_durationNs hduration, Nat.mod_eq_of_lt hend]
  · change workerId.toNat + (0 : UInt64).toNat * workerCount.toNat < _
    rw [UInt64.toNat_zero, Nat.zero_mul]
    change _ < targetRps.toNat * durationSecs.toNat + workerCount.toNat
    omega

theorem workerPacerExact_eq (hduration : durationSecs.toNat ≤ 86400) {p : PerfPacer UInt64}
    (h : workerPacer startNs targetRps workerCount workerId durationSecs = some p) :
    workerPacerExact startNs.toNat targetRps.toNat workerCount.toNat workerId.toNat
      durationSecs.toNat = some (some p.numbers) := by
  obtain ⟨⟨hrate, hmost, hid, hpos, hend⟩, rfl⟩ := perfPacerInit_eq_some h
  have hfit := (durationSecs * 1000000000).toNat_lt
  have hsum : (startNs + durationSecs * 1000000000).toNat =
      startNs.toNat + (durationSecs * 1000000000).toNat := by
    rw [UInt64.toNat_add, Nat.mod_eq_of_lt hend]
  rw [toNat_durationNs hduration] at hfit hend hpos hsum
  unfold workerPacerExact perfPacerInitExact
  rw [Option.bind_eq_bind, Width.fit_bind _ hfit, Width.sub_bind _ (by omega), if_neg (by omega),
    Width.fit_bind _ hend, ← hsum]
  rfl

theorem owned_disjoint {workers a b m n : Nat} (ha : a < workers) (hb : b < workers)
    (h : a + m * workers = b + n * workers) : a = b := by
  have hmod := congrArg (· % workers) h
  simpa only [Nat.add_mul_mod_self_right, Nat.mod_eq_of_lt ha, Nat.mod_eq_of_lt hb] using hmod

variable {pacers : Nat → PerfPacer UInt64}

/-- The slots that all workers are offered, each with a clock of its own. -/
def offeredSlots (workers : Nat) (pacers : Nat → PerfPacer UInt64)
    (clocks : Nat → List UInt64) : List Nat :=
  (List.range workers).flatMap fun id =>
    (perfPacerRun (pacers id) (clocks id)).2.map fun offer => offer.slot.toNat

def logicalStarts (workers : Nat) (pacers : Nat → PerfPacer UInt64)
    (turns : Nat → List PacedTurn) : Nat :=
  ((List.range workers).map fun id => perfWorkerStarts (pacers id) (turns id)).sum

theorem offeredSlots_nodup (hworkers : workerCount.toNat ≤ 1024)
    (hduration : durationSecs.toNat ≤ 86400)
    (hinit : ∀ id < workerCount.toNat, workerPacer startNs targetRps workerCount
      (UInt64.ofNat id) durationSecs = some (pacers id)) (clocks : Nat → List UInt64) :
    (offeredSlots workerCount.toNat pacers clocks).Nodup := by
  unfold offeredSlots
  rw [List.nodup_flatMap]
  constructor
  · intro id hid
    obtain ⟨hpaced, -⟩ := workerPacer_paced hworkers hduration (hinit id (List.mem_range.mp hid))
    have hincreasing := (hpaced.run (clocks id)).increasing
    apply List.Pairwise.imp Nat.ne_of_lt
    exact List.pairwise_map.mpr hincreasing
  · apply List.Pairwise.imp_of_mem _ (List.nodup_range)
    intro a b ha hb hne
    have ha := List.mem_range.mp ha
    have hb := List.mem_range.mp hb
    rw [Function.onFun_apply, List.disjoint_left]
    intro s hsa hsb
    obtain ⟨x, hx, rfl⟩ := List.mem_map.mp hsa
    obtain ⟨y, hy, hsame⟩ := List.mem_map.mp hsb
    obtain ⟨hpa, -, -, hca, hia, -⟩ := workerPacer_paced hworkers hduration (hinit a ha)
    obtain ⟨hpb, -, -, hcb, hib, -⟩ := workerPacer_paced hworkers hduration (hinit b hb)
    obtain ⟨m, -, -, hm⟩ := (hpa.run (clocks a)).owned x hx
    obtain ⟨n, -, -, hn⟩ := (hpb.run (clocks b)).owned y hy
    rw [hia, hca, UInt64.toNat_ofNat_of_lt' (show a < 2 ^ 64 by omega)] at hm
    rw [hib, hcb, UInt64.toNat_ofNat_of_lt' (show b < 2 ^ 64 by omega)] at hn
    exact hne (owned_disjoint ha hb (hm.symm.trans (hsame.symm.trans hn)))

theorem offeredSlots_lt (hworkers : workerCount.toNat ≤ 1024)
    (hduration : durationSecs.toNat ≤ 86400)
    (hinit : ∀ id < workerCount.toNat, workerPacer startNs targetRps workerCount
      (UInt64.ofNat id) durationSecs = some (pacers id)) (clocks : Nat → List UInt64) :
    ∀ s ∈ offeredSlots workerCount.toNat pacers clocks,
      s < targetRps.toNat * durationSecs.toNat := by
  intro s hs
  obtain ⟨id, hid, hs⟩ := List.mem_flatMap.mp hs
  obtain ⟨offer, hoffer, rfl⟩ := List.mem_map.mp hs
  obtain ⟨hpaced, -, hrate, -⟩ :=
    workerPacer_paced hworkers hduration (hinit id (List.mem_range.mp hid))
  rw [← hrate]
  exact ((hpaced.run (clocks id)).onTime offer hoffer).slot_lt

theorem logicalStarts_le (hworkers : workerCount.toNat ≤ 1024)
    (hduration : durationSecs.toNat ≤ 86400)
    (hinit : ∀ id < workerCount.toNat, workerPacer startNs targetRps workerCount
      (UInt64.ofNat id) durationSecs = some (pacers id)) (turns : Nat → List PacedTurn) :
    logicalStarts workerCount.toNat pacers turns ≤ targetRps.toNat * durationSecs.toNat := by
  let clocks := fun id => (turns id).map PacedTurn.nowNs
  have hnodup := offeredSlots_nodup hworkers hduration hinit clocks
  have hsubset : offeredSlots workerCount.toNat pacers clocks ⊆
      List.range (targetRps.toNat * durationSecs.toNat) := fun s hs =>
    List.mem_range.mpr (offeredSlots_lt hworkers hduration hinit clocks s hs)
  have hstarts : logicalStarts workerCount.toNat pacers turns ≤
      (offeredSlots workerCount.toNat pacers clocks).length := by
    unfold logicalStarts offeredSlots
    rw [List.length_flatMap]
    apply List.sum_le_sum
    intro id hid
    rw [List.length_map]
    exact (pacers id).starts_le_offers (turns id)
  have hlength := (hnodup.subperm hsubset).length_le
  rw [List.length_range] at hlength
  exact hstarts.trans hlength

theorem missedSlots_eq {starts : Nat} (hrate : targetRps.toNat ≤ 1000000)
    (hduration : durationSecs.toNat ≤ 86400)
    (hle : starts ≤ targetRps.toNat * durationSecs.toNat) :
    (missedSlots targetRps durationSecs (UInt64.ofNat starts)).toNat =
      targetRps.toNat * durationSecs.toNat - starts ∧
    missedSlotsExact targetRps.toNat durationSecs.toNat starts =
      some (targetRps.toNat * durationSecs.toNat - starts) := by
  have hplanned : targetRps.toNat * durationSecs.toNat ≤ 86400000000 :=
    Nat.mul_le_mul hrate hduration
  constructor
  · have hproduct : (targetRps * durationSecs).toNat = targetRps.toNat * durationSecs.toNat := by
      rw [UInt64.toNat_mul, Nat.mod_eq_of_lt (by omega)]
    have hstarts : (UInt64.ofNat starts).toNat = starts :=
      UInt64.toNat_ofNat_of_lt' (show starts < 2 ^ 64 by omega)
    unfold missedSlots
    rw [UInt64.toNat_sub_of_le, hproduct, hstarts]
    rw [UInt64.le_iff_toNat_le, hproduct, hstarts]
    exact hle
  · unfold missedSlotsExact
    rw [Option.bind_eq_bind, Width.fit_bind _ (by omega)]
    exact Width.sub_of_le hle

/-- **Every slot is offered once, and never late.** Workers that share a rate, a start
    and a duration within the bounds of the load generator are given due times that are
    neither in the past nor past the end, whatever the clock shows them. No slot is
    offered twice, to one worker or to two, and all of them are slots of the run, so
    there are never more starts than slots. A worker's ordinals are either offered or
    skipped. Nothing of this wraps in 64 bits. -/
theorem paced_slots_once (hrate : 1 ≤ targetRps.toNat ∧ targetRps.toNat ≤ 1000000)
    (hworkers : 1 ≤ workerCount.toNat ∧ workerCount.toNat ≤ 1024)
    (hduration : 1 ≤ durationSecs.toNat ∧ durationSecs.toNat ≤ 86400)
    (hinit : ∀ id < workerCount.toNat, workerPacer startNs targetRps workerCount
      (UInt64.ofNat id) durationSecs = some (pacers id)) :
    (∀ id < workerCount.toNat, ∀ clock,
      (∀ offer ∈ (perfPacerRun (pacers id) clock).2,
        offer.dueNs.toNat = startNs.toNat + offer.slot.toNat * NS_PER_SEC / targetRps.toNat ∧
        max offer.nowNs.toNat startNs.toNat ≤ offer.dueNs.toNat ∧
        offer.dueNs.toNat < startNs.toNat + durationSecs.toNat * NS_PER_SEC) ∧
      (perfPacerRun (pacers id) clock).1.nextOrdinal.toNat =
        (perfPacerRun (pacers id) clock).2.length +
          (perfPacerRun (pacers id) clock).1.skippedSlots.toNat) ∧
    (∀ clocks, (offeredSlots workerCount.toNat pacers clocks).Nodup ∧
      ∀ s ∈ offeredSlots workerCount.toNat pacers clocks,
        s < targetRps.toNat * durationSecs.toNat) ∧
    (∀ turns, logicalStarts workerCount.toNat pacers turns ≤
        targetRps.toNat * durationSecs.toNat ∧
      (missedSlots targetRps durationSecs
          (UInt64.ofNat (logicalStarts workerCount.toNat pacers turns))).toNat =
        targetRps.toNat * durationSecs.toNat - logicalStarts workerCount.toNat pacers turns ∧
      missedSlotsExact targetRps.toNat durationSecs.toNat
          (logicalStarts workerCount.toNat pacers turns) =
        some (targetRps.toNat * durationSecs.toNat -
          logicalStarts workerCount.toNat pacers turns)) ∧
    ∀ id < workerCount.toNat,
      workerPacerExact startNs.toNat targetRps.toNat workerCount.toNat id durationSecs.toNat =
        some (some (pacers id).numbers) ∧
      ∀ clock, perfPacerRunExact (pacers id).numbers (clock.map UInt64.toNat) =
        some ((perfPacerRun (pacers id) clock).1.numbers,
          (perfPacerRun (pacers id) clock).2.map fun offer => offer.dueNs.toNat) := by
  refine ⟨?_, fun clocks => ⟨offeredSlots_nodup hworkers.2 hduration.2 hinit clocks,
    offeredSlots_lt hworkers.2 hduration.2 hinit clocks⟩, ?_, ?_⟩
  · intro id hid clock
    obtain ⟨hpaced, hstart, hrate, -, -, hnext, hskipped⟩ :=
      workerPacer_paced hworkers.2 hduration.2 (hinit id hid)
    have hrun := hpaced.run clock
    constructor
    · intro offer hoffer
      obtain ⟨-, hdue, hafter, hnow, hbefore⟩ := hrun.onTime offer hoffer
      rw [hstart, hrate] at hdue
      rw [hstart] at hafter
      rw [UInt64.lt_iff_toNat_lt, hpaced.end_eq, hstart] at hbefore
      exact ⟨hdue, Nat.max_le.mpr ⟨UInt64.le_iff_toNat_le.mp hnow,
        UInt64.le_iff_toNat_le.mp hafter⟩, hbefore⟩
    · have hbalance := hrun.balance
      rw [hnext, hskipped, UInt64.toNat_zero, Nat.add_zero, Nat.zero_add] at hbalance
      exact hbalance
  · intro turns
    have hle := logicalStarts_le hworkers.2 hduration.2 hinit turns
    exact ⟨hle, missedSlots_eq hrate.2 hduration.2 hle⟩
  · intro id hid
    have hsmall : (UInt64.ofNat id).toNat = id :=
      UInt64.toNat_ofNat_of_lt' (show id < 2 ^ 64 by omega)
    have hexact := workerPacerExact_eq hduration.2 (hinit id hid)
    rw [hsmall] at hexact
    obtain ⟨hpaced, -⟩ := workerPacer_paced hworkers.2 hduration.2 (hinit id hid)
    exact ⟨hexact, hpaced.runExact_eq⟩

end Workers

def samplePacer (id : Nat) : PerfPacer UInt64 where
  startNs := 1000
  endNs := 1000001000
  targetRps := 3
  workerCount := 2
  workerId := UInt64.ofNat id
  nextOrdinal := 0
  skippedSlots := 0

/-- The first worker is asked twice in time, the second one late: it has missed slot `1`
    and has no other. -/
def sampleClock (id : Nat) : List UInt64 :=
  if id = 0 then [0, 400000000, 400000000] else [500000000]

theorem paced_slots_once_two_workers :
    offeredSlots 2 samplePacer sampleClock = [0, 2] ∧ [0, 2].Nodup := by
  have hinit : ∀ id < (2 : UInt64).toNat,
      workerPacer 1000 3 2 (UInt64.ofNat id) 1 = some (samplePacer id) := by decide +kernel
  have hslots : offeredSlots 2 samplePacer sampleClock = [0, 2] := by decide +kernel
  have hnodup := ((paced_slots_once (by decide) (by decide) (by decide) hinit).2.1 sampleClock).1
  exact ⟨hslots, hslots ▸ hnodup⟩

end RlClient
