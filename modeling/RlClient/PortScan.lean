import Mathlib.Data.List.Nodup
import Mathlib.Order.Basic
import RlClient.Recorded
import RlClient.Types

/-!
# The scan for a source port

A client that is told to change its source port goes through the dynamic ports in a
circle, from the successor of the port it has, and takes the first one that can be bound.
The scan is a search in the sense of `Probe`; the ports are the 16384 residues of a
circle, and the successor moves by one residue.
-/

namespace RlClient

def R_STEERING_PORT_MIN : UInt16 := 49152

def R_STEERING_PORT_COUNT : Nat := 16384

/-- `r_steering_bind_result_t`. -/
inductive RSteeringBindResult where
  | error
  | ok
  | occupied
  deriving Repr, DecidableEq

/-- `r_client_next_steering_port`. -/
def rClientNextSteeringPort (port : UInt16) : UInt16 :=
  if port < R_STEERING_PORT_MIN || port == 65535 then R_STEERING_PORT_MIN else port + 1

/-- The two cells `r_client_select_steering_port` writes. -/
structure PortCells where
  selectedPort : UInt16
  nextPort : UInt16
  deriving Repr, DecidableEq

variable {σ : Type}

/-- The loop of `r_client_select_steering_port`, with the tries that are left. -/
def selectSteeringLoop (tryBind : σ → UInt16 → RSteeringBindResult × σ) :
    Nat → UInt16 → σ → PortCells → RClientError × PortCells × σ
  | 0, _, user, out => (.errIo, out, user)
  | n + 1, candidate, user, out =>
      match tryBind user candidate with
      | (.ok, user') => (.ok, ⟨candidate, rClientNextSteeringPort candidate⟩, user')
      | (.error, user') => (.errIo, out, user')
      | (.occupied, user') =>
          selectSteeringLoop tryBind n (rClientNextSteeringPort candidate) user' out

/-- The port `r_client_select_steering_port` begins with. -/
def firstCandidate (firstPort : UInt16) : UInt16 :=
  if firstPort < R_STEERING_PORT_MIN then R_STEERING_PORT_MIN else firstPort

/-- `r_client_select_steering_port`. The callback has the state `user`, which a try may
    change. -/
def rClientSelectSteeringPort (firstPort : UInt16)
    (tryBind : σ → UInt16 → RSteeringBindResult × σ) (user : σ) (out : PortCells) :
    RClientError × PortCells × σ :=
  selectSteeringLoop tryBind R_STEERING_PORT_COUNT (firstCandidate firstPort) user out

/-! ### The circle of ports -/

/-- The dynamic ports. Every port from the least one on is one of them. -/
def Dynamic (port : UInt16) : Prop := 49152 ≤ port.toNat

theorem dynamic_firstCandidate (firstPort : UInt16) : Dynamic (firstCandidate firstPort) := by
  unfold Dynamic firstCandidate
  split
  · decide
  · rename_i h
    simpa [UInt16.lt_iff_toNat_lt, R_STEERING_PORT_MIN] using h

theorem toNat_firstCandidate (firstPort : UInt16) :
    (firstCandidate firstPort).toNat = max firstPort.toNat 49152 := by
  unfold firstCandidate
  split
  · rename_i h
    rw [UInt16.lt_iff_toNat_lt] at h
    exact (max_eq_right h.le).symm
  · rename_i h
    rw [UInt16.lt_iff_toNat_lt, Nat.not_lt] at h
    exact (max_eq_left h).symm

theorem firstCandidate_of_dynamic {port : UInt16} (h : Dynamic port) :
    firstCandidate port = port := by
  rw [← UInt16.toNat_inj, toNat_firstCandidate]
  exact max_eq_left h

theorem toNat_rClientNextSteeringPort {port : UInt16} (h : Dynamic port) :
    (rClientNextSteeringPort port).toNat = 49152 + (port.toNat - 49152 + 1) % 16384 := by
  have hlt := port.toNat_lt
  unfold Dynamic at h
  unfold rClientNextSteeringPort
  by_cases hlast : port.toNat = 65535
  · have hport : port = 65535 := UInt16.toNat_inj.mp hlast
    rw [hport]
    rfl
  · have hnext : ¬ (decide (port < R_STEERING_PORT_MIN) || port == 65535) = true := by
      simp only [Bool.or_eq_true, decide_eq_true_eq, beq_iff_eq, UInt16.lt_iff_toNat_lt, not_or]
      refine ⟨Nat.not_lt.mpr h, fun hport => hlast ?_⟩
      rw [hport]
      rfl
    rw [if_neg hnext, UInt16.toNat_add, UInt16.toNat_one]
    omega

theorem dynamic_rClientNextSteeringPort (port : UInt16) :
    Dynamic (rClientNextSteeringPort port) := by
  by_cases h : Dynamic port
  · rw [Dynamic, toNat_rClientNextSteeringPort h]
    exact Nat.le_add_right _ _
  · have hbelow : port < R_STEERING_PORT_MIN := UInt16.lt_iff_toNat_lt.mpr (Nat.not_le.mp h)
    rw [rClientNextSteeringPort, decide_eq_true hbelow, Bool.true_or, if_pos rfl]
    exact Nat.le_refl _

theorem toNat_iterate_next {port : UInt16} (h : Dynamic port) (k : Nat) :
    (rClientNextSteeringPort^[k] port).toNat = 49152 + (port.toNat - 49152 + k) % 16384 := by
  have hlt := port.toNat_lt
  induction k with
  | zero =>
    unfold Dynamic at h
    rw [Function.iterate_zero_apply]
    omega
  | succ k ih =>
    have hdynamic : Dynamic (rClientNextSteeringPort^[k] port) := by
      rw [Dynamic, ih]
      exact Nat.le_add_right _ _
    rw [Function.iterate_succ_apply', toNat_rClientNextSteeringPort hdynamic, ih]
    omega

theorem dynamic_iterate_next {port : UInt16} (h : Dynamic port) (k : Nat) :
    Dynamic (rClientNextSteeringPort^[k] port) := by
  rw [Dynamic, toNat_iterate_next h]
  exact Nat.le_add_right _ _

/-- Two walks from one port meet when their lengths differ by whole rounds. -/
theorem iterate_next_eq_iff {port : UInt16} (h : Dynamic port) (j k : Nat) :
    rClientNextSteeringPort^[j] port = rClientNextSteeringPort^[k] port ↔
      j % 16384 = k % 16384 := by
  rw [← UInt16.toNat_inj, toNat_iterate_next h, toNat_iterate_next h]
  omega

theorem exists_iterate_next {port target : UInt16} (h : Dynamic port) (ht : Dynamic target) :
    ∃ k < 16384, rClientNextSteeringPort^[k] port = target := by
  have hlt := target.toNat_lt
  have hlt' := port.toNat_lt
  unfold Dynamic at ht
  refine ⟨(target.toNat - 49152 + 16384 - (port.toNat - 49152)) % 16384,
    Nat.mod_lt _ (by decide), ?_⟩
  rw [← UInt16.toNat_inj, toNat_iterate_next h]
  unfold Dynamic at h
  omega

/-! ### The loop is a search -/

/-- The status and the cells, read off the answer that ended the search. -/
def scanOutcome (found : Option (UInt16 × RSteeringBindResult)) (out : PortCells) :
    RClientError × PortCells :=
  match found with
  | some (port, .ok) => (.ok, ⟨port, rClientNextSteeringPort port⟩)
  | _ => (.errIo, out)

theorem scanOutcome_ne_ok {port : UInt16} {result : RSteeringBindResult} (h : result ≠ .ok)
    (out : PortCells) : (scanOutcome (some (port, result)) out).1 ≠ .ok := by
  cases result with
  | error => simp [scanOutcome]
  | ok => exact absurd rfl h
  | occupied => simp [scanOutcome]

theorem selectSteeringLoop_eq_search (tryBind : σ → UInt16 → RSteeringBindResult × σ) (n : Nat)
    (candidate : UInt16) (user : σ) (out : PortCells) :
    selectSteeringLoop tryBind n candidate user out =
      let found := Probe.search tryBind rClientNextSteeringPort .occupied n candidate user
      ((scanOutcome found.1 out).1, (scanOutcome found.1 out).2, found.2) := by
  induction n generalizing candidate user with
  | zero => rfl
  | succ n ih =>
    rw [selectSteeringLoop, Probe.search]
    obtain ⟨result, user'⟩ := tryBind user candidate
    cases result with
    | error => rfl
    | ok => rfl
    | occupied => exact ih (rClientNextSteeringPort candidate) user'

/-! ### What is tried -/

/-- The tries of a scan that begins at `firstPort`: each port is the cyclic successor of
    the one before, only the last try may find a port that is not occupied, no port is tried
    twice, and a scan that finds nothing has tried them all. -/
structure ScanOrder (firstPort : UInt16) (tries : List (UInt16 × RSteeringBindResult)) :
    Prop where
  nonempty : tries ≠ []
  ports : tries.map (fun t => t.1.toNat) =
    (List.range tries.length).map fun i => 49152 + (max firstPort.toNat 49152 - 49152 + i) % 16384
  goesOn : ∀ t ∈ tries.dropLast, t.2 = .occupied
  bounded : tries.length ≤ 16384
  inRange : ∀ t ∈ tries, 49152 ≤ t.1.toNat ∧ t.1.toNat ≤ 65535
  distinct : (tries.map Prod.fst).Nodup
  exhausts : (∀ t ∈ tries, t.2 = .occupied) → tries.length = 16384 ∧
    ∀ port : UInt16, 49152 ≤ port.toNat → port ∈ tries.map Prod.fst

def triesOf (tryBind : σ → UInt16 → RSteeringBindResult × σ) (candidate : UInt16) (user : σ)
    (n : Nat) : List (UInt16 × RSteeringBindResult) :=
  (List.range n).map fun j => (rClientNextSteeringPort^[j] candidate,
    Probe.answer tryBind rClientNextSteeringPort j candidate user)

theorem triesOf_succ (tryBind : σ → UInt16 → RSteeringBindResult × σ) (candidate : UInt16)
    (user : σ) (n : Nat) :
    triesOf tryBind candidate user (n + 1) = triesOf tryBind candidate user n ++
      [(rClientNextSteeringPort^[n] candidate,
        Probe.answer tryBind rClientNextSteeringPort n candidate user)] := by
  rw [triesOf, List.range_succ, List.map_append]
  rfl

/-- A number of tries after each of which but the last the scan went on is in order, if it
    either has a last one or is complete. -/
theorem scanOrder_triesOf {tryBind : σ → UInt16 → RSteeringBindResult × σ} {firstPort : UInt16}
    {user : σ} {n : Nat} (hn : n < 16384)
    (hagain : ∀ j < n, Probe.answer tryBind rClientNextSteeringPort j (firstCandidate firstPort)
      user = .occupied)
    (hend : Probe.answer tryBind rClientNextSteeringPort n (firstCandidate firstPort) user =
      .occupied → n + 1 = 16384) :
    ScanOrder firstPort (triesOf tryBind (firstCandidate firstPort) user (n + 1)) := by
  have hdynamic := dynamic_firstCandidate firstPort
  have hlength : (triesOf tryBind (firstCandidate firstPort) user (n + 1)).length = n + 1 := by
    rw [triesOf, List.length_map, List.length_range]
  have hports : (triesOf tryBind (firstCandidate firstPort) user (n + 1)).map Prod.fst =
      (List.range (n + 1)).map fun j => rClientNextSteeringPort^[j] (firstCandidate firstPort) := by
    rw [triesOf, List.map_map]
    rfl
  refine ⟨?_, ?_, ?_, ?_, ?_, ?_, ?_⟩
  · rw [triesOf_succ]
    exact List.append_ne_nil_of_right_ne_nil _ (List.cons_ne_nil _ _)
  · rw [hlength, triesOf, List.map_map]
    refine List.map_congr_left fun j _ => ?_
    rw [← toNat_firstCandidate]
    exact toNat_iterate_next hdynamic j
  · intro t ht
    rw [triesOf_succ, List.dropLast_concat] at ht
    obtain ⟨j, hj, rfl⟩ := List.mem_map.mp ht
    exact hagain j (List.mem_range.mp hj)
  · rw [hlength]
    exact hn
  · intro t ht
    obtain ⟨j, -, rfl⟩ := List.mem_map.mp ht
    exact ⟨dynamic_iterate_next hdynamic j, Nat.le_of_lt_succ (UInt16.toNat_lt _)⟩
  · rw [hports]
    refine List.Nodup.map_on ?_ List.nodup_range
    intro j hj k hk hsame
    rw [iterate_next_eq_iff hdynamic, Nat.mod_eq_of_lt, Nat.mod_eq_of_lt] at hsame
    · exact hsame
    · exact Nat.lt_of_lt_of_le (List.mem_range.mp hk) hn
    · exact Nat.lt_of_lt_of_le (List.mem_range.mp hj) hn
  · intro hall
    have hfull : n + 1 = 16384 :=
      hend (hall _ (List.mem_map.mpr ⟨n, List.self_mem_range_succ, rfl⟩))
    refine ⟨hlength.trans hfull, fun port hport => ?_⟩
    obtain ⟨k, hk, rfl⟩ := exists_iterate_next hdynamic hport
    rw [hports, hfull]
    exact List.mem_map.mpr ⟨k, List.mem_range.mpr hk, rfl⟩

/-- How a scan ends, with what has been tried and the state that is left. -/
theorem rClientSelectSteeringPort_cases (firstPort : UInt16)
    (tryBind : σ → UInt16 → RSteeringBindResult × σ) (user : σ) (out : PortCells) :
    ∃ n < 16384,
      (∀ j < n, Probe.answer tryBind rClientNextSteeringPort j (firstCandidate firstPort) user =
        .occupied) ∧
      (Probe.answer tryBind rClientNextSteeringPort n (firstCandidate firstPort) user =
        .occupied → n + 1 = 16384) ∧
      rClientSelectSteeringPort firstPort tryBind user out =
        ((scanOutcome (some (rClientNextSteeringPort^[n] (firstCandidate firstPort),
            Probe.answer tryBind rClientNextSteeringPort n (firstCandidate firstPort) user)) out).1,
          (scanOutcome (some (rClientNextSteeringPort^[n] (firstCandidate firstPort),
            Probe.answer tryBind rClientNextSteeringPort n (firstCandidate firstPort) user)) out).2,
          Probe.after tryBind rClientNextSteeringPort (n + 1) (firstCandidate firstPort) user) := by
  rw [rClientSelectSteeringPort, selectSteeringLoop_eq_search]
  rcases Probe.search_cases tryBind rClientNextSteeringPort .occupied R_STEERING_PORT_COUNT
      (firstCandidate firstPort) user with ⟨hnone, hagain⟩ | ⟨n, hn, hsome, hlast, hagain⟩
  · -- the last of the occupied ports ends the scan like an error
    have hlast := hagain 16383 (by decide)
    have hcount : R_STEERING_PORT_COUNT = 16383 + 1 := rfl
    refine ⟨16383, by decide, fun j hj => hagain j (hj.trans (by decide)), fun _ => rfl, ?_⟩
    rw [hnone, hlast, hcount]
    simp only [scanOutcome]
  · refine ⟨n, hn, hagain, fun h => absurd h hlast, ?_⟩
    rw [hsome]

/-- **The scan.** For every first port, every callback with a memory and whatever is in the
    output cells: the ports that are tried are in order; the scan succeeds exactly when the
    last try did, and then the cells hold that port and its cyclic successor; otherwise it
    reports an I/O error and the cells are as before. -/
theorem steering_port_scan (firstPort : UInt16)
    (tryBind : σ → UInt16 → RSteeringBindResult × σ) (user : σ) (out : PortCells) :
    ∃ status cells user' tries last,
      rClientSelectSteeringPort firstPort tryBind user out = (status, cells, user') ∧
      rClientSelectSteeringPort firstPort (Probe.recorded tryBind) (user, []) out =
        (status, cells, (user', tries)) ∧
      ScanOrder firstPort tries ∧ tries.getLast? = some last ∧
      (status = .ok ↔ last.2 = .ok) ∧
      (status = .ok → cells.selectedPort = last.1 ∧
        cells.nextPort.toNat = 49152 + (last.1.toNat - 49152 + 1) % 16384) ∧
      (status ≠ .ok → status = .errIo ∧ cells = out) := by
  obtain ⟨n, hn, hagain, hend, hresult⟩ :=
    rClientSelectSteeringPort_cases firstPort tryBind user out
  obtain ⟨n', hn', hagain', hend', hrecorded⟩ :=
    rClientSelectSteeringPort_cases firstPort (Probe.recorded tryBind) (user, []) out
  simp only [Probe.answer_recorded] at hagain' hend' hrecorded
  -- the two scans end at the same try, since they get the same answers
  obtain rfl : n = n' := by
    rcases Nat.lt_trichotomy n n' with hlt | hsame | hlt
    · have := hend (hagain' n hlt)
      omega
    · exact hsame
    · have := hend' (hagain n' hlt)
      omega
  have hdynamic := dynamic_iterate_next (dynamic_firstCandidate firstPort) n
  rw [Probe.after_recorded, List.nil_append] at hrecorded
  have hlast := congrArg List.getLast? (triesOf_succ tryBind (firstCandidate firstPort) user n)
  rw [List.getLast?_concat] at hlast
  refine ⟨_, _, _, _, _, hresult, hrecorded, scanOrder_triesOf hn hagain hend, hlast, ?_⟩
  cases Probe.answer tryBind rClientNextSteeringPort n (firstCandidate firstPort) user with
  | error => simp [scanOutcome]
  | ok => simp [scanOutcome, toNat_rClientNextSteeringPort hdynamic]
  | occupied => simp [scanOutcome]

end RlClient
