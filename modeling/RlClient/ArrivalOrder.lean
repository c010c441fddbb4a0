import RlClient.Delivery
import RlClient.Preference
import RlClient.Steering

/-!
# The order of arrival

Until the end of round zero it does not matter in which order, or how often, the
responses to a request arrive. A request that waits absorbs them one by one; what
it remembers of them (the candidate, the responders, the steering flag) depends
on the set of responses only, and nothing else of it changes.
-/

namespace RlClient

/-! ### Absorbing responses -/

/-- What one accepted datagram brings to its request. -/
structure Arrival where
  response : RResponse
  sender : RAddr
  alloc : SeenAlloc

/-- The request after the updates of `r_client_on_datagram` for each arrival. -/
def absorb (req : RClientReq) (arrivals : List Arrival) : RClientReq :=
  arrivals.foldl (fun req a => recordResponse req a.response a.sender a.alloc) req

theorem absorb_snoc (req : RClientReq) (arrivals : List Arrival) (a : Arrival) :
    absorb req (arrivals ++ [a]) =
      recordResponse (absorb req arrivals) a.response a.sender a.alloc := by
  simp [absorb]

/-- Phase, round and deadlines are the same in both. -/
structure SameSchedule (req req' : RClientReq) : Prop where
  phase : req'.phase = req.phase
  haRound : req'.haRound = req.haRound
  haRoundStartMs : req'.haRoundStartMs = req.haRoundStartMs
  haPreferenceDeadlineMs : req'.haPreferenceDeadlineMs = req.haPreferenceDeadlineMs
  haRoundDeadlineMs : req'.haRoundDeadlineMs = req.haRoundDeadlineMs
  attemptDeadlineMs : req'.attemptDeadlineMs = req.attemptDeadlineMs

theorem recordResponse_schedule (req : RClientReq) (response : RResponse) (sender : RAddr)
    (alloc : SeenAlloc) : SameSchedule req (recordResponse req response sender alloc) := by
  obtain ⟨addrs, addrCap, heq⟩ := recordResponse_eq req response sender alloc
  rw [heq]
  exact ⟨rfl, rfl, rfl, rfl, rfl, rfl⟩

theorem absorb_schedule (req : RClientReq) (arrivals : List Arrival) :
    SameSchedule req (absorb req arrivals) := by
  induction arrivals using List.reverseRecOn with
  | nil => exact ⟨rfl, rfl, rfl, rfl, rfl, rfl⟩
  | append_singleton arrivals a ih =>
    rw [absorb_snoc]
    have hlast := recordResponse_schedule (absorb req arrivals) a.response a.sender a.alloc
    exact ⟨hlast.phase.trans ih.phase, hlast.haRound.trans ih.haRound,
      hlast.haRoundStartMs.trans ih.haRoundStartMs,
      hlast.haPreferenceDeadlineMs.trans ih.haPreferenceDeadlineMs,
      hlast.haRoundDeadlineMs.trans ih.haRoundDeadlineMs,
      hlast.attemptDeadlineMs.trans ih.attemptDeadlineMs⟩

theorem absorb_same (req : RClientReq) (arrivals : List Arrival) :
    SameRequest req (absorb req arrivals) := by
  induction arrivals using List.reverseRecOn with
  | nil => exact SameRequest.refl req
  | append_singleton arrivals a ih =>
    rw [absorb_snoc]
    exact ih.trans (recordResponse_same _ a.response a.sender a.alloc)

/-- The candidate is the first of the oldest among the arrivals. -/
theorem absorb_candidate {req : RClientReq} (hnone : req.best = none) (arrivals : List Arrival) :
    CandidateOf (arrivals.map (·.response)) (absorb req arrivals).best := by
  induction arrivals using List.reverseRecOn with
  | nil =>
    rw [show (absorb req []).best = none from hnone]
    exact FirstMin.chosen_nil
  | append_singleton arrivals a ih =>
    rw [absorb_snoc, List.map_append]
    exact ih.accept a.response a.sender a.alloc

theorem absorb_steeringRebind (req : RClientReq) (arrivals : List Arrival) :
    (absorb req arrivals).steeringRebind = true ↔
      req.steeringRebind = true ∨ ∃ r ∈ arrivals.map (·.response), r.steeringByte = 0 := by
  induction arrivals using List.reverseRecOn with
  | nil => simp [absorb]
  | append_singleton arrivals a ih =>
    obtain ⟨addrs, addrCap, heq⟩ :=
      recordResponse_eq (absorb req arrivals) a.response a.sender a.alloc
    rw [absorb_snoc, heq]
    simp only [Bool.or_eq_true, beq_iff_eq, ih, List.map_append, List.map_cons, List.map_nil,
      List.mem_append, List.mem_singleton]
    constructor
    · rintro (hzero | hbefore | ⟨r, hr, hzero⟩)
      · exact .inr ⟨a.response, .inr rfl, hzero⟩
      · exact .inl hbefore
      · exact .inr ⟨r, .inl hr, hzero⟩
    · rintro (hbefore | ⟨r, hr | rfl, hzero⟩)
      · exact .inr (.inl hbefore)
      · exact .inr (.inr ⟨r, hr, hzero⟩)
      · exact .inl hzero

theorem absorb_seen {req : RClientReq} (hseen : SeenAll [] req) {arrivals : List Arrival}
    (halloc : ∀ a ∈ arrivals, a.alloc.serverIds = true) :
    SeenAll (arrivals.map (·.response)) (absorb req arrivals) := by
  induction arrivals using List.reverseRecOn with
  | nil => exact hseen
  | append_singleton arrivals a ih =>
    rw [absorb_snoc, List.map_append]
    have hbefore := ih fun b hb => halloc b (List.mem_append_left _ hb)
    exact hbefore.accept a.response a.sender (halloc a (by simp))

theorem SameSchedule.agree {req req₁ req₂ : RClientReq} (h₁ : SameSchedule req req₁)
    (h₂ : SameSchedule req req₂) : SameSchedule req₁ req₂ :=
  ⟨h₂.phase.trans h₁.phase.symm, h₂.haRound.trans h₁.haRound.symm,
    h₂.haRoundStartMs.trans h₁.haRoundStartMs.symm,
    h₂.haPreferenceDeadlineMs.trans h₁.haPreferenceDeadlineMs.symm,
    h₂.haRoundDeadlineMs.trans h₁.haRoundDeadlineMs.symm,
    h₂.attemptDeadlineMs.trans h₁.attemptDeadlineMs.symm⟩

theorem SameRequest.agree {req req₁ req₂ : RClientReq} (h₁ : SameRequest req req₁)
    (h₂ : SameRequest req req₂) : SameRequest req₁ req₂ :=
  ⟨h₂.handle.trans h₁.handle.symm, h₂.requestId.trans h₁.requestId.symm,
    h₂.targets.trans h₁.targets.symm, h₂.allowedIds.trans h₁.allowedIds.symm,
    h₂.startMs.trans h₁.startMs.symm, h₂.dedupDeadlineMs.trans h₁.dedupDeadlineMs.symm,
    h₂.dedupTtlMs.trans h₁.dedupTtlMs.symm, h₂.packet.trans h₁.packet.symm⟩

/-- What a request remembers depends on the set of responses only. -/
theorem absorb_agree {req : RClientReq} (hnone : req.best = none) {l₁ l₂ : List Arrival}
    (hset : ∀ r, r ∈ l₁.map (·.response) ↔ r ∈ l₂.map (·.response))
    (hfixed : ∀ r ∈ l₁.map (·.response), ∀ r' ∈ l₁.map (·.response),
      r.serverId = r'.serverId → r = r') :
    (absorb req l₂).best = (absorb req l₁).best ∧
      (absorb req l₂).steeringRebind = (absorb req l₁).steeringRebind := by
  constructor
  · refine ((absorb_candidate hnone l₁).eq_of_same_members ?_ ?_ (absorb_candidate hnone l₂)).symm
    · intro x
      rw [List.mem_map, List.mem_map]
      simp only [hset]
    · intro x hx y hy hkey
      obtain ⟨r, hr, rfl⟩ := List.mem_map.mp hx
      obtain ⟨r', hr', rfl⟩ := List.mem_map.mp hy
      rw [hfixed r hr r' hr' (UInt64.toNat_inj.mp hkey)]
  · rw [Bool.eq_iff_iff, absorb_steeringRebind, absorb_steeringRebind]
    simp only [hset]

/-! ### Round zero -/

/-- The one deadline of a request in round zero. -/
structure OneDeadline (req : RClientReq) : Prop where
  preference : req.haPreferenceDeadlineMs = req.haRoundDeadlineMs
  attempt : req.attemptDeadlineMs = req.haRoundDeadlineMs

theorem holdCandidate_of_oneDeadline {req : RClientReq} (h : OneDeadline req) :
    holdCandidate req = req := by
  have hnot : ¬ req.haPreferenceDeadlineMs < req.attemptDeadlineMs := by
    rw [h.preference, h.attempt]
    exact UInt64.lt_irrefl _
  unfold holdCandidate
  simp [hnot]

theorem OneDeadline.of_schedule {req req' : RClientReq} (h : OneDeadline req)
    (hsame : SameSchedule req req') : OneDeadline req' := by
  constructor
  · rw [hsame.haPreferenceDeadlineMs, hsame.haRoundDeadlineMs]
    exact h.preference
  · rw [hsame.attemptDeadlineMs, hsame.haRoundDeadlineMs]
    exact h.attempt

theorem ReqStep.oneDeadline {c : RClient} {h : Handle} {req req' : RClientReq} {call : Call}
    {effects : List Effect} (hstep : ReqStep c h req call effects (.live req'))
    (hone : req.phase = .round → req.haRound = 0 → OneDeadline req)
    (hphase : req'.phase = .round) (hround : req'.haRound = 0) : OneDeadline req' := by
  cases hstep with
  | retained buf sender io response =>
    have hsame := recordResponse_schedule req response sender io.allocSeen
    rw [holdCandidate_eq] at hphase hround
    have hrecorded := (hone (hsame.phase.symm.trans hphase)
      (hsame.haRound.symm.trans hround)).of_schedule hsame
    rw [holdCandidate_of_oneDeadline hrecorded]
    exact hrecorded
  | early => exact hone hphase hround
  | held => exact ⟨(hone hphase hround).preference, (hone hphase hround).preference⟩
  | rearmed => exact ⟨(hone hphase hround).preference, rfl⟩
  | replayed nowMs io gapUnits _ _ _ _ hleft =>
    have hsucc := toNat_succ_of_lt hleft
    rw [show req.haRound + 1 = 0 from hround] at hsucc
    exact absurd hsucc (by simp)
  | finalEntered nowMs io entered _ _ _ _ _ hentered =>
    obtain ⟨-, rfl⟩ := rEnterFinal_ok hentered
    exact absurd hphase (by simp)

theorem run_oneDeadline {gcm : Gcm} {args : CreateArgs} {c : RClient}
    (hcreate : rClientCreate args = .ok c) {calls : List Call} {m : Machine}
    {trace : List Effect} (hrun : run gcm c calls = some (m, trace)) {h : Handle}
    {req : RClientReq} (hview : m.view h = .live req) (hphase : req.phase = .round)
    (hround : req.haRound = 0) : OneDeadline req := by
  refine live_induction (h := h) hcreate (P := fun _ req _ =>
    req.phase = .round → req.haRound = 0 → OneDeadline req)
    (fun _ _ _ _ hone => hone) ?_ ?_ hrun hview hphase hround
  · intro calls args io req gapUnits _ _ _ _
    exact ⟨rfl, rfl⟩
  · intro calls call req req' trace effects hone hstep
    exact hstep.oneDeadline hone

/-- A request that has accepted nothing remembers no responder. -/
theorem run_seen_nil {gcm : Gcm} {args : CreateArgs} {c : RClient}
    (hcreate : rClientCreate args = .ok c) {calls : List Call} {m : Machine}
    {trace : List Effect} (hrun : run gcm c calls = some (m, trace)) {h : Handle}
    {req : RClientReq} (hview : (m.view h).request? = some req)
    (hfresh : acceptedBy h trace = []) : SeenAll [] req := by
  have hinv := request_induction (h := h) hcreate
    (P := fun _ req trace => acceptedBy h trace = [] → SeenAll [] req)
    (fun _ _ _ _ hnil => hnil) ?_ ?_ hrun hview
  · rw [acceptedBy_about] at hinv
    exact hinv hfresh
  · intro calls args io req gapUnits built _ _ id
    have hids : (firstRound c req gapUnits).seenServerIds = [] :=
      congrArg RClientReq.seenServerIds built.eq
    rw [hids]
    exact Iff.rfl
  · intro calls call req req' trace effects view hnil hstep hheld hfresh
    rw [acceptedBy_append, List.append_eq_nil_iff] at hfresh
    rcases hstep.memory hheld with ⟨-, hsame⟩ | ⟨buf, sender, io, response, -, hone, -⟩
    · unfold SeenAll
      rw [hsame.seenServerIds]
      exact hnil hfresh.1
    · exact absurd (hone.symm.trans hfresh.2) (by simp)

/-! ### One delivery -/

/-- The oldest server's response replaces any candidate that does not decide. -/
theorem rCandidateTryUpdateBest_oldest {ids : List UInt64} {best : Option RRateLimitResult}
    {result : RRateLimitResult}
    (hopen : ∀ current, best = some current → rIsOldestKnownServer ids current.serverId = false)
    (holdest : rIsOldestKnownServer ids result.serverId = true) :
    rCandidateTryUpdateBest best result = some result := by
  cases best with
  | none => rfl
  | some current =>
    have hnot := hopen current rfl
    rw [← Bool.not_eq_true, rIsOldestKnownServer_iff] at hnot
    push Not at hnot
    obtain ⟨a, ha, holder⟩ := hnot
    have hle := (rIsOldestKnownServer_iff _ _).mp holdest a ha
    rw [older_iff_lt] at holder hle
    have hreplaces : rServerIsOlder result.serverId current.serverId = true := by
      rw [rServerIsOlder_iff, older_iff_lt]
      exact UInt64.lt_of_le_of_lt (UInt64.not_lt.mp hle) holder
    simp [rCandidateTryUpdateBest, hreplaces]

theorem absorb_undecided {req : RClientReq} (hnone : req.best = none) {arrivals : List Arrival}
    (hyounger : ∀ a ∈ arrivals, rIsOldestKnownServer req.allowedIds a.response.serverId = false) :
    Undecided (absorb req arrivals) := by
  induction arrivals using List.reverseRecOn with
  | nil =>
    intro best hbest
    exact absurd (hbest.symm.trans hnone) (by simp)
  | append_singleton arrivals a ih =>
    have hopen := ih fun b hb => hyounger b (List.mem_append_left _ hb)
    have hids := (absorb_same req arrivals).allowedIds
    obtain ⟨addrs, addrCap, heq⟩ :=
      recordResponse_eq (absorb req arrivals) a.response a.sender a.alloc
    intro best hbest
    rw [absorb_snoc, heq] at hbest ⊢
    refine (oldest_of_update hopen hbest).trans ?_
    rw [hids]
    exact hyounger a (by simp)

/-- In round zero, before its deadline, a response ends a request exactly if it is
    the oldest server's, and then it is the one delivered. -/
theorem selectBest_first_round {req : RClientReq} (hone : OneDeadline req) (hopen : Undecided req)
    (response : RResponse) (sender : RAddr) (alloc : SeenAlloc) {nowMs : UInt64}
    (hearly : nowMs < req.haRoundDeadlineMs) :
    selectBest (recordResponse req response sender alloc) nowMs =
      if rIsOldestKnownServer req.allowedIds response.serverId = true then some response.result
      else none := by
  obtain ⟨addrs, addrCap, heq⟩ := recordResponse_eq req response sender alloc
  have hbefore : ¬ nowMs ≥ req.haPreferenceDeadlineMs := by
    rw [hone.preference]
    exact UInt64.not_le.mpr hearly
  obtain ⟨best, hbest⟩ := recordResponse_best_isSome req response sender alloc
  have hupdate : rCandidateTryUpdateBest req.best response.result = some best := by
    rw [heq] at hbest
    exact hbest
  have hdecides : rIsOldestKnownServer req.allowedIds best.serverId =
      rIsOldestKnownServer req.allowedIds response.serverId := oldest_of_update hopen hupdate
  unfold selectBest
  rw [hbest, heq]
  simp only [hbefore, decide_false, Bool.or_false]
  rw [hdecides]
  split
  · rename_i holdest
    rw [← hupdate]
    exact rCandidateTryUpdateBest_oldest hopen holdest
  · rfl

/-- In state `m`, the call delivers a response to the request: the datagram passes
    the gate for it, and is processed in round zero, before its deadline. -/
def Delivers (gcm : Gcm) (m : Machine) (req : RClientReq) (response : RResponse) (call : Call) :
    Prop :=
  ∃ buf sender io, call = .datagram buf sender io ∧
    onDatagramGate gcm m.client buf io = .ok (req, response) ∧ io.nowMs < req.haRoundDeadlineMs

def arrival? (gcm : Gcm) (m : Machine) : Call → Option Arrival
  | .datagram buf sender io =>
      match onDatagramGate gcm m.client buf io with
      | .ok (_, response) => some { response := response, sender := sender, alloc := io.allocSeen }
      | .error _ => none
  | _ => none

def arrivals (gcm : Gcm) (m : Machine) (calls : List Call) : List Arrival :=
  calls.filterMap (arrival? gcm m)

theorem putRequest_self {c : RClient} {req : RClientReq}
    (hnodup : (c.inflight.map (·.handle)).Nodup) (hmem : req ∈ c.inflight) :
    c.putRequest req = c := by
  unfold RClient.putRequest
  rw [Keyed.replace_self hnodup hmem]

theorem putRequest_putRequest {c : RClient} {req req' : RClientReq}
    (hhandle : req'.handle = req.handle) :
    (c.putRequest req).putRequest req' = c.putRequest req' := by
  unfold RClient.putRequest
  rw [Keyed.replace_replace hhandle]

/-- The gate lets a datagram through to a request whatever it has absorbed. -/
theorem onDatagramGate_put {gcm : Gcm} {c : RClient} {buf : Bytes} {io : DatagramIo}
    {req req' : RClientReq} {response : RResponse} (hnodup : (c.inflight.map (·.handle)).Nodup)
    (hsame : SameRequest req req') (h : onDatagramGate gcm c buf io = .ok (req, response)) :
    onDatagramGate gcm (c.putRequest req') buf io = .ok (req', response) := by
  obtain ⟨tenant, pos, pdu, parsed, hparsed, hfind, hintime, hallowed, hextract, hresponse, rfl⟩ :=
    onDatagramGate_ok_iff.mp h
  refine onDatagramGate_ok_iff.mpr ⟨tenant, pos, pdu, parsed, hparsed, ?_, ?_, ?_, hextract,
    hresponse, rfl⟩
  · exact Keyed.find_replace_pred hnodup hfind hsame.handle (by rw [hsame.requestId])
  · rw [hsame.dedupDeadlineMs]
    exact hintime
  · rw [rAllowedServerId_of_same hsame]
    exact hallowed

theorem Delivers.arrival {gcm : Gcm} {m : Machine} {req : RClientReq} {response : RResponse}
    {call : Call} (h : Delivers gcm m req response call) :
    ∃ a, arrival? gcm m call = some a ∧ a.response = response := by
  obtain ⟨buf, sender, io, rfl, hgate, -⟩ := h
  refine ⟨{ response := response, sender := sender, alloc := io.allocSeen }, ?_, rfl⟩
  simp [arrival?, hgate]

/-! ### Sequences of deliveries -/

def Machine.absorbing (m : Machine) (req : RClientReq) (arrivals : List Arrival) : Machine :=
  { m with client := m.client.putRequest (absorb req arrivals) }

/-- The response comes from the oldest server the request knows. -/
abbrev Decisive (req : RClientReq) (response : RResponse) : Prop :=
  rIsOldestKnownServer req.allowedIds response.serverId = true

theorem complete_removes {c : RClient} (hnodup : (c.inflight.map (·.handle)).Nodup)
    (recorded : RClientReq) (status : RClientError) (selected : Option RRateLimitResult)
    (io : CompleteIo) (before : List Effect) :
    ∀ r ∈ (Reply.complete (c.putRequest recorded) recorded status selected io
      before).client.inflight, r.handle ≠ recorded.handle := by
  have hnodup' : ((c.putRequest recorded).inflight.map (·.handle)).Nodup := by
    rw [show (c.putRequest recorded).inflight.map (·.handle) = c.inflight.map (·.handle) from
      Keyed.map_key_replace]
    exact hnodup
  have hgone := Keyed.find_eq_none.mp (Keyed.find_eraseP_self (k := recorded.handle) hnodup')
  intro r hr heq
  exact hgone (List.mem_map.mpr ⟨r, hr, heq⟩)

section

variable {gcm : Gcm} {c : RClient} {m : Machine} {req : RClientReq} (hwf : m.Wf c)
  (hone : OneDeadline req) (hnone : req.best = none)
include hwf hone hnone

theorem delivery_reply {arrived : List Arrival} (hopen : ∀ a ∈ arrived, ¬ Decisive req a.response)
    {buf : Bytes} (sender : RAddr) {io : DatagramIo} {response : RResponse}
    (hgate : onDatagramGate gcm m.client buf io = .ok (req, response))
    (hearly : io.nowMs < req.haRoundDeadlineMs) :
    let recorded := absorb req (arrived ++ [⟨response, sender, io.allocSeen⟩])
    rClientOnDatagram gcm (m.absorbing req arrived).client buf sender io =
      if Decisive req response then
        Reply.complete (m.client.putRequest recorded) recorded .ok (some response.result)
          io.complete [.accepted req.handle response]
      else .done .ok (m.client.putRequest recorded) [.accepted req.handle response] := by
  have hsame := absorb_same req arrived
  have hschedule := absorb_schedule req arrived
  have hundecided := absorb_undecided hnone fun a ha => Bool.not_eq_true _ ▸ hopen a ha
  have hbefore : io.nowMs < (absorb req arrived).haRoundDeadlineMs := by
    rw [hschedule.haRoundDeadlineMs]
    exact hearly
  have hselect := selectBest_first_round (hone.of_schedule hschedule) hundecided response sender
    io.allocSeen hbefore
  rw [hsame.allowedIds] at hselect
  have hheld := holdCandidate_of_oneDeadline ((hone.of_schedule hschedule).of_schedule
    (recordResponse_schedule (absorb req arrived) response sender io.allocSeen))
  have hput : (m.client.putRequest (absorb req arrived)).putRequest
      (recordResponse (absorb req arrived) response sender io.allocSeen) =
      m.client.putRequest (recordResponse (absorb req arrived) response sender io.allocSeen) :=
    putRequest_putRequest (recordResponse_handle _ _ _ _)
  simp only [absorb_snoc]
  unfold rClientOnDatagram Machine.absorbing
  rw [onDatagramGate_put hwf.nodup.of_append_left hsame hgate]
  unfold acceptResponse
  by_cases hdecisive : Decisive req response
  · rw [if_pos hdecisive] at hselect ⊢
    simp only [hselect, hsame.handle, hput]
  · rw [if_neg hdecisive] at hselect ⊢
    simp only [hselect, hsame.handle, hheld, hput]

variable (hidle : m.frames = [])
include hidle

/-- Before the oldest server's response, a delivery is absorbed. -/
theorem delivery_absorbed {arrived : List Arrival}
    (hopen : ∀ a ∈ arrived, ¬ Decisive req a.response) {call : Call} {response : RResponse}
    (hdelivers : Delivers gcm m req response call) (hyounger : ¬ Decisive req response) :
    ∃ a, arrival? gcm m call = some a ∧ a.response = response ∧
      step gcm (m.absorbing req arrived) call =
        some (m.absorbing req (arrived ++ [a]), [.accepted req.handle response]) := by
  obtain ⟨buf, sender, io, rfl, hgate, hearly⟩ := hdelivers
  refine ⟨⟨response, sender, io.allocSeen⟩, by simp [arrival?, hgate], rfl, ?_⟩
  have hframes : (m.absorbing req arrived).frames = [] := hidle
  simp only [step, hframes, List.isEmpty_nil, if_true,
    delivery_reply hwf hone hnone hopen sender hgate hearly, hyounger, if_false]
  rfl

/-- The oldest server's response completes the request. -/
theorem delivery_completes {arrived : List Arrival}
    (hopen : ∀ a ∈ arrived, ¬ Decisive req a.response) {call : Call} {response : RResponse}
    (hdelivers : Delivers gcm m req response call) (hdecisive : Decisive req response) :
    ∃ m' front, step gcm (m.absorbing req arrived) call =
        some (m', front ++ [.callback (some req.handle) .ok (some response.result)]) ∧
      (∀ e ∈ front, e.steers = false) ∧ ∀ r ∈ m'.client.inflight, r.handle ≠ req.handle := by
  obtain ⟨buf, sender, io, rfl, hgate, hearly⟩ := hdelivers
  have hframes : (m.absorbing req arrived).frames = [] := hidle
  have hreply := delivery_reply hwf hone hnone hopen sender hgate hearly
  have hhandle := (absorb_same req (arrived ++ [⟨response, sender, io.allocSeen⟩])).handle
  simp only [if_pos hdecisive] at hreply
  generalize absorb req (arrived ++ [⟨response, sender, io.allocSeen⟩]) = recorded
    at hreply hhandle
  obtain ⟨front, hfront, heffects⟩ := complete_steers (m.client.putRequest recorded) recorded .ok
    (some response.result) io.complete
    (show ∀ e ∈ [Effect.accepted req.handle response], e.steers = false by simp [Effect.steers])
  rw [hhandle] at heffects
  refine ⟨(m.absorbing req arrived).afterReply (.complete (m.client.putRequest recorded) recorded
    .ok (some response.result) io.complete [.accepted req.handle response]), front, ?_, hfront, ?_⟩
  · simp only [step, hframes, List.isEmpty_nil, if_true, hreply, heffects]
  · intro r hr
    rw [← hhandle]
    exact complete_removes hwf.nodup.of_append_left recorded .ok (some response.result) io.complete
      [.accepted req.handle response] r hr

variable (hmem : req ∈ m.client.inflight)
include hmem

/-- A sequence of deliveries without the oldest server's response is absorbed. -/
theorem deliveries_absorbed {calls : List Call}
    (hcalls : ∀ call ∈ calls, ∃ response, Delivers gcm m req response call ∧
      ¬ Decisive req response) :
    (∀ a ∈ arrivals gcm m calls, ¬ Decisive req a.response) ∧
      Run.exec (step gcm) m calls = some (m.absorbing req (arrivals gcm m calls),
        (arrivals gcm m calls).map fun a => .accepted req.handle a.response) := by
  induction calls using List.reverseRecOn with
  | nil =>
    refine ⟨fun a ha => absurd ha List.not_mem_nil, ?_⟩
    have hsame : m.absorbing req [] = m := by
      unfold Machine.absorbing
      rw [show absorb req [] = req from rfl, putRequest_self hwf.nodup.of_append_left hmem]
    rw [show arrivals gcm m [] = [] from rfl, hsame]
    rfl
  | append_singleton calls call ih =>
    obtain ⟨hopen, hrun⟩ := ih fun call hcall => hcalls call (List.mem_append_left _ hcall)
    obtain ⟨response, hdelivers, hyounger⟩ := hcalls call (by simp)
    obtain ⟨a, harrival, rfl, hstep⟩ :=
      delivery_absorbed hwf hone hnone hidle hopen hdelivers hyounger
    have hsnoc : arrivals gcm m (calls ++ [call]) = arrivals gcm m calls ++ [a] := by
      simp [arrivals, harrival]
    rw [hsnoc]
    refine ⟨?_, ?_⟩
    · intro b hb
      rcases List.mem_append.mp hb with hb | hb
      · exact hopen b hb
      · rw [List.mem_singleton.mp hb]
        exact hyounger
    · exact Run.exec_snoc.mpr ⟨_, _, _, hrun, hstep, by simp⟩

end

/-! ### Two sequences of one set -/

/-- The calls deliver the responses of the set to the request, each at least once,
    and nothing else. -/
structure DeliverySequence (gcm : Gcm) (m : Machine) (req : RClientReq)
    (responses : Set RResponse) (calls : List Call) : Prop where
  only : ∀ call ∈ calls, ∃ response ∈ responses, Delivers gcm m req response call
  all : ∀ response ∈ responses, ∃ call ∈ calls, Delivers gcm m req response call

def CompletesWith (gcm : Gcm) (m : Machine) (h : Handle) (calls : List Call)
    (result : RRateLimitResult) : Prop :=
  ∃ before call after m' front, calls = before ++ call :: after ∧
    Run.exec (step gcm) m (before ++ [call]) =
      some (m', front ++ [.callback (some h) .ok (some result)]) ∧
    (∀ status result, Effect.callback (some h) status result ∉ front) ∧
    ∀ req ∈ m'.client.inflight, req.handle ≠ h

theorem Delivers.unique {gcm : Gcm} {m : Machine} {req : RClientReq} {r r' : RResponse}
    {call : Call} (h : Delivers gcm m req r call) (h' : Delivers gcm m req r' call) : r = r' := by
  obtain ⟨buf, sender, io, rfl, hgate, -⟩ := h
  obtain ⟨_, _, _, heq, hgate', -⟩ := h'
  obtain ⟨rfl, rfl, rfl⟩ := Call.datagram.inj heq
  exact (Prod.mk.inj (Except.ok.inj (hgate.symm.trans hgate'))).2

theorem Delivers.allowed {gcm : Gcm} {m : Machine} {req : RClientReq} {response : RResponse}
    {call : Call} (h : Delivers gcm m req response call) :
    rAllowedServerId req response.serverId = true := by
  obtain ⟨buf, sender, io, rfl, hgate, -⟩ := h
  obtain ⟨tenant, pos, pdu, parsed, -, -, -, hallowed, -, -, rfl⟩ := onDatagramGate_ok_iff.mp hgate
  exact hallowed

/-- The arrivals of a delivery sequence are the responses of its set. -/
theorem DeliverySequence.mem_arrivals {gcm : Gcm} {m : Machine} {req : RClientReq}
    {responses : Set RResponse} {calls : List Call}
    (h : DeliverySequence gcm m req responses calls) (response : RResponse) :
    response ∈ (arrivals gcm m calls).map (·.response) ↔ response ∈ responses := by
  simp only [arrivals, List.mem_map, List.mem_filterMap]
  constructor
  · rintro ⟨a, ⟨call, hcall, harrival⟩, rfl⟩
    obtain ⟨response, hmem, hdelivers⟩ := h.only call hcall
    obtain ⟨a', harrival', rfl⟩ := hdelivers.arrival
    obtain rfl := Option.some.inj (harrival.symm.trans harrival')
    exact hmem
  · intro hmem
    obtain ⟨call, hcall, hdelivers⟩ := h.all response hmem
    obtain ⟨a, harrival, rfl⟩ := hdelivers.arrival
    exact ⟨a, ⟨call, hcall, harrival⟩, rfl⟩

theorem OldestOf.unique {ids : List UInt64} {a b : UInt64} (ha : OldestOf ids a)
    (hb : OldestOf ids b) : a = b := by
  have hle := ha.2 b hb.1
  have hle' := hb.2 a ha.1
  rw [older_iff_lt, UInt64.not_lt] at hle hle'
  exact UInt64.le_antisymm hle hle'

section

variable {gcm : Gcm} {c : RClient} {m : Machine} {req : RClientReq} (hwf : m.Wf c)
  (hone : OneDeadline req) (hnone : req.best = none) (hidle : m.frames = [])
  (hmem : req ∈ m.client.inflight)
include hwf hone hnone hidle hmem

theorem DeliverySequence.completes {responses : Set RResponse} {calls : List Call}
    (h : DeliverySequence gcm m req responses calls)
    (hsingle : ∀ r ∈ responses, ∀ r' ∈ responses, Decisive req r → Decisive req r' → r = r')
    {response : RResponse} (hresponse : response ∈ responses) (hdecisive : Decisive req response) :
    CompletesWith gcm m req.handle calls response.result := by
  classical
  obtain ⟨call₀, hcall₀, hdelivers₀⟩ := h.all response hresponse
  -- the first call that delivers a decisive response
  have hsome : (calls.find? fun call =>
      decide (∃ r, Delivers gcm m req r call ∧ Decisive req r)).isSome = true := by
    rw [List.find?_isSome]
    exact ⟨call₀, hcall₀, decide_eq_true ⟨response, hdelivers₀, hdecisive⟩⟩
  obtain ⟨call, hfind⟩ := Option.isSome_iff_exists.mp hsome
  obtain ⟨hcall, before, after, rfl, hfirst⟩ := List.find?_eq_some_iff_append.mp hfind
  obtain ⟨r, hdelivers, hr⟩ := of_decide_eq_true hcall
  obtain ⟨r', hr', hdelivers'⟩ := h.only call (by simp)
  obtain rfl := hdelivers.unique hdelivers'
  obtain rfl := hsingle r hr' response hresponse hr hdecisive
  have hyounger : ∀ call ∈ before, ∃ response, Delivers gcm m req response call ∧
      ¬ Decisive req response := by
    intro call hcall
    obtain ⟨response, -, hdelivers⟩ := h.only call (List.mem_append_left _ hcall)
    refine ⟨response, hdelivers, ?_⟩
    intro hdecisive
    have hnot := hfirst call hcall
    simp only [Bool.not_eq_true', decide_eq_false_iff_not] at hnot
    exact hnot ⟨response, hdelivers, hdecisive⟩
  obtain ⟨hopen, hrun⟩ := deliveries_absorbed hwf hone hnone hidle hmem hyounger
  obtain ⟨m', front, hstep, hfront, hgone⟩ :=
    delivery_completes hwf hone hnone hidle hopen hdelivers hr
  refine ⟨before, call, after, m', (arrivals gcm m before).map
    (fun a => .accepted req.handle a.response) ++ front, rfl, ?_, ?_, hgone⟩
  · exact Run.exec_snoc.mpr ⟨_, _, _, hrun, hstep, by rw [List.append_assoc]⟩
  · intro status result hcallback
    rcases List.mem_append.mp hcallback with hcallback | hcallback
    · obtain ⟨a, -, heq⟩ := List.mem_map.mp hcallback
      exact absurd heq (by simp)
    · exact absurd (hfront _ hcallback) (by simp [Effect.steers])

end

/-! ### The timer behind them -/

theorem attemptedTargets_eq {req₁ req₂ : RClientReq} (htargets : req₂.targets = req₁.targets)
    (hidentified : ∀ target ∈ req₁.targets, target.hasServerId = true)
    (hseen : ∀ id, id ∈ req₂.seenServerIds ↔ id ∈ req₁.seenServerIds) :
    attemptedTargets req₂ true = attemptedTargets req₁ true := by
  have hany : ∀ id, req₂.seenServerIds.any (· == id) = req₁.seenServerIds.any (· == id) := by
    intro id
    rw [Bool.eq_iff_iff, List.any_eq_true, List.any_eq_true]
    simpa using hseen id
  unfold attemptedTargets
  rw [htargets]
  apply List.filter_congr
  rintro ⟨target, i⟩ hmem
  have htarget := hidentified target (List.fst_mem_of_mem_zipIdx hmem)
  unfold rRequestTargetResponded
  simp only [htarget, if_true, hany]

theorem rCompletionDelivery_eq {c₁ c₂ : RClient} {req₁ req₂ : RClientReq} (io : CompleteIo)
    (hstatic : c₂.static = c₁.static) (hsame : SameRequest req₁ req₂)
    (htargets : attemptedTargets req₂ true = attemptedTargets req₁ true) :
    rCompletionDelivery c₂ req₂ io = rCompletionDelivery c₁ req₁ io := by
  rw [rCompletionDelivery_of_static hstatic]
  unfold rCompletionDelivery rSendRateRequest deliveredCount sendEffects
  rw [hsame.dedupDeadlineMs, hsame.packet, hsame.handle, htargets]

/-- A due timer delivers the candidate of round zero. -/
theorem rClientOnTimeout_elected {c : RClient} {req : RClientReq} (hone : OneDeadline req)
    {best : RRateLimitResult} (hbest : req.best = some best) {nowMs : UInt64}
    (hdue : req.haRoundDeadlineMs ≤ nowMs) (io : TimeoutIo) :
    rClientOnTimeout c req nowMs io = .complete c req .ok (some best) io.complete
      [.timer req.handle nowMs req.attemptDeadlineMs] := by
  have hafter : ¬ nowMs < req.attemptDeadlineMs := by
    rw [hone.attempt]
    exact UInt64.not_lt.mpr hdue
  have hover : nowMs ≥ req.haPreferenceDeadlineMs := by
    rw [hone.preference]
    exact hdue
  unfold rClientOnTimeout rRequestPolicyOnTimeout
  simp only [hafter, if_false, hbest, hover, if_true]

/-- Two requests that differ only in how they came by the same memory complete
    alike. -/
theorem complete_effects_eq {c : RClient} {req₁ req₂ : RClientReq} (hsame : SameRequest req₁ req₂)
    (hschedule : SameSchedule req₁ req₂)
    (htargets : attemptedTargets req₂ true = attemptedTargets req₁ true) (status : RClientError)
    (selected : Option RRateLimitResult) (io : CompleteIo) (before : List Effect) :
    (Reply.complete (c.putRequest req₂) req₂ status selected io before).effects =
      (Reply.complete (c.putRequest req₁) req₁ status selected io before).effects := by
  have hprofile : completionProfile req₂ status selected io.profileMs =
      completionProfile req₁ status selected io.profileMs := by
    unfold completionProfile
    rw [hsame.startMs, hschedule.haRound, hschedule.phase]
  have hdelivery : rCompletionDelivery (c.putRequest req₂) req₂ io =
      rCompletionDelivery (c.putRequest req₁) req₁ io :=
    rCompletionDelivery_eq io rfl hsame htargets
  unfold Reply.complete rRequestComplete
  simp only [hprofile, hdelivery, hsame.handle]
  rfl

theorem step_timeout (gcm : Gcm) {m : Machine} {h : Handle} {req : RClientReq}
    (hidle : m.frames = []) (hlive : m.view h = .live req) (nowMs : UInt64) (io : TimeoutIo) :
    step gcm m (.timeout h nowMs io) = some (m.afterReply (rClientOnTimeout m.client req nowMs io),
      (rClientOnTimeout m.client req nowMs io).effects) := by
  simp only [step, hidle, List.isEmpty_nil, if_true, view_live_iff.mp hlive]

theorem absorbing_live {m : Machine} {req : RClientReq} (hmem : req ∈ m.client.inflight)
    (arrivals : List Arrival) :
    (m.absorbing req arrivals).view req.handle = .live (absorb req arrivals) := by
  have hhandle := (absorb_same req arrivals).handle
  have hkey : (absorb req arrivals).handle ∈ m.client.inflight.map (·.handle) := by
    rw [hhandle]
    exact List.mem_map_of_mem hmem
  rw [view_live_iff, ← hhandle]
  exact Keyed.find_replace_self hkey

theorem arrivals_alloc {gcm : Gcm} {m : Machine} {calls : List Call} (halloc : Allocates calls) :
    ∀ a ∈ arrivals gcm m calls, a.alloc.serverIds = true := by
  intro a ha
  obtain ⟨call, hcall, harrival⟩ := List.mem_filterMap.mp ha
  cases call with
  | datagram buf sender io =>
    simp only [arrival?] at harrival
    split at harrival
    · obtain rfl := Option.some.inj harrival
      exact halloc buf sender io hcall
    · exact absurd harrival (by simp)
  | _ => exact absurd harrival (by simp [arrival?])

/-- A due timer has the same effects on two machines whose request remembers the
    same. -/
theorem timeout_agrees (gcm : Gcm) {m : Machine} {req : RClientReq} (hidle : m.frames = [])
    (hmem : req ∈ m.client.inflight) (hone : OneDeadline req) {l₁ l₂ : List Arrival}
    (htargets : attemptedTargets (absorb req l₂) true = attemptedTargets (absorb req l₁) true)
    {best : RRateLimitResult} (hbest₁ : (absorb req l₁).best = some best)
    (hbest₂ : (absorb req l₂).best = some best) {nowMs : UInt64}
    (hdue : req.haRoundDeadlineMs ≤ nowMs) (io : TimeoutIo) :
    ∃ m₁' m₂' effects,
      step gcm (m.absorbing req l₁) (.timeout req.handle nowMs io) = some (m₁', effects) ∧
      step gcm (m.absorbing req l₂) (.timeout req.handle nowMs io) = some (m₂', effects) ∧
      Effect.callback (some req.handle) .ok (some best) ∈ effects := by
  have hschedule₁ := absorb_schedule req l₁
  have hschedule₂ := absorb_schedule req l₂
  have hsame₁ := absorb_same req l₁
  have hsame₂ := absorb_same req l₂
  have helected₁ := rClientOnTimeout_elected (c := (m.absorbing req l₁).client)
    (hone.of_schedule hschedule₁) hbest₁ (by rw [hschedule₁.haRoundDeadlineMs]; exact hdue) io
  have helected₂ := rClientOnTimeout_elected (c := (m.absorbing req l₂).client)
    (hone.of_schedule hschedule₂) hbest₂ (by rw [hschedule₂.haRoundDeadlineMs]; exact hdue) io
  have hidle₁ : (m.absorbing req l₁).frames = [] := hidle
  have hidle₂ : (m.absorbing req l₂).frames = [] := hidle
  have hstep₁ := step_timeout gcm hidle₁ (absorbing_live hmem l₁) nowMs io
  have hstep₂ := step_timeout gcm hidle₂ (absorbing_live hmem l₂) nowMs io
  rw [helected₁, hsame₁.handle, hschedule₁.attemptDeadlineMs] at hstep₁
  rw [helected₂, hsame₂.handle, hschedule₂.attemptDeadlineMs] at hstep₂
  have heffects : (Reply.complete (m.absorbing req l₂).client (absorb req l₂) .ok (some best)
        io.complete [.timer req.handle nowMs req.attemptDeadlineMs]).effects =
      (Reply.complete (m.absorbing req l₁).client (absorb req l₁) .ok (some best)
        io.complete [.timer req.handle nowMs req.attemptDeadlineMs]).effects :=
    complete_effects_eq (hsame₁.agree hsame₂) (hschedule₁.agree hschedule₂) htargets _ _ _ _
  rw [heffects] at hstep₂
  refine ⟨_, _, _, hstep₁, hstep₂, ?_⟩
  rw [← hsame₁.handle]
  simp [Reply.complete, rRequestComplete]

/-- **Arrival-order independence.** A request is in round zero and has accepted
    nothing yet. Two sequences deliver the same set of responses to it, one content
    per server, in any order and any number of times, before the end of the round.
    If the oldest server of the snapshot is among them, both complete the request
    with its response. Otherwise neither completes it, and they leave the same
    candidate, steering flag and deadlines and, allocations succeeding, the same
    responders, so that a timer at or behind the deadline has the same effects:
    the same result and the same endpoints. -/
theorem arrival_order_independent {gcm : Gcm} {args : CreateArgs} {c : RClient}
    (hcreate : rClientCreate args = .ok c) {calls : List Call} {m : Machine}
    {trace : List Effect} (hrun : run gcm c calls = some (m, trace)) (hidle : m.frames = [])
    {req : RClientReq} (hmem : req ∈ m.client.inflight) (hphase : req.phase = .round)
    (hround : req.haRound = 0) (hfresh : acceptedBy req.handle trace = [])
    {responses : Set RResponse}
    (hfixed : ∀ r ∈ responses, ∀ r' ∈ responses, r.serverId = r'.serverId → r = r')
    {calls₁ calls₂ : List Call} (hseq₁ : DeliverySequence gcm m req responses calls₁)
    (hseq₂ : DeliverySequence gcm m req responses calls₂) :
    (∀ r ∈ responses, OldestOf (req.targets.map (·.serverId)) r.serverId →
      CompletesWith gcm m req.handle calls₁ r.result ∧
        CompletesWith gcm m req.handle calls₂ r.result) ∧
    ((∀ r ∈ responses, ¬ OldestOf (req.targets.map (·.serverId)) r.serverId) →
      ∃ m₁ trace₁ req₁ m₂ trace₂ req₂,
        Run.exec (step gcm) m calls₁ = some (m₁, trace₁) ∧
        Run.exec (step gcm) m calls₂ = some (m₂, trace₂) ∧
        m₁.view req.handle = .live req₁ ∧ m₂.view req.handle = .live req₂ ∧
        req₂.best = req₁.best ∧ req₂.steeringRebind = req₁.steeringRebind ∧
        SameSchedule req₁ req₂ ∧ SameRequest req₁ req₂ ∧
        (Allocates calls₁ → Allocates calls₂ →
          (∀ id, id ∈ req₂.seenServerIds ↔ id ∈ req₁.seenServerIds) ∧
          ∀ nowMs io, req.haRoundDeadlineMs ≤ nowMs →
            ∃ m₁' m₂' effects, step gcm m₁ (.timeout req.handle nowMs io) = some (m₁', effects) ∧
              step gcm m₂ (.timeout req.handle nowMs io) = some (m₂', effects) ∧
              ∀ best, req₁.best = some best →
                Effect.callback (some req.handle) .ok (some best) ∈ effects)) := by
  have hwf := run_wf hcreate hrun
  have hlive := view_of_mem hwf hmem
  have hheld : (m.view req.handle).request? = some req := by
    rw [hlive]
    rfl
  have hone := run_oneDeadline hcreate hrun hlive hphase hround
  have hnone : req.best = none :=
    (run_knows hcreate hrun hheld).candidate.1.mpr (by rw [hfresh]; rfl)
  obtain ⟨started, ⟨launch⟩, hsame, -⟩ := run_live hcreate hrun hlive
  have holdest : ∀ r ∈ responses, Decisive req r ↔
      OldestOf (req.targets.map (·.serverId)) r.serverId := by
    intro r hr
    obtain ⟨call, -, hdelivers⟩ := hseq₁.all r hr
    exact launch.oldest_iff hsame hdelivers.allowed
  refine ⟨?_, ?_⟩
  · intro r hr hr'
    have hsingle : ∀ r ∈ responses, ∀ r' ∈ responses, Decisive req r → Decisive req r' →
        r = r' := by
      intro r hr r' hr' hdecisive hdecisive'
      exact hfixed r hr r' hr'
        (((holdest r hr).mp hdecisive).unique ((holdest r' hr').mp hdecisive'))
    have hdecisive := (holdest r hr).mpr hr'
    exact ⟨hseq₁.completes hwf hone hnone hidle hmem hsingle hr hdecisive,
      hseq₂.completes hwf hone hnone hidle hmem hsingle hr hdecisive⟩
  · intro hyounger
    have hdeliver : ∀ {calls}, DeliverySequence gcm m req responses calls →
        Run.exec (step gcm) m calls = some (m.absorbing req (arrivals gcm m calls),
          (arrivals gcm m calls).map fun a => .accepted req.handle a.response) := by
      intro calls hseq
      refine (deliveries_absorbed hwf hone hnone hidle hmem ?_).2
      intro call hcall
      obtain ⟨r, hr, hdelivers⟩ := hseq.only call hcall
      exact ⟨r, hdelivers, mt (holdest r hr).mp (hyounger r hr)⟩
    have hset : ∀ r, r ∈ (arrivals gcm m calls₁).map (·.response) ↔
        r ∈ (arrivals gcm m calls₂).map (·.response) := by
      intro r
      rw [hseq₁.mem_arrivals, hseq₂.mem_arrivals]
    obtain ⟨hbest, hsteering⟩ := absorb_agree hnone hset fun r hr r' hr' =>
      hfixed r ((hseq₁.mem_arrivals r).mp hr) r' ((hseq₁.mem_arrivals r').mp hr')
    have hschedule := (absorb_schedule req (arrivals gcm m calls₁)).agree
      (absorb_schedule req (arrivals gcm m calls₂))
    have hrequest := (absorb_same req (arrivals gcm m calls₁)).agree
      (absorb_same req (arrivals gcm m calls₂))
    refine ⟨_, _, _, _, _, _, hdeliver hseq₁, hdeliver hseq₂, absorbing_live hmem _,
      absorbing_live hmem _, hbest, hsteering, hschedule, hrequest, ?_⟩
    intro halloc₁ halloc₂
    have hfirst := run_seen_nil hcreate hrun hheld hfresh
    have hids : ∀ id, id ∈ (absorb req (arrivals gcm m calls₂)).seenServerIds ↔
        id ∈ (absorb req (arrivals gcm m calls₁)).seenServerIds := by
      intro id
      rw [absorb_seen hfirst (arrivals_alloc halloc₁) id,
        absorb_seen hfirst (arrivals_alloc halloc₂) id, List.mem_map, List.mem_map]
      simp only [hset]
    refine ⟨hids, ?_⟩
    intro nowMs io hdue
    have htargets := attemptedTargets_eq hrequest.targets (by
      rw [(absorb_same req _).targets, hsame.targets]
      exact launch.identified) hids
    cases hheldBest : (absorb req (arrivals gcm m calls₁)).best with
    | none =>
      -- no response at all: the two machines are the one before
      have hnil : ∀ l, (absorb req l).best = none → l = [] := by
        intro l hl
        exact List.map_eq_nil_iff.mp (List.map_eq_nil_iff.mp
          ((absorb_candidate hnone l).1.mp hl))
      rw [hnil _ hheldBest, hnil _ (hbest.trans hheldBest)]
      have hidle' : (m.absorbing req []).frames = [] := hidle
      have hstep := step_timeout gcm hidle' (absorbing_live hmem []) nowMs io
      exact ⟨_, _, _, hstep, hstep, fun best hbest => absurd hbest (by simp)⟩
    | some best =>
      obtain ⟨m₁', m₂', effects, hstep₁, hstep₂, hcallback⟩ := timeout_agrees gcm hidle hmem
        hone htargets hheldBest (hbest.trans hheldBest) hdue io
      refine ⟨m₁', m₂', effects, hstep₁, hstep₂, ?_⟩
      intro best' hbest'
      obtain rfl := Option.some.inj hbest'
      exact hcallback

def sampleAnswer (serverId : UInt64) (steering : UInt8) : RResponse where
  serverId := serverId
  steeringByte := steering
  success := true
  guards := []
  resources := [{ bucketId := .replicate 16 0, tokensDeficit := 0, actualRate := 0 }]

def sampleGate (m : Machine) (serverId : UInt64) (steering : UInt8) :
    Option (RClientReq × RResponse) :=
  match sampleDatagram 1 serverId steering 105 with
  | .datagram buf _ io => (onDatagramGate noGcm m.client buf io).toOption
  | _ => none

theorem delivers_of_sampleGate {m : Machine} {req : RClientReq} {serverId : UInt64}
    {steering : UInt8} {response : RResponse}
    (hgate : sampleGate m serverId steering = some (req, response))
    (hearly : 105 < req.haRoundDeadlineMs) :
    Delivers noGcm m req response (sampleDatagram 1 serverId steering 105) := by
  refine ⟨_, _, _, rfl, ?_, hearly⟩
  unfold sampleGate sampleDatagram Except.toOption at hgate
  simp only at hgate
  split at hgate
  · rename_i heq
    rw [heq, Option.some.inj hgate]
  · exact absurd hgate (by simp)

/-- Servers 5 and 3 answer in one order, and in the other with a duplicate: both
    times the request completes with the response of server 3. -/
theorem arrival_order_independent_swapped :
    ∃ m trace, run noGcm sampleClient [sampleSubmit 1 100] = some (m, trace) ∧
      CompletesWith noGcm m 0 [sampleDatagram 1 5 1 105, sampleDatagram 1 3 0 105]
        (sampleAnswer 3 0).result ∧
      CompletesWith noGcm m 0
        [sampleDatagram 1 3 0 105, sampleDatagram 1 5 1 105, sampleDatagram 1 3 0 105]
        (sampleAnswer 3 0).result := by
  obtain ⟨⟨m, trace⟩, hrun, hread⟩ := Option.map_eq_some_iff.mp
    (show (run noGcm sampleClient [sampleSubmit 1 100]).map (fun s =>
      s.1.client.inflight.any fun req => decide (req.handle = 0 ∧ req.phase = .round ∧
        req.haRound = 0 ∧ req.haRoundDeadlineMs = 120 ∧ req.targets.map (·.serverId) = [5, 3] ∧
        sampleGate s.1 5 1 = some (req, sampleAnswer 5 1) ∧
        sampleGate s.1 3 0 = some (req, sampleAnswer 3 0) ∧ s.1.frames = [] ∧
        acceptedBy req.handle s.2 = [])) = some true by decide +kernel)
  obtain ⟨req, hmem, hreq⟩ := List.any_eq_true.mp hread
  obtain ⟨hhandle, hphase, hround, hdeadline, htargets, hgate₅, hgate₃, hidle, hfresh⟩ :=
    of_decide_eq_true hreq
  have hearly : 105 < req.haRoundDeadlineMs := by
    rw [hdeadline]
    decide
  have hseq : ∀ calls, (∀ call ∈ calls, call = sampleDatagram 1 5 1 105 ∨
      call = sampleDatagram 1 3 0 105) → sampleDatagram 1 5 1 105 ∈ calls →
      sampleDatagram 1 3 0 105 ∈ calls →
      DeliverySequence noGcm m req {sampleAnswer 5 1, sampleAnswer 3 0} calls := by
    intro calls honly h₅ h₃
    refine ⟨?_, ?_⟩
    · intro call hcall
      rcases honly call hcall with rfl | rfl
      · exact ⟨_, .inl rfl, delivers_of_sampleGate hgate₅ hearly⟩
      · exact ⟨_, .inr rfl, delivers_of_sampleGate hgate₃ hearly⟩
    · rintro response (rfl | rfl)
      · exact ⟨_, h₅, delivers_of_sampleGate hgate₅ hearly⟩
      · exact ⟨_, h₃, delivers_of_sampleGate hgate₃ hearly⟩
  have hfixed : ∀ r ∈ ({sampleAnswer 5 1, sampleAnswer 3 0} : Set RResponse),
      ∀ r' ∈ ({sampleAnswer 5 1, sampleAnswer 3 0} : Set RResponse),
      r.serverId = r'.serverId → r = r' := by
    rintro r (rfl | rfl) r' (rfl | rfl) hsame
    · rfl
    · exact absurd hsame (by decide)
    · exact absurd hsame (by decide)
    · rfl
  have holdest : OldestOf (req.targets.map (·.serverId)) (sampleAnswer 3 0).serverId := by
    rw [htargets]
    simp [OldestOf, older_iff_lt, sampleAnswer]
  have hboth := (arrival_order_independent sampleClient_created hrun hidle hmem hphase hround
    hfresh hfixed (hseq [sampleDatagram 1 5 1 105, sampleDatagram 1 3 0 105] (by simp) (by simp)
      (by simp))
    (hseq [sampleDatagram 1 3 0 105, sampleDatagram 1 5 1 105, sampleDatagram 1 3 0 105]
      (by simp) (by simp) (by simp))).1 (sampleAnswer 3 0) (.inr rfl) holdest
  rw [hhandle] at hboth
  exact ⟨m, trace, hrun, hboth⟩

end RlClient
