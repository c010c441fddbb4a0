import RlClient.Ranking
import RlClient.History

/-!
# Oldest-first selection

Which response a request holds and delivers. The age of a server is coded twice
in `src/r_client.c`, once for the candidate and once for the snapshot; both are
the numeric order of the ids. The candidate is the first minimum, in that order,
of the responses accepted so far, and a completion with `RCLIENT_OK` delivers it.
-/

namespace RlClient

/-! ### Age -/

/-- `a` is the older of two server ids: the earlier start second, or the smaller
    id within one second. -/
def Older (a b : UInt64) : Prop := a >>> 23 < b >>> 23 ∨ (a >>> 23 = b >>> 23 ∧ a < b)

theorem older_iff_lt (a b : UInt64) : Older a b ↔ a < b := by
  unfold Older
  simp only [UInt64.lt_iff_toNat_lt, ← UInt64.toNat_inj, UInt64.toNat_shiftRight]
  simp only [UInt64.reduceToNat, Nat.reduceMod, Nat.shiftRight_eq_div_pow]
  omega

/-- The epoch offset of `r_server_start_s_from_id` does not wrap. -/
theorem rServerStartSFromId_toNat (a : UInt64) :
    (rServerStartSFromId a).toNat = 1735689600 + a.toNat / 2 ^ 23 := by
  have ha := a.toNat_lt
  unfold rServerStartSFromId R_SERVER_ID_EPOCH_S_2025
  simp only [UInt64.toNat_add, UInt64.toNat_shiftRight, UInt64.reduceToNat, Nat.reduceMod,
    Nat.shiftRight_eq_div_pow]
  omega

/-- The comparison both places make, on the start seconds and then on the ids. -/
theorem start_lt_iff (a b : UInt64) :
    (rServerStartSFromId a < rServerStartSFromId b ∨
      rServerStartSFromId a = rServerStartSFromId b ∧ a < b) ↔ Older a b := by
  rw [older_iff_lt]
  simp only [UInt64.lt_iff_toNat_lt, ← UInt64.toNat_inj, rServerStartSFromId_toNat]
  omega

theorem rServerIsOlder_iff (a b : UInt64) : rServerIsOlder a b = true ↔ Older a b := by
  rw [← start_lt_iff]
  simp [rServerIsOlder]

theorem rIsOldestKnownServer_iff (ids : List UInt64) (serverId : UInt64) :
    rIsOldestKnownServer ids serverId = true ↔ ∀ id ∈ ids, ¬ Older id serverId := by
  induction ids with
  | nil => simp [rIsOldestKnownServer]
  | cons id ids ih =>
    unfold rIsOldestKnownServer
    by_cases hid : id = serverId
    · rw [if_pos hid, ih]
      have hself : ¬ Older id serverId := by
        rw [older_iff_lt, hid]
        exact UInt64.lt_irrefl serverId
      simp [hself]
    · rw [if_neg hid]
      simp only
      by_cases hold : Older id serverId
      · have hcode := (start_lt_iff id serverId).mpr hold
        rw [if_pos (by simpa using hcode)]
        simp [hold]
      · have hcode := mt (start_lt_iff id serverId).mp hold
        rw [if_neg (by simpa using hcode), ih]
        simp [hold]

/-! ### The candidate -/

/-- `r_candidate_try_update_best` keeps the record with the least server id. -/
theorem rCandidateTryUpdateBest_eq_keep (best : Option RRateLimitResult)
    (result : RRateLimitResult) :
    rCandidateTryUpdateBest best result =
      FirstMin.keep (fun r : RRateLimitResult => r.serverId.toNat) best result := by
  cases best with
  | none => rfl
  | some current =>
    have hiff : rServerIsOlder result.serverId current.serverId = true ↔
        result.serverId.toNat < current.serverId.toNat := by
      rw [rServerIsOlder_iff, older_iff_lt, UInt64.lt_iff_toNat_lt]
    simp only [rCandidateTryUpdateBest, FirstMin.keep]
    by_cases hlt : result.serverId.toNat < current.serverId.toNat
    · rw [if_pos (hiff.mpr hlt), if_pos hlt]
    · rw [if_neg (mt hiff.mp hlt), if_neg hlt]

/-- `response` is the first of the accepted responses whose server is oldest. -/
def FirstOldest (accepted : List RResponse) (response : RResponse) : Prop :=
  ∃ before after, accepted = before ++ response :: after ∧
    (∀ r ∈ before, Older response.serverId r.serverId) ∧
    ∀ r ∈ after, ¬ Older r.serverId response.serverId

/-- The candidate made of the accepted responses. -/
abbrev CandidateOf (accepted : List RResponse) (best : Option RRateLimitResult) : Prop :=
  FirstMin.Chosen (fun r : RRateLimitResult => r.serverId.toNat)
    (accepted.map RResponse.result) best

theorem CandidateOf.firstOldest {accepted : List RResponse} {best : RRateLimitResult}
    (h : CandidateOf accepted (some best)) :
    ∃ response, FirstOldest accepted response ∧ best = response.result := by
  obtain ⟨before, after, hsplit, hbefore, hafter⟩ := h.2 best rfl
  obtain ⟨before', rest, rfl, rfl, hrest⟩ := List.map_eq_append_iff.mp hsplit
  obtain ⟨response, after', rfl, rfl, rfl⟩ := List.map_eq_cons_iff.mp hrest
  refine ⟨response, ⟨before', after', rfl, ?_, ?_⟩, rfl⟩
  · intro r hr
    rw [older_iff_lt, UInt64.lt_iff_toNat_lt]
    exact hbefore r.result (List.mem_map_of_mem hr)
  · intro r hr
    rw [older_iff_lt, UInt64.lt_iff_toNat_lt, Nat.not_lt]
    exact hafter r.result (List.mem_map_of_mem hr)

theorem CandidateOf.accept {req : RClientReq} {accepted : List RResponse}
    (h : CandidateOf accepted req.best) (response : RResponse) (sender : RAddr)
    (alloc : SeenAlloc) :
    CandidateOf (accepted ++ [response]) (recordResponse req response sender alloc).best := by
  obtain ⟨addrs, addrCap, heq⟩ := recordResponse_eq req response sender alloc
  rw [heq]
  change CandidateOf _ (rCandidateTryUpdateBest req.best response.result)
  rw [rCandidateTryUpdateBest_eq_keep, CandidateOf, List.map_append]
  exact h.keep response.result

/-- A step of a live request accepts nothing, or one response. -/
theorem ReqStep.candidate {c : RClient} {h : Handle} {req req' : RClientReq} {call : Call}
    {effects : List Effect} {view : View} (hstep : ReqStep c h req call effects view)
    (hview : view.request? = some req') {accepted : List RResponse}
    (hcand : CandidateOf accepted req.best) :
    CandidateOf (accepted ++ acceptedBy h effects) req'.best := by
  rcases hstep.memory hview with ⟨hnone, hsame⟩ | ⟨buf, sender, io, response, -, hone, hsame⟩
  · rw [hnone, List.append_nil, hsame.best]
    exact hcand
  · rw [hone, hsame.best]
    exact hcand.accept response sender io.allocSeen

/-! ### The snapshot -/

theorem foldl_snapshotIds (servers : List RServerEndpoint) (ids : List UInt64) (id : UInt64) :
    id ∈ servers.foldl (fun ids server =>
      if ids.any (· == server.serverId) then ids else ids ++ [server.serverId]) ids ↔
      id ∈ ids ∨ id ∈ servers.map (·.serverId) := by
  induction servers generalizing ids with
  | nil => simp
  | cons server servers ih =>
    rw [List.foldl_cons, ih, List.map_cons, List.mem_cons]
    split
    · rename_i hany
      have hmem : server.serverId ∈ ids := by simpa using hany
      constructor
      · rintro (h | h)
        · exact .inl h
        · exact .inr (.inr h)
      · rintro (h | rfl | h)
        · exact .inl h
        · exact .inl hmem
        · exact .inr h
    · rw [List.mem_append, List.mem_singleton, or_assoc]

theorem mem_snapshotIds {servers : List RServerEndpoint} {id : UInt64} :
    id ∈ snapshotIds servers ↔ id ∈ servers.map (·.serverId) := by
  unfold snapshotIds
  rw [foldl_snapshotIds]
  simp

theorem Launch.allowed_iff {gcm : Gcm} {c : RClient} {h : Handle} {calls : List Call}
    {started req : RClientReq} (launch : Launch gcm c h calls started)
    (hsame : SameRequest started req) (id : UInt64) :
    rAllowedServerId req id = true ↔ id ∈ started.targets.map (·.serverId) := by
  obtain ⟨-, htargets, hstarted, -⟩ := launch.fields
  have hids : req.allowedIds = snapshotIds launch.built.servers :=
    hsame.allowedIds.trans hstarted
  have hlength : ¬ req.allowedIds.length = 0 := by
    intro hzero
    obtain ⟨server, hserver⟩ := List.exists_mem_of_ne_nil _ launch.built.nonempty
    have hmem : server.serverId ∈ req.allowedIds := by
      rw [hids, mem_snapshotIds]
      exact List.mem_map_of_mem hserver
    rw [List.length_eq_zero_iff.mp hzero] at hmem
    exact absurd hmem List.not_mem_nil
  unfold rAllowedServerId
  rw [if_neg hlength, hids, htargets, ← mem_snapshotIds]
  simp

/-! ### Along a run -/

/-- What a request knows about the responses accepted for it. -/
structure Knows (accepted : List RResponse) (req : RClientReq) : Prop where
  candidate : CandidateOf accepted req.best
  allowed : ∀ response ∈ accepted, rAllowedServerId req response.serverId = true

theorem rAllowedServerId_of_same {req req' : RClientReq} (hsame : SameRequest req req')
    (id : UInt64) : rAllowedServerId req' id = rAllowedServerId req id := by
  unfold rAllowedServerId
  rw [hsame.allowedIds]

theorem run_knows {gcm : Gcm} {args : CreateArgs} {c : RClient}
    (hcreate : rClientCreate args = .ok c) {calls : List Call} {m : Machine}
    {trace : List Effect} (hrun : run gcm c calls = some (m, trace)) {h : Handle}
    {req : RClientReq} (hview : (m.view h).request? = some req) :
    Knows (acceptedBy h trace) req := by
  have hinv := request_induction (h := h) hcreate
    (P := fun _ req trace => Knows (acceptedBy h trace) req) (fun _ _ _ _ hknows => hknows)
    ?_ ?_ hrun hview
  · rw [acceptedBy_about] at hinv
    exact hinv
  · intro calls args io req gapUnits built _
    have hnone : acceptedBy h (firstSends c req gapUnits io ++
        [.submitted h (firstRound c req gapUnits)]) = [] := by
      rw [acceptedBy_append, acceptedBy_sends sendEffects_isSend]
      rfl
    have hbest : (firstRound c req gapUnits).best = none := by
      rw [built.eq]
      rfl
    rw [hnone]
    refine ⟨?_, fun r hr => absurd hr List.not_mem_nil⟩
    rw [hbest]
    exact FirstMin.chosen_nil
  · intro calls call req req' trace effects view hknows hstep hheld
    have hsame := hstep.same hheld
    rw [acceptedBy_append]
    refine ⟨hstep.candidate hheld hknows.candidate, ?_⟩
    intro r hr
    rw [rAllowedServerId_of_same hsame]
    rcases List.mem_append.mp hr with hr | hr
    · exact hknows.allowed r hr
    · obtain ⟨buf, sender, io, -, hallowed, -⟩ := hstep.accepts hr
      exact hallowed

/-- A callback in a trace: how the request ended, what it knew of the responses
    before the callback, and the submission it came from. -/
theorem callback_knows {gcm : Gcm} {args : CreateArgs} {c : RClient}
    (hcreate : rClientCreate args = .ok c) {h : Handle} {calls : List Call} {m : Machine}
    {pre post : List Effect} {status : RClientError} {result : Option RRateLimitResult}
    (hrun : run gcm c calls = some (m, pre ++ .callback (some h) status result :: post)) :
    ∃ req started calls₁, Knows (acceptedBy h pre) req ∧ Effect.submitted h started ∈ pre ∧
      Nonempty (Launch gcm c h calls₁ started) ∧ SameRequest started req ∧
      ((status = .ok ∧ ∃ best, result = some best ∧ req.best = some best) ∨
        (status ≠ .ok ∧ result = none ∧ req.best = none)) := by
  obtain ⟨calls₁, call, calls₂, m₁, trace₁, m₂, left, right, req, req', -, hrun₁, hstep, rfl,
    hright, hlive, hcalling, hreq, hresult⟩ := callback_located hcreate hrun
  have hrun₂ : run gcm c (calls₁ ++ [call]) =
      some (m₂, trace₁ ++ (left ++ .callback (some h) status result :: right)) :=
    Run.exec_snoc.mpr ⟨m₁, trace₁, _, hrun₁, hstep, rfl⟩
  have hview : (m₂.view h).request? = some req' := by
    rw [hcalling]
    rfl
  have hknows := run_knows hcreate hrun₂ hview
  -- the callback itself accepts nothing, so the responses up to it are those of the step
  have haccepted : acceptedBy h (trace₁ ++ (left ++ .callback (some h) status result :: right)) =
      acceptedBy h (trace₁ ++ left) := by
    have hnone : acceptedBy h right = [] := by
      rw [← acceptedBy_about, hright]
      rfl
    rw [← List.append_assoc, acceptedBy_append,
      show acceptedBy h (.callback (some h) status result :: right) = acceptedBy h right from rfl,
      hnone, List.append_nil]
  rw [haccepted] at hknows
  obtain ⟨started, hlaunch, hsame, hmarks⟩ := run_live hcreate hrun₁ hlive
  refine ⟨req', started, calls₁, hknows, ?_, hlaunch, hsame.trans (hreq.same rfl), hresult⟩
  apply List.mem_append_left left
  rw [submitted_mem, hmarks]
  exact List.mem_cons_self

theorem failed_accepted_nil {gcm : Gcm} {args : CreateArgs} {c : RClient}
    (hcreate : rClientCreate args = .ok c) {h : Handle} {calls : List Call} {m : Machine}
    {pre post : List Effect} {status : RClientError} {result : Option RRateLimitResult}
    (hrun : run gcm c calls = some (m, pre ++ .callback (some h) status result :: post))
    (hstatus : status ≠ .ok) : result = none ∧ acceptedBy h pre = [] := by
  obtain ⟨req, started, calls₁, hknows, -, -, -, hresult⟩ := callback_knows hcreate hrun
  rcases hresult with ⟨hok, -⟩ | ⟨-, hresult, hbest⟩
  · exact absurd hok hstatus
  · exact ⟨hresult, List.map_eq_nil_iff.mp (hknows.candidate.1.mp hbest)⟩

/-- Where the candidate of a request comes from, at every point of every run, and
    what the completion callback is given. -/
theorem selection_oldest_first {gcm : Gcm} {args : CreateArgs} {c : RClient}
    (hcreate : rClientCreate args = .ok c) {calls : List Call} {m : Machine}
    {trace : List Effect} (hrun : run gcm c calls = some (m, trace)) (h : Handle) :
    (∀ req, req ∈ m.client.inflight ∨ Frame.completing req ∈ m.frames → req.handle = h →
      (req.best = none ↔ acceptedBy h trace = []) ∧
      ∀ best, req.best = some best →
        ∃ response, FirstOldest (acceptedBy h trace) response ∧ best = response.result) ∧
    (∀ pre status result post, trace = pre ++ .callback (some h) status result :: post →
      (status = .ok ∧ ∃ response started, Effect.submitted h started ∈ pre ∧
        FirstOldest (acceptedBy h pre) response ∧ result = some response.result ∧
        response.serverId ∈ started.targets.map (·.serverId)) ∨
      (status ≠ .ok ∧ result = none ∧ acceptedBy h pre = [])) ∧
    (∀ a b, rServerIsOlder a b = true ↔ Older a b) ∧
    (∀ ids id, rIsOldestKnownServer ids id = true ↔
      ∀ a ∈ ids, rServerIsOlder a id = false) ∧
    (∀ a b, Older a b ↔ a < b) := by
  refine ⟨?_, ?_, rServerIsOlder_iff, ?_, older_iff_lt⟩
  · rintro req hheld rfl
    have hview : (m.view req.handle).request? = some req := by
      rcases hheld with hmem | hmem
      · rw [view_of_mem (run_wf hcreate hrun) hmem]
        rfl
      · rw [view_of_running (run_wf hcreate hrun) hmem]
        rfl
    have hknows := run_knows hcreate hrun hview
    refine ⟨?_, ?_⟩
    · rw [hknows.candidate.1, List.map_eq_nil_iff]
    · intro best hbest
      have hcand := hknows.candidate
      rw [hbest] at hcand
      exact hcand.firstOldest
  · rintro pre status result post rfl
    obtain ⟨req, started, calls₁, hknows, hsubmitted, ⟨launch⟩, hsame, hresult⟩ :=
      callback_knows hcreate hrun
    rcases hresult with ⟨rfl, best, rfl, hbest⟩ | ⟨hstatus, -⟩
    · have hcand := hknows.candidate
      rw [hbest] at hcand
      obtain ⟨response, hfirst, rfl⟩ := hcand.firstOldest
      have hmem : response ∈ acceptedBy h pre := by
        obtain ⟨before, after, hsplit, -, -⟩ := hfirst
        rw [hsplit]
        exact List.mem_append_right before List.mem_cons_self
      exact .inl ⟨rfl, response, started, hsubmitted, hfirst, rfl,
        (launch.allowed_iff hsame _).mp (hknows.allowed response hmem)⟩
    · exact .inr ⟨hstatus, failed_accepted_nil hcreate hrun hstatus⟩
  · intro ids id
    rw [rIsOldestKnownServer_iff]
    refine forall₂_congr fun a _ => ?_
    rw [← rServerIsOlder_iff, Bool.not_eq_true]

/-- Server 5 answers first and server 3, the older one, after it: the callback is
    given the response of server 3. -/
theorem selection_oldest_first_two_servers :
    ∃ m trace, run noGcm sampleClient
        [sampleSubmit 1 100, sampleDatagram 1 5 1 105, sampleDatagram 1 3 0 106] = some (m, trace) ∧
      (acceptedBy 0 trace).map (·.serverId) = [5, 3] ∧ marks 0 trace ≠ [] ∧
      ∀ pre status result post, trace = pre ++ .callback (some 0) status result :: post →
        (status = .ok ∧ ∃ response started, Effect.submitted 0 started ∈ pre ∧
          FirstOldest (acceptedBy 0 pre) response ∧ result = some response.result ∧
          response.serverId ∈ started.targets.map (·.serverId)) ∨
        (status ≠ .ok ∧ result = none ∧ acceptedBy 0 pre = []) := by
  obtain ⟨⟨m, trace⟩, hrun, hread⟩ := Option.map_eq_some_iff.mp
    (show (run noGcm sampleClient [sampleSubmit 1 100, sampleDatagram 1 5 1 105,
      sampleDatagram 1 3 0 106]).map (fun s =>
        ((acceptedBy 0 s.2).map (·.serverId), (marks 0 s.2).length)) = some ([5, 3], 2) by
      decide +kernel)
  obtain ⟨haccepted, hmarks⟩ := Prod.mk.inj hread
  refine ⟨m, trace, hrun, haccepted, ?_, ?_⟩
  · intro hnil
    rw [hnil] at hmarks
    exact absurd hmarks (by decide)
  · exact (selection_oldest_first sampleClient_created hrun 0).2.1

end RlClient
