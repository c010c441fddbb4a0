import RlClient.Agreement
import RlClient.Accounts

/-!
# What a quota grants

Responders in the quota scenario count the requests for each bucket and grant the first
`allow_count` of them. The clients do not know of each other, their packets are sent to
several responders and sent again, and the network may repeat them; still no more requests
are granted a bucket than the responders allow together.
-/

namespace RlClient

variable {gcm : Gcm} {ι κ : Type}

/-- How much of its allowance for a bucket a responder has given away. -/
def RTestResponderState.used (state : RTestResponderState) (bucketId : FixedBytes 16) : Nat :=
  min state.allowCount.toNat (chargedFor bucketId state.quota)

/-- What is given away for a bucket while a datagram is processed. -/
def Occurrence.spent (bucketId : FixedBytes 16) : Occurrence ι κ → Nat
  | .served _ state _ outcome => outcome.state.used bucketId - state.used bucketId
  | _ => 0

theorem Kept.used_le {n : Nat} {state state' : RTestResponderState} (h : Kept n state state')
    {bucketId : FixedBytes 16} (hroom : chargedFor bucketId state.quota + n < 2 ^ 64) :
    state.used bucketId ≤ state'.used bucketId := by
  have hadvances := h.advances bucketId hroom
  unfold RTestResponderState.used
  rw [h.allowCount]
  omega

/-- A datagram that grants a bucket gives something away. -/
theorem Kept.spends {n : Nat} {state state' : RTestResponderState} (h : Kept n state state')
    {bucketId : FixedBytes 16} (hleft : chargedFor bucketId state.quota < state.allowCount.toNat)
    (htaken : chargedFor bucketId state.quota < chargedFor bucketId state'.quota) :
    1 ≤ state'.used bucketId - state.used bucketId := by
  unfold RTestResponderState.used
  rw [h.allowCount]
  omega

/-- No counter is near its end in a run that is not astronomically long. -/
theorem Kept.room {d : Deployment ι κ} {state : RTestResponderState} {j : κ} {n : Nat}
    (hkept : Kept n (d.responder j) state) (hlong : n < 2 ^ 64) (bucketId : FixedBytes 16) :
    chargedFor bucketId state.quota ≤ n := by
  have hadvances := hkept.advances bucketId
  rw [d.responder_quota j, chargedFor_nil, Nat.zero_add] at hadvances
  exact (hadvances hlong).2

theorem spent_calls (bucketId : FixedBytes 16) (i : ι) (effects : List Effect) :
    ((effects.map (.client i : Effect → Occurrence ι κ)).map (Occurrence.spent bucketId)).sum =
      0 := by
  rw [List.sum_eq_zero_iff]
  intro n hn
  obtain ⟨o, ho, rfl⟩ := List.mem_map.mp hn
  obtain ⟨effect, -, rfl⟩ := List.mem_map.mp ho
  rfl

section

variable [DecidableEq ι] [DecidableEq κ] [Fintype κ]

/-- One step: what it spends, the responders have given away more than before. -/
theorem Network.Moves.spent {cred : RCredential} {net net' : Network ι κ}
    {out : List (Occurrence ι κ)} (h : net.Moves gcm cred net' out) {bucketId : FixedBytes 16}
    (hroom : ∀ j, chargedFor bucketId (net.responders j).quota + 0xffff < 2 ^ 64) :
    (out.map (Occurrence.spent bucketId)).sum + ∑ j, (net.responders j).used bucketId =
      ∑ j, (net'.responders j).used bucketId := by
  cases h with
  | call i call m effects => rw [spent_calls, Nat.zero_add]
  | serve j packet io outcome _ hprocess =>
    have hmono := (rTestResponderProcess_kept hprocess).used_le (hroom j)
    have hsum := Ledger.sum_update (fun state => state.used bucketId) net.responders j
      outcome.state
    simp only [List.map_cons, List.map_nil, List.sum_cons, List.sum_nil, Occurrence.spent]
    omega
  | ignore => exact Nat.zero_add _
  | inject packet => exact Nat.zero_add _

variable {d : Deployment ι κ} {events : List (NetworkEvent ι κ)} {net : Network ι κ}
  {trace : List (Occurrence ι κ)}

/-- What is spent in a run was given away by the responders. -/
theorem Deployment.spent_le
    (hrun : Run.exec (Network.step gcm d.key.credential) d.start events = some (net, trace))
    (hlong : 0xffff * events.length < 2 ^ 64) (bucketId : FixedBytes 16) :
    (trace.map (Occurrence.spent bucketId)).sum ≤ ∑ j, (net.responders j).used bucketId := by
  refine Run.exec_induction (P := fun events net trace => 0xffff * events.length < 2 ^ 64 →
    (trace.map (Occurrence.spent bucketId)).sum ≤ ∑ j, (net.responders j).used bucketId)
    ?_ ?_ hrun hlong
  · intro _
    exact Nat.zero_le _
  · intro events net trace event net' out hfirst ih hstep hlong
    rw [List.length_append, List.length_singleton] at hlong
    have hroom : ∀ j, chargedFor bucketId (net.responders j).quota + 0xffff < 2 ^ 64 := by
      intro j
      have hcharged := (responder_kept hfirst j).room (by omega) bucketId
      omega
    have hspent := (Network.moves_of_step hstep).spent hroom
    have hbefore := ih (by omega)
    rw [List.map_append, List.sum_append]
    omega

omit [Fintype κ]

theorem Deployment.submitted_id
    (hinverts : d.key.authType = .aesGcm → Invertible gcm d.key.secret)
    (hrun : Run.exec (Network.step gcm d.key.credential) d.start events = some (net, trace))
    {i : ι} {h : Handle} {started : RClientReq}
    (hsubmitted : .client i (.submitted h started) ∈ trace) :
    ∃ tenant pos, rParseTenantHeader started.packet = .ok (tenant, pos) ∧
      ((i, h), tenant.uniqueId) ∈ trace.filterMap Occurrence.sentId? := by
  obtain ⟨calls, hclient⟩ := client_run hrun i
  obtain ⟨pass, startedMs, index, addr, ok, hsent⟩ :=
    submitted_sent (d.created i) hclient (mem_effects hsubmitted)
  obtain ⟨guards, resources, requestId, hasked⟩ :=
    sent_asked hinverts hrun (mem_of_effects hsent)
  obtain ⟨tenant, pos, pdu, -, -, -, -, hopened, -⟩ := hasked.opened
  exact ⟨tenant, pos, hopened.parsed, mem_sentIds (mem_of_effects hsent) hopened.parsed⟩

/-- The packet of request `p` was served in `o`. -/
def ServedIn (trace : List (Occurrence ι κ)) (p : ι × Handle) (o : Occurrence ι κ) : Prop :=
  ∃ started j state outcome, .client p.1 (.submitted p.2 started) ∈ trace ∧
    o = .served j state started.packet outcome

/-- No two requests have their packets served at once. -/
theorem Deployment.servedIn_unique
    (hinverts : d.key.authType = .aesGcm → Invertible gcm d.key.secret)
    (hrun : Run.exec (Network.step gcm d.key.credential) d.start events = some (net, trace))
    (hdistinct : UniqueIds trace) {p q : ι × Handle} {o : Occurrence ι κ}
    (hp : ServedIn trace p o) (hq : ServedIn trace q o) : p = q := by
  obtain ⟨started, j, state, outcome, hsubmitted, rfl⟩ := hp
  obtain ⟨started', j', state', outcome', hsubmitted', heq⟩ := hq
  obtain ⟨-, -, hpacket, -⟩ := Occurrence.served.inj heq
  obtain ⟨tenant, pos, hparsed, hid⟩ := submitted_id hinverts hrun hsubmitted
  obtain ⟨tenant', pos', hparsed', hid'⟩ := submitted_id hinverts hrun hsubmitted'
  rw [hpacket, hparsed'] at hparsed
  obtain ⟨rfl, rfl⟩ := Prod.mk.inj (Except.ok.inj hparsed)
  exact hdistinct _ hid _ hid' rfl

/-- The request asked for the bucket, among others, and completed with success. -/
def GrantedBucket (trace : List (Occurrence ι κ)) (bucketId : FixedBytes 16) (p : ι × Handle) :
    Prop :=
  ∃ started result, .client p.1 (.submitted p.2 started) ∈ trace ∧
    bucketId ∈ started.resources.map (·.bucketId) ∧
    .client p.1 (.callback (some p.2) .ok (some result)) ∈ trace ∧ result.success = true

/-- A request that is granted the bucket was served at a cost. -/
theorem Deployment.granted_paid (hquota : ∀ j, (d.responder j).scenario = .quota)
    (hinverts : d.key.authType = .aesGcm → Invertible gcm d.key.secret)
    (hrun : Run.exec (Network.step gcm d.key.credential) d.start events = some (net, trace))
    (hdistinct : UniqueIds trace) (hlong : 0xffff * events.length < 2 ^ 64)
    {bucketId : FixedBytes 16} {p : ι × Handle} (hgranted : GrantedBucket trace bucketId p) :
    ∃ o ∈ trace, ServedIn trace p o ∧ 1 ≤ o.spent bucketId := by
  obtain ⟨i, h⟩ := p
  obtain ⟨started, result, hsubmitted, hbucket, hcallback, hsuccess⟩ := hgranted
  obtain ⟨calls, hclient⟩ := client_run hrun i
  obtain ⟨⟨launch⟩, honly⟩ := submitted_launch (d.created i) hclient (mem_effects hsubmitted)
  have hcount : started.resources.length ≤ 0xffff := by
    obtain ⟨rq, stampMs, io, hbuilt, -, hresources, -⟩ := launch.packet_built
    obtain ⟨_, _, _, _, _, _, _, _, _, hbody, _⟩ :=
      (rBuildRateRequestPacket_asked (d.configured i).outward (inverts hinverts i) hbuilt).opened
    rw [← hresources]
    exact (rBuildRateRequestBody_ok hbody).2.1
  obtain ⟨pre, post, rfl⟩ := List.append_of_mem hcallback
  obtain ⟨started', j, state, outcome, answers, hsubmitted', hserved, -, -, hkept, -, -, -, hall,
    hresources, hverdict, hgrants⟩ := completed (fun j => by rw [hquota j]; rfl) hinverts hrun
      (hdistinct.mono fun o ho => List.mem_append_left _ ho)
  obtain rfl := honly _ (mem_effects (List.mem_append_left _ hsubmitted'))
  -- the answer for the bucket is a grant
  obtain ⟨hbuckets, -⟩ := answered_resources hall
  rw [← hbuckets, List.map_map] at hbucket
  obtain ⟨answer, hanswer, hown⟩ := List.mem_map.mp hbucket
  have hown : answer.bucketId = bucketId := hown
  have hzero : answer.tokensRequested = 0 := by
    refine (hverdict.mp hsuccess).2 (resourceResultOf answer) ?_
    rw [hresources]
    exact List.mem_map_of_mem hanswer
  -- so the bucket was charged, below the allowance
  have hevents : events ≠ [] := by
    rintro rfl
    exact absurd (congrArg Prod.snd (Option.some.inj hrun)) (by simp)
  have hlength := List.length_pos_iff.mpr hevents
  have hcharged := hkept.room (by omega) bucketId
  have hscenario : state.scenario = .quota := hkept.scenario.trans (hquota j)
  obtain ⟨hleft, htaken⟩ := hgrants hscenario answer hanswer hzero (by
    rw [hown, ← hall.length_eq]
    omega)
  rw [hown] at hleft htaken
  refine ⟨_, List.mem_append_left _ hserved, ⟨started', j, state, outcome,
    List.mem_append_left _ hsubmitted', rfl⟩, ?_⟩
  obtain ⟨front, back, hsplit⟩ := List.append_of_mem hserved
  rw [hsplit, List.append_assoc, List.cons_append] at hrun
  obtain ⟨-, -, io, hprocess⟩ := served hrun
  exact (rTestResponderProcess_kept hprocess).spends hleft htaken

end

/-- **A quota holds across all clients.** With every responder in the quota scenario and
    whatever the network does: of the requests that ask for a bucket, no more complete with
    success than the responders allow for a bucket together. Ids are assumed to differ, AES
    to open what it sealed, and the run to be shorter than the counters. -/
theorem quota_bounds_grants [DecidableEq ι] [DecidableEq κ] [Fintype κ] (d : Deployment ι κ)
    (hquota : ∀ j, (d.responder j).scenario = .quota)
    (hinverts : d.key.authType = .aesGcm → Invertible gcm d.key.secret)
    {events : List (NetworkEvent ι κ)} {net : Network ι κ} {trace : List (Occurrence ι κ)}
    (hrun : Run.exec (Network.step gcm d.key.credential) d.start events = some (net, trace))
    (hdistinct : UniqueIds trace) (hlong : 0xffff * events.length < 2 ^ 64)
    (bucketId : FixedBytes 16) {granted : List (ι × Handle)} (hnodup : granted.Nodup)
    (hgranted : ∀ p ∈ granted, GrantedBucket trace bucketId p) :
    granted.length ≤ ∑ j, (d.responder j).allowCount.toNat := by
  calc granted.length
      ≤ (trace.map (Occurrence.spent bucketId)).sum := by
        refine Ledger.length_le_sum (Occurrence.spent bucketId) (ServedIn trace) hnodup ?_ ?_
        · intro p _ q _ o hp hq
          exact Deployment.servedIn_unique hinverts hrun hdistinct hp hq
        · intro p hp
          exact Deployment.granted_paid hquota hinverts hrun hdistinct hlong (hgranted p hp)
    _ ≤ ∑ j, (net.responders j).used bucketId := Deployment.spent_le hrun hlong bucketId
    _ ≤ ∑ j, (d.responder j).allowCount.toNat := by
        refine Finset.sum_le_sum fun j _ => ?_
        rw [← (Deployment.responder_kept hrun j).allowCount]
        exact Nat.min_le_left _ _

/-- Of the two clients that share a quota of one, the first has used it up. -/
theorem quota_bounds_grants_shared :
    ∃ net trace, Run.exec (Network.step noGcm meteredKey.credential) sharedDeployment.start
        sharedEvents = some (net, trace) ∧
      GrantedBucket trace (.replicate 16 9) (true, 0) ∧
      ∀ granted : List (Bool × Handle), granted.Nodup →
        (∀ p ∈ granted, GrantedBucket trace (.replicate 16 9) p) → granted.length ≤ 1 := by
  obtain ⟨net, trace, started, first, _, hrun, hdistinct, hsubmitted, hbuckets, hmem, hsuccess,
    -⟩ := sharedRun
  refine ⟨net, trace, hrun, ⟨started, first, hsubmitted, ?_, hmem, hsuccess⟩, ?_⟩
  · rw [hbuckets]
    exact List.mem_cons_self
  · intro granted hnodup hgranted
    exact quota_bounds_grants sharedDeployment (fun _ => rfl) (fun haes => by cases haes) hrun
      hdistinct (by decide) (.replicate 16 9) hnodup hgranted

end RlClient
