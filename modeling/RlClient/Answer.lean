import RlClient.Exchange

/-!
# What a responder answers

`Exchange` follows a good request through the responder. Here the responder is read the
other way round: it was handed some bytes and something came back. The bytes were an
authentic rate request, the answer names the blocks of that request, and in the quota
scenario a block is granted only while the responder's table has counted fewer requests for
the bucket than it allows.
-/

namespace RlClient

variable {gcm : Gcm}

/-! ### What is taken apart -/

/-- The responder opens nothing that does not open under its credential. -/
theorem extractAuthenticatedPdu_ok {state : RTestResponderState} {input : Bytes} {evpOk : Bool}
    {tenant : RTenantHeader} {pdu : Bytes}
    (h : extractAuthenticatedPdu gcm state input evpOk = .ok (tenant, pdu)) :
    (∃ pos, Opened gcm state.credential input evpOk tenant pos pdu) ∧
      tenant.keyId = state.tenantKeyId := by
  unfold extractAuthenticatedPdu at h
  split at h
  · cases h
  rename_i parsed pos hparsed
  split at h
  · cases h
  rename_i hkey
  rcases rParseAuthTlvHeader_cases input pos with ⟨-, hinside, htlv⟩ | ⟨-, htlv⟩
  · rw [htlv] at h
    simp only at h
    cases hauth : state.authType with
    | derive =>
      simp only [hauth] at h
      cases h
    | cookie =>
      simp only [hauth] at h
      split at h
      · cases h
      rename_i hshape
      split at h
      · cases h
      rename_i hcookie
      obtain ⟨rfl, rfl⟩ := Prod.mk.inj (Except.ok.inj h)
      simp only [Bool.or_eq_true, decide_eq_true_eq, not_or, not_not] at hshape
      obtain ⟨⟨htype, hsize⟩, -⟩ := hshape
      have hsize : (rLe16 input (pos + 2)).toNat = 36 := hsize
      have hpdu : input.drop (authTlvAt input pos).pduPos = input.drop (pos + 36) := by
        rw [authTlvAt, hsize]
      rw [hpdu]
      refine ⟨⟨pos, hparsed, rExtractPduData_ok_iff.mpr ?_⟩, not_not.mp hkey⟩
      exact .cookie hauth rfl htype hsize (hsize ▸ hinside) (not_not.mp hcookie)
    | aesGcm =>
      simp only [hauth] at h
      split at h
      · cases h
      rename_i hshape
      split at h
      · cases h
      rename_i opened hopened
      obtain ⟨rfl, rfl⟩ := Prod.mk.inj (Except.ok.inj h)
      simp only [Bool.or_eq_true, decide_eq_true_eq, not_or, not_not, Nat.not_le] at hshape
      obtain ⟨⟨⟨htype, hsize⟩, -⟩, hlength⟩ := hshape
      have hsize : (rLe16 input (pos + 2)).toNat = 32 := hsize
      have hpos : (authTlvAt input pos).pduPos = pos + 32 := by rw [authTlvAt, hsize]
      rw [hpos] at hlength hopened
      unfold rDecryptPduAesGcm at hopened
      split at hopened
      · cases hopened
      rename_i hcap
      split at hopened
      · rename_i hevp
        rw [List.length_drop, Nat.not_lt] at hcap
        refine ⟨⟨pos, hparsed, rExtractPduData_ok_iff.mpr ?_⟩, not_not.mp hkey⟩
        exact .aes hauth rfl htype hsize hlength hcap hevp _ hopened
      · cases hopened
  · rw [htlv] at h
    cases h

/-- A parsed request that is no latency report is a rate request, and its block pointers
    stand behind the counts. -/
theorem parseRequestPdu_rate {pdu : Bytes} {tenant : RTenantHeader} {request : RTestParsedRequest}
    (h : parseRequestPdu pdu (.cleared tenant) = .ok request)
    (htype : request.pduType ≠ R_PDU_LATENCY_REPORT) :
    rLe16 pdu 0 = R_PDU_RATE_REQUEST ∧ request.tenant = tenant ∧
      request.guardCount = rLe16 (pdu.drop 8) 0 ∧ request.resourceCount = rLe16 (pdu.drop 8) 2 ∧
      request.guards = (pdu.drop 8).drop 4 ∧
      request.resources = (pdu.drop 8).drop (4 + request.guardCount.toNat * 36) := by
  unfold parseRequestPdu at h
  split at h
  · cases h
  simp only at h
  split at h
  · cases h
  split at h
  · cases h
  split at h
  · rename_i hrate
    split at h
    · cases h
    split at h
    · cases h
    · obtain rfl := Except.ok.inj h
      exact ⟨hrate, rfl, rfl, rfl, rfl, rfl⟩
  split at h
  · rename_i hreport
    split at h
    · cases h
    · obtain rfl := Except.ok.inj h
      exact absurd hreport htype
  · cases h

theorem Carries.of_parsed {resources : List RResourceRequest} {guards : List RLatencyGuard}
    {label : Option Bytes} {ttl : UInt32} {bodyCap : Nat} {body pdu : Bytes}
    (hbody : rBuildRateRequestBody resources guards label bodyCap = .ok body)
    (hpdu : Framed R_PDU_RATE_REQUEST ttl body pdu) {tenant : RTenantHeader}
    {request : RTestParsedRequest} (h : parseRequestPdu pdu (.cleared tenant) = .ok request)
    (htype : request.pduType ≠ R_PDU_LATENCY_REPORT) : Carries guards resources request := by
  obtain ⟨hguards, hresources, hbytes⟩ := rBuildRateRequestBody_ok hbody
  obtain ⟨-, -, hguardCount, hresourceCount, hguardsAt, hresourcesAt⟩ :=
    parseRequestPdu_rate h htype
  rw [hpdu.body, hbytes] at hguardCount hresourceCount hguardsAt hresourcesAt
  rw [rLe16_write] at hguardCount
  rw [rLe16_second] at hresourceCount
  rw [drop_words] at hguardsAt
  refine ⟨hguardCount, hresourceCount, hguards, hresources, ⟨_, hguardsAt⟩, labelTlv label, ?_⟩
  have hlen : request.guardCount.toNat * 36 = (guardCodec.encodeAll guards).length := by
    rw [hguardCount, ofNat_toNat hguards, guardCodec.length_encodeAll, Nat.mul_comm]
  rw [hresourcesAt, hlen, ← List.drop_drop, drop_words, List.drop_left]

/-! ### The table of the quota scenario -/

/-- How many requests the table has counted for a bucket. -/
def chargedFor (bucketId : FixedBytes 16) (quota : List RTestQuotaEntry) : Nat :=
  match quota.find? fun entry => decide (entry.bucketId = bucketId) with
  | none => 0
  | some entry => entry.requests.toNat

@[simp]
theorem chargedFor_nil (bucketId : FixedBytes 16) : chargedFor bucketId [] = 0 := rfl

theorem chargedFor_cons_self {entry : RTestQuotaEntry} {bucketId : FixedBytes 16}
    (h : entry.bucketId = bucketId) (quota : List RTestQuotaEntry) :
    chargedFor bucketId (entry :: quota) = entry.requests.toNat := by
  simp [chargedFor, h]

theorem chargedFor_cons_ne {entry : RTestQuotaEntry} {bucketId : FixedBytes 16}
    (h : entry.bucketId ≠ bucketId) (quota : List RTestQuotaEntry) :
    chargedFor bucketId (entry :: quota) = chargedFor bucketId quota := by
  simp [chargedFor, h]

/-- One request that the table counts for `bucketId`. -/
structure Counted (allowCount : UInt64) (bucketId : FixedBytes 16) (allowed : Bool)
    (quota quota' : List RTestQuotaEntry) : Prop where
  allowed : allowed = true ↔ chargedFor bucketId quota < allowCount.toNat
  own : chargedFor bucketId quota' = (chargedFor bucketId quota + 1) % 2 ^ 64
  others : ∀ other, other ≠ bucketId → chargedFor other quota' = chargedFor other quota

/-- The search either counts the request or has seen no entry of the bucket. -/
theorem quotaCount_counted (allowCount : UInt64) (bucketId : FixedBytes 16)
    (quota : List RTestQuotaEntry) :
    match quotaCount allowCount bucketId quota with
    | some (allowed, quota') => Counted allowCount bucketId allowed quota quota'
    | none => ∀ entry ∈ quota, entry.bucketId ≠ bucketId := by
  induction quota with
  | nil =>
    intro entry hentry
    cases hentry
  | cons entry quota ih =>
    rw [quotaCount]
    by_cases hown : entry.bucketId = bucketId
    · rw [if_pos hown]
      refine ⟨?_, ?_, ?_⟩
      · rw [chargedFor_cons_self hown, decide_eq_true_eq, UInt64.lt_iff_toNat_lt]
      · rw [chargedFor_cons_self hown, chargedFor_cons_self (by exact hown), UInt64.toNat_add]
        rfl
      · intro other hother
        have hne : entry.bucketId ≠ other := fun h => hother (h.symm.trans hown)
        rw [chargedFor_cons_ne hne, chargedFor_cons_ne (by exact hne)]
    · rw [if_neg hown]
      cases hrest : quotaCount allowCount bucketId quota with
      | none =>
        rw [hrest] at ih
        intro entry' hentry'
        rcases List.mem_cons.mp hentry' with rfl | hmem
        · exact hown
        · exact ih entry' hmem
      | some counted =>
        obtain ⟨allowed, quota'⟩ := counted
        rw [hrest] at ih
        refine ⟨?_, ?_, ?_⟩
        · rw [chargedFor_cons_ne hown]
          exact ih.allowed
        · rw [chargedFor_cons_ne hown, chargedFor_cons_ne hown]
          exact ih.own
        · intro other hother
          by_cases hentry : entry.bucketId = other
          · rw [chargedFor_cons_self hentry, chargedFor_cons_self hentry]
          · rw [chargedFor_cons_ne hentry, chargedFor_cons_ne hentry]
            exact ih.others other hother

theorem find?_absent {quota : List RTestQuotaEntry} {bucketId : FixedBytes 16}
    (h : ∀ entry ∈ quota, entry.bucketId ≠ bucketId) :
    quota.find? (fun entry => decide (entry.bucketId = bucketId)) = none := by
  rw [List.find?_eq_none]
  intro entry hentry
  simpa using h entry hentry

theorem quotaAllows_counted {state state' : RTestResponderState} {bucketId : FixedBytes 16}
    {allowed : Bool} (h : quotaAllows state bucketId = some (allowed, state')) :
    ∃ quota, state' = { state with quota := quota } ∧
      Counted state.allowCount bucketId allowed state.quota quota := by
  have hsearch := quotaCount_counted state.allowCount bucketId state.quota
  unfold quotaAllows at h
  cases hcount : quotaCount state.allowCount bucketId state.quota with
  | some counted =>
    obtain ⟨allowed', quota⟩ := counted
    rw [hcount] at h hsearch
    obtain ⟨rfl, rfl⟩ := Prod.mk.inj (Option.some.inj h)
    exact ⟨quota, rfl, hsearch⟩
  | none =>
    rw [hcount] at h hsearch
    simp only at h hsearch
    split at h
    · cases h
    obtain ⟨rfl, rfl⟩ := Prod.mk.inj (Option.some.inj h)
    have hnone := find?_absent hsearch
    -- the new entry stands behind all the others
    refine ⟨_, rfl, ?_, ?_, ?_⟩
    · rw [chargedFor, hnone, decide_eq_true_eq, gt_iff_lt, UInt64.lt_iff_toNat_lt]
      rfl
    · simp only [chargedFor, List.find?_append, hnone]
      simp
    · intro other hother
      have hlast : [RTestQuotaEntry.mk bucketId 1].find?
          (fun entry => decide (entry.bucketId = other)) = none := by
        simp [hother.symm]
      simp only [chargedFor, List.find?_append, hlast, Option.or_none]

/-- `n` requests were counted at most, as long as no counter wraps around. -/
def Advances (n : Nat) (quota quota' : List RTestQuotaEntry) : Prop :=
  ∀ bucketId, chargedFor bucketId quota + n < 2 ^ 64 →
    chargedFor bucketId quota ≤ chargedFor bucketId quota' ∧
      chargedFor bucketId quota' ≤ chargedFor bucketId quota + n

theorem Advances.refl (n : Nat) (quota : List RTestQuotaEntry) : Advances n quota quota :=
  fun _ _ => ⟨Nat.le_refl _, Nat.le_add_right _ _⟩

theorem Advances.trans {m n : Nat} {quota quota' quota'' : List RTestQuotaEntry}
    (h : Advances m quota quota') (h' : Advances n quota' quota'') :
    Advances (m + n) quota quota'' := by
  intro bucketId hroom
  obtain ⟨hlow, hhigh⟩ := h bucketId (by omega)
  obtain ⟨hlow', hhigh'⟩ := h' bucketId (by omega)
  omega

theorem Advances.mono {m n : Nat} (hmn : m ≤ n) {quota quota' : List RTestQuotaEntry}
    (h : Advances m quota quota') : Advances n quota quota' := by
  intro bucketId hroom
  obtain ⟨hlow, hhigh⟩ := h bucketId (by omega)
  omega

theorem Counted.advances {allowCount : UInt64} {bucketId : FixedBytes 16} {allowed : Bool}
    {quota quota' : List RTestQuotaEntry} (h : Counted allowCount bucketId allowed quota quota') :
    Advances 1 quota quota' := by
  intro other hroom
  by_cases hown : other = bucketId
  · rw [hown] at hroom ⊢
    rw [h.own, Nat.mod_eq_of_lt hroom]
    omega
  · rw [h.others other hown]
    omega

/-- What a responder keeps for as long as it runs, and how far its table advances. -/
structure Kept (n : Nat) (state state' : RTestResponderState) : Prop where
  scenario : state'.scenario = state.scenario
  authType : state'.authType = state.authType
  tenantKeyId : state'.tenantKeyId = state.tenantKeyId
  secret : state'.secret = state.secret
  serverId : state'.serverId = state.serverId
  steeringKeepPort : state'.steeringKeepPort = state.steeringKeepPort
  allowCount : state'.allowCount = state.allowCount
  advances : Advances n state.quota state'.quota

theorem Kept.refl (n : Nat) (state : RTestResponderState) : Kept n state state :=
  ⟨rfl, rfl, rfl, rfl, rfl, rfl, rfl, .refl n _⟩

theorem Kept.trans {m n : Nat} {state state' state'' : RTestResponderState}
    (h : Kept m state state') (h' : Kept n state' state'') : Kept (m + n) state state'' :=
  ⟨h'.scenario.trans h.scenario, h'.authType.trans h.authType,
    h'.tenantKeyId.trans h.tenantKeyId, h'.secret.trans h.secret, h'.serverId.trans h.serverId,
    h'.steeringKeepPort.trans h.steeringKeepPort, h'.allowCount.trans h.allowCount,
    h.advances.trans h'.advances⟩

theorem Kept.mono {m n : Nat} (hmn : m ≤ n) {state state' : RTestResponderState}
    (h : Kept m state state') : Kept n state state' :=
  { h with advances := h.advances.mono hmn }

theorem Kept.credential {n : Nat} {state state' : RTestResponderState} (h : Kept n state state') :
    state'.credential = state.credential := by
  simp only [RTestResponderState.credential, h.authType, h.tenantKeyId, h.secret]

theorem responseResourceBlock_kept (request : RTestParsedRequest) (i : Nat)
    (state : RTestResponderState) : Kept 1 state (responseResourceBlock request i state).1 := by
  unfold responseResourceBlock
  split
  · simp only
    split
    · exact .refl 1 state
    · split
      · exact .refl 1 state
      · rename_i allowed state' hallows
        obtain ⟨quota, rfl, hcounted⟩ := quotaAllows_counted hallows
        exact ⟨rfl, rfl, rfl, rfl, rfl, rfl, rfl, hcounted.advances⟩
    · exact .refl 1 state
  · exact .refl 1 state

theorem responseResourceBlocks_kept (request : RTestParsedRequest) (count i : Nat)
    (state : RTestResponderState) :
    Kept count state (responseResourceBlocks request count i state).1 := by
  induction count generalizing i state with
  | zero => exact .refl 0 state
  | succ count ih =>
    have hone := responseResourceBlock_kept request i state
    rw [responseResourceBlocks]
    split
    · rename_i state' rc hblock
      rw [hblock] at hone
      exact hone.mono (by omega)
    · rename_i state' block hblock
      rw [hblock] at hone
      have hkept := hone.trans (ih (i + 1) state')
      rw [Nat.add_comm] at hkept
      split
      · rename_i hrec
        rw [hrec] at hkept
        exact hkept
      · rename_i hrec
        rw [hrec] at hkept
        exact hkept

theorem buildResponsePdu_kept (state : RTestResponderState) (request : RTestParsedRequest)
    (outCap : Nat) : Kept 0xffff state (buildResponsePdu state request outCap).1 := by
  unfold buildResponsePdu
  split
  · exact .refl _ state
  rename_i guardCount resourceCount hcounts
  simp only
  split
  · exact .refl _ state
  have hkept := responseResourceBlocks_kept request resourceCount.toNat 0 state
  have hcount : resourceCount.toNat ≤ 0xffff := Nat.le_of_lt_succ resourceCount.toNat_lt
  split
  · rename_i hrec
    rw [hrec] at hkept
    exact hkept.mono hcount
  · rename_i hrec
    rw [hrec] at hkept
    exact hkept.mono hcount

/-! ### One datagram, from its outcome -/

theorem sendScenario_state (state : RTestResponderState) (output : Bytes) (event : RTestEvent) :
    (sendScenario state output event).state = state := by
  unfold sendScenario
  split
  · simp only
    generalize (if state.authType = .aesGcm then R_TENANT_TLV_LEN + 4 + 12
      else R_TENANT_TLV_LEN + 4) = corruptOffset
    split
    · rfl
    · rfl
  · split
    · rfl
    · rfl
  · rfl
  · rfl

theorem rememberGuard_kept (state : RTestResponderState) (request : RTestParsedRequest) :
    Kept 0 state (rememberGuard state request) := by
  obtain ⟨id, has, hremembered⟩ := rememberGuard_eq state request
  rw [hremembered]
  exact ⟨rfl, rfl, rfl, rfl, rfl, rfl, rfl, .refl _ _⟩

theorem answerRequest_kept (gcm : Gcm) (state : RTestResponderState)
    (request : RTestParsedRequest) (outputCap : Nat) (io : EncryptIo) (event : RTestEvent) :
    Kept 0xffff state (answerRequest gcm state request outputCap io event).state := by
  have hremembered := rememberGuard_kept state request
  have hbuilt := hremembered.trans
    (buildResponsePdu_kept (rememberGuard state request) request R_MAX_PACKET_SIZE)
  rw [Nat.zero_add] at hbuilt
  unfold answerRequest
  simp only
  split
  · exact hremembered.mono (Nat.zero_le _)
  split
  · rename_i hrec
    rw [hrec] at hbuilt
    exact hbuilt
  · rename_i hrec
    rw [hrec] at hbuilt
    split
    · exact hbuilt
    · rw [sendScenario_state]
      exact hbuilt

/-- **A datagram leaves the responder's configuration alone** and advances its table by the
    resources of one request at most. -/
theorem rTestResponderProcess_kept {state : RTestResponderState} {input : Bytes} {outputCap : Nat}
    {io : RTestResponderIo} {outcome : RTestOutcome}
    (h : rTestResponderProcess gcm state input outputCap io = .ok outcome) :
    Kept 0xffff state outcome.state := by
  have hsequence : Kept 0 state { state with sequence := state.sequence + 1 } :=
    ⟨rfl, rfl, rfl, rfl, rfl, rfl, rfl, .refl _ _⟩
  unfold rTestResponderProcess at h
  split at h
  · cases h
  simp only at h
  split at h
  · obtain rfl := Except.ok.inj h
    exact hsequence.mono (Nat.zero_le _)
  split at h
  · obtain rfl := Except.ok.inj h
    exact hsequence.mono (Nat.zero_le _)
  rename_i request hrequest
  split at h
  · obtain rfl := Except.ok.inj h
    exact hsequence.mono (Nat.zero_le _)
  · obtain rfl := Except.ok.inj h
    have hkept := hsequence.trans (answerRequest_kept gcm _ request outputCap io.encrypt
      (rejectedEvent (state.sequence + 1)))
    rwa [Nat.zero_add] at hkept

/-! ### The answer itself -/

/-- The scenarios that, when they answer, answer what was asked and send it undamaged. -/
def RTestScenario.truthful : RTestScenario → Bool
  | .allow | .deny | .guardPass | .guardDeny | .quota | .drop => true
  | _ => false

/-- Within the answers of one request, a grant in the quota scenario finds room left in the
    bucket and takes some of it. -/
def Grants (allowCount : UInt64) (quota quota' : List RTestQuotaEntry)
    (answers : List RResourceRequest) : Prop :=
  ∀ answer ∈ answers, answer.tokensRequested = 0 →
    chargedFor answer.bucketId quota + answers.length < 2 ^ 64 →
      chargedFor answer.bucketId quota < allowCount.toNat ∧
        chargedFor answer.bucketId quota < chargedFor answer.bucketId quota'

section

variable {guards : List RLatencyGuard} {resources : List RResourceRequest}
  {request : RTestParsedRequest} (hcarries : Carries guards resources request)
include hcarries

theorem Carries.requestedBlock_eq {i : Nat} (hi : i < resources.length) :
    requestedBlock request i = RlClient.resourceBlock resources[i] := by
  obtain ⟨rest, hbytes⟩ := hcarries.resources
  have hfit : i * R_RESOURCE_BLOCK_WIRE_LEN + 28 ≤ request.resources.length := by
    rw [hbytes, List.length_append, resourceCodec.length_encodeAll, R_RESOURCE_BLOCK_WIRE_LEN]
    omega
  rw [requestedBlock, FixedBytes.val_ofSlice hfit, hbytes, R_RESOURCE_BLOCK_WIRE_LEN,
    Nat.mul_comm]
  exact resourceCodec.take_drop resources rest hi

/-- A block that the responder answers is the block asked for with a deficit in it. -/
theorem Carries.resourceBlock_ok {i : Nat} (hi : i < resources.length)
    {state state' : RTestResponderState} {block : Bytes}
    (h : responseResourceBlock request i state = (state', .ok block)) :
    ∃ answer, block = RlClient.resourceBlock answer ∧
      ResourceAnswer state.scenario resources[i] answer ∧
      (state.scenario = .quota → ∃ allowed,
        Counted state.allowCount resources[i].bucketId allowed state.quota state'.quota ∧
          (answer.tokensRequested = 0 → allowed = true)) := by
  have hin : i < request.resourceCount.toNat := by
    rw [hcarries.resourceCount, ofNat_toNat hcarries.resourceBound]
    exact hi
  have hblock := hcarries.requestedBlock_eq hi
  unfold responseResourceBlock at h
  rw [if_pos hin] at h
  simp only at h
  cases hscenario : state.scenario
  case quota =>
    simp only [hscenario] at h
    cases hallows : quotaAllows state (FixedBytes.ofSlice 16 (requestedBlock request i) 0) with
    | none =>
      rw [hallows] at h
      cases h
    | some counted =>
      obtain ⟨allowed, counted⟩ := counted
      rw [hallows] at h
      obtain ⟨rfl, hbytes⟩ := Prod.mk.inj h
      obtain ⟨quota, rfl, hcounted⟩ := quotaAllows_counted hallows
      have hbucket : FixedBytes.ofSlice 16 (requestedBlock request i) 0 =
          resources[i].bucketId := by
        have hread := congrArg RResourceRequest.bucketId (readResource_block resources[i] [])
        rw [List.append_nil] at hread
        rw [hblock]
        exact hread
      rw [hbucket] at hcounted
      refine ⟨{ resources[i] with tokensRequested :=
        if allowed then 0 else deniedDeficit (RlClient.resourceBlock resources[i]) }, ?_,
        ⟨rfl, RTestScenario.noConfusion, by simp⟩, fun _ => ⟨allowed, hcounted, ?_⟩⟩
      · rw [← Except.ok.inj hbytes, ← writeDeficit_resourceBlock, ← hblock]
      · intro hgranted
        cases allowed with
        | true => rfl
        | false => exact absurd hgranted (deniedDeficit_ne_zero _)
  case deny =>
    simp only [hscenario] at h
    obtain ⟨rfl, hbytes⟩ := Prod.mk.inj h
    refine ⟨{ resources[i] with
      tokensRequested := deniedDeficit (RlClient.resourceBlock resources[i]) }, ?_,
      ⟨rfl, fun _ => deniedDeficit_ne_zero _, by simp⟩, RTestScenario.noConfusion⟩
    rw [← Except.ok.inj hbytes, ← writeDeficit_resourceBlock, ← hblock]
  all_goals
    simp only [hscenario] at h
    obtain ⟨rfl, hbytes⟩ := Prod.mk.inj h
    refine ⟨{ resources[i] with tokensRequested := 0 }, ?_,
      ⟨rfl, RTestScenario.noConfusion, fun _ => rfl⟩, RTestScenario.noConfusion⟩
    rw [← Except.ok.inj hbytes, ← writeDeficit_resourceBlock, ← hblock]

theorem Carries.resourceBlocks_ok {count i : Nat} (hi : i + count = resources.length)
    {state state' : RTestResponderState} {blocks : Bytes}
    (h : responseResourceBlocks request count i state = (state', .ok blocks)) :
    ∃ answers, blocks = resourceCodec.encodeAll answers ∧
      List.Forall₂ (ResourceAnswer state.scenario) (resources.drop i) answers ∧
      (state.scenario = .quota → Grants state.allowCount state.quota state'.quota answers) := by
  induction count generalizing i state blocks with
  | zero =>
    obtain ⟨rfl, hbytes⟩ := Prod.mk.inj h
    rw [List.drop_eq_nil_of_le (by omega)]
    refine ⟨[], (Except.ok.inj hbytes).symm, .nil, fun _ answer hanswer => ?_⟩
    cases hanswer
  | succ count ih =>
    have hlt : i < resources.length := by omega
    rw [responseResourceBlocks] at h
    split at h
    · cases h
    rename_i first block hblock
    split at h
    · cases h
    rename_i last rest hrec
    obtain ⟨rfl, hbytes⟩ := Prod.mk.inj h
    have hfirst : Kept 1 state first := by
      simpa only [hblock] using responseResourceBlock_kept request i state
    have hrest : Kept count first last := by
      simpa only [hrec] using responseResourceBlocks_kept request count (i + 1) first
    obtain ⟨answer, rfl, hanswer, hcounts⟩ := hcarries.resourceBlock_ok hlt hblock
    obtain ⟨answers, rfl, hall, hgrants⟩ :=
      ih (show i + 1 + count = resources.length by omega) hrec
    rw [hfirst.scenario, hfirst.allowCount] at hgrants
    rw [hfirst.scenario] at hall
    refine ⟨answer :: answers, (Except.ok.inj hbytes).symm, ?_, ?_⟩
    · rw [List.drop_eq_getElem_cons hlt]
      exact .cons hanswer hall
    -- the later blocks start from the table that this one left
    have hlen : answers.length = count := by
      rw [← hall.length_eq, List.length_drop]
      omega
    intro hscenario granted hmem hzero hroom
    rw [List.length_cons, hlen] at hroom
    rcases List.mem_cons.mp hmem with rfl | hmem
    · obtain ⟨allowed, hcounted, hallowed⟩ := hcounts hscenario
      have hbucket : granted.bucketId = resources[i].bucketId := by rw [hanswer.same]
      rw [hbucket] at hroom ⊢
      have hunder := hcounted.allowed.mp (hallowed hzero)
      have hown := hcounted.own
      rw [Nat.mod_eq_of_lt (by omega)] at hown
      have hlater := hrest.advances resources[i].bucketId (by omega)
      omega
    · have hsooner := hfirst.advances granted.bucketId (by omega)
      have hlater := hgrants hscenario granted hmem hzero (by omega)
      omega

theorem Carries.responsePdu_ok {state state' : RTestResponderState}
    (htruthful : state.scenario.truthful = true) {outCap : Nat} {pdu : Bytes}
    (h : buildResponsePdu state request outCap = (state', .ok pdu)) :
    ∃ answers, Framed R_PDU_RATE_RESPONSE 0 (responseBody
        (guards.map fun guard => (guard, currentLatencyOf state.scenario guard)) answers) pdu ∧
      List.Forall₂ (ResourceAnswer state.scenario) resources answers ∧
      (state.scenario = .quota → Grants state.allowCount state.quota state'.quota answers) := by
  have hcounts : responseCounts state.scenario request.guardCount request.resourceCount =
      some (request.guardCount, request.resourceCount) := by
    cases hscenario : state.scenario <;>
      first | rfl | (rw [hscenario] at htruthful; cases htruthful)
  unfold buildResponsePdu at h
  rw [hcounts] at h
  simp only at h
  split at h
  · cases h
  split at h
  · cases h
  rename_i last resourceBytes hblocks
  obtain ⟨rfl, hpdu⟩ := Prod.mk.inj h
  rw [hcarries.resourceCount, ofNat_toNat hcarries.resourceBound] at hblocks
  obtain ⟨answers, rfl, hall, hgrants⟩ := hcarries.resourceBlocks_ok (Nat.zero_add _) hblocks
  rw [List.drop_zero] at hall
  rw [hcarries.guardCount, hcarries.resourceCount, ofNat_toNat hcarries.guardBound,
    hcarries.guardBlocks, hall.length_eq] at hpdu
  have hbuilt : rBuildPdu R_PDU_RATE_RESPONSE (responseBody
      (guards.map fun guard => (guard, currentLatencyOf state.scenario guard)) answers) outCap =
        .ok pdu := by
    rw [responseBody, List.length_map]
    exact hpdu
  exact ⟨answers, buildPdu_framed hbuilt, hall, hgrants⟩

end

theorem Opened.ready {cred : RCredential} {buf : Bytes} {evpOk : Bool} {tenant : RTenantHeader}
    {pos : Nat} {pdu : Bytes} (h : Opened gcm cred buf evpOk tenant pos pdu) :
    Opened gcm cred buf true tenant pos pdu := by
  refine ⟨h.parsed, rExtractPduData_ok_iff.mpr ?_⟩
  cases rExtractPduData_ok_iff.mp h.extracted with
  | cookie hauth hset htype hsize hlength hcookie =>
    exact .cookie hauth hset htype hsize hlength hcookie
  | aes hauth hset htype hsize hlength hcap _ _ hopen =>
    exact .aes hauth hset htype hsize hlength hcap rfl _ hopen

/-- What the responder sends is framed as a packet of the client is. -/
theorem buildAuthenticatedResponse_ok {state : RTestResponderState}
    (hinverts : state.authType = .aesGcm → Invertible gcm state.secret)
    {requestTenant : RTenantHeader} {pdu : Bytes} {wrongRequestId : Bool} {outCap : Nat}
    (hcap : outCap ≤ R_MAX_PACKET_SIZE) {io : EncryptIo} {output : Bytes}
    (h : buildAuthenticatedResponse gcm state requestTenant pdu wrongRequestId outCap io =
      .ok output) :
    framePdu gcm state.credential (responseHeader state requestTenant wrongRequestId) pdu outCap
      io = .ok output := by
  have htenant : R_TENANT_TLV_LEN = 40 := rfl
  unfold buildAuthenticatedResponse at h
  unfold framePdu
  split at h
  · cases h
  rename_i hroom
  rw [if_neg hroom]
  cases hmode : state.authType with
  | derive =>
    simp only [hmode] at h
    cases h
  | cookie =>
    have hmode' : state.credential.authType = .cookie := hmode
    simp only [hmode] at h
    simp only [hmode']
    split at h
    · cases h
    rename_i hfit
    obtain rfl := Except.ok.inj h
    rw [if_neg (by simp [RTestResponderState.credential]), if_neg (by omega)]
    refine if_neg ?_
    simp only [RTestResponderState.credential, List.length_append, length_rTenantHeaderWrite,
      length_rWriteLe16, FixedBytes.length_val]
    omega
  | aesGcm =>
    have hmode' : state.credential.authType = .aesGcm := hmode
    simp only [hmode] at h
    simp only [hmode']
    split at h
    · cases h
    rename_i hfit
    split at h
    · cases h
    rename_i cipher nonce tag hsealed
    obtain rfl := Except.ok.inj h
    have hlength : cipher.length = pdu.length := (hinverts hmode).length_cipher
      ⟨_, pdu, R_MAX_PACKET_SIZE, io, cipher, nonce, tag, hsealed⟩
    rw [if_neg (by simp [RTestResponderState.credential]), if_neg (by omega),
      show state.credential.aesKey = state.secret from rfl, hsealed]
    simp only
    rw [if_neg (by omega), if_neg ?_]
    simp only [List.length_append, length_rTenantHeaderWrite, length_rWriteLe16,
      FixedBytes.length_val]
    omega

/-- A response that a truthful responder sent for `input`: the request it opened, and the
    response it framed. -/
structure Answered (gcm : Gcm) (state : RTestResponderState) (input : Bytes)
    (outcome : RTestOutcome) (tenant : RTenantHeader) (requestPdu : Bytes)
    (request : RTestParsedRequest) (pdu : Bytes) : Prop where
  opened : ∃ pos, Opened gcm state.credential input true tenant pos requestPdu
  keyId : tenant.keyId = state.tenantKeyId
  parsed : parseRequestPdu requestPdu (.cleared tenant) = .ok request
  rate : request.pduType ≠ R_PDU_LATENCY_REPORT
  built : buildResponsePdu (rememberGuard { state with sequence := state.sequence + 1 } request)
    request R_MAX_PACKET_SIZE = (outcome.state, .ok pdu)
  framed : ∃ io, framePdu gcm state.credential (responseHeader state tenant false) pdu
    R_MAX_PACKET_SIZE io = .ok outcome.output

theorem sendScenario_truthful {state : RTestResponderState}
    (htruthful : state.scenario.truthful = true) (output : Bytes) (event : RTestEvent) :
    (sendScenario state output event).output = output := by
  unfold sendScenario
  cases hscenario : state.scenario <;>
    first | rfl | (rw [hscenario] at htruthful; cases htruthful)

/-- **Whatever is answered was asked.** A truthful responder that sends a response was handed
    an authentic rate request, and the response is framed under the request's id. -/
theorem rTestResponderProcess_answered {state : RTestResponderState}
    (htruthful : state.scenario.truthful = true)
    (hinverts : state.authType = .aesGcm → Invertible gcm state.secret) {input : Bytes}
    {io : RTestResponderIo} {outcome : RTestOutcome}
    (h : rTestResponderProcess gcm state input R_MAX_PACKET_SIZE io = .ok outcome)
    (hsent : outcome.sendResponse = true) :
    ∃ tenant requestPdu request pdu,
      Answered gcm state input outcome tenant requestPdu request pdu := by
  unfold rTestResponderProcess at h
  split at h
  · cases h
  simp only at h
  split at h
  · obtain rfl := Except.ok.inj h
    cases hsent
  rename_i tenant requestPdu hextracted
  split at h
  · obtain rfl := Except.ok.inj h
    cases hsent
  rename_i request hparsed
  split at h
  · obtain rfl := Except.ok.inj h
    cases hsent
  rename_i hrate
  obtain ⟨⟨pos, hopened⟩, hkeyId⟩ := extractAuthenticatedPdu_ok hextracted
  obtain ⟨-, htenant, -⟩ := parseRequestPdu_rate hparsed hrate
  -- the rest is the rate-request branch, from a state that differs in its sequence only
  have hremembered := rememberGuard_kept { state with sequence := state.sequence + 1 } request
  have hkept := buildResponsePdu_kept
    (rememberGuard { state with sequence := state.sequence + 1 } request) request R_MAX_PACKET_SIZE
  obtain rfl := Except.ok.inj h
  generalize rejectedEvent (state.sequence + 1) = event at hsent ⊢
  unfold answerRequest at hsent ⊢
  simp only at hsent ⊢
  split at hsent
  · cases hsent
  rename_i hnodrop
  rw [if_neg hnodrop]
  split at hsent
  · cases hsent
  rename_i state' pdu hbuilt
  split at hsent
  · cases hsent
  rename_i output houtput
  rw [hbuilt] at hkept
  have hsame : Kept 0xffff { state with sequence := state.sequence + 1 } state' := by
    have htrans := hremembered.trans hkept
    rwa [Nat.zero_add] at htrans
  have hscenario : state'.scenario = state.scenario := hsame.scenario
  have htruthful' : state'.scenario.truthful = true := by rw [hscenario, htruthful]
  have hright : decide (state'.scenario = .malformedRequestId) = false := by
    rw [hscenario]
    refine decide_eq_false fun hwrong => ?_
    rw [hwrong] at htruthful
    cases htruthful
  rw [hright, htenant] at houtput
  have hframed := buildAuthenticatedResponse_ok
    (by rw [hsame.authType, hsame.secret]; exact hinverts) (Nat.le_refl _) houtput
  have hheader : responseHeader state' tenant false = responseHeader state tenant false := by
    simp only [responseHeader, hsame.serverId, hsame.steeringKeepPort]
  rw [hheader, hsame.credential] at hframed
  refine ⟨tenant, requestPdu, request, pdu, ⟨pos, hopened.ready⟩, hkeyId, hparsed, hrate, ?_,
    io.encrypt, ?_⟩
  · rw [hbuilt, sendScenario_state]
  · rw [sendScenario_truthful htruthful']
    exact hframed

end RlClient
