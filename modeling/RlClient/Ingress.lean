import RlClient.Selection
import RlClient.ResponseGrammar

/-!
# The ingress gate

What a datagram must be for `r_client_on_datagram` to do anything at all, stated
over the bytes, and that a datagram that is not leaves no trace: neither in the
client nor, inserted anywhere in a run, in what the run does.
-/

namespace RlClient

/-! ### Authentication -/

/-- The authentication TLV at `pos` is of the credential's own type and size and
    verifies the datagram, which then carries the last argument as its PDU. -/
inductive Authentic (gcm : Gcm) (cred : RCredential) (buf : Bytes) (pos : Nat) (evpOk : Bool) :
    Bytes → Prop
  | cookie (hauth : cred.authType = .cookie) (hset : cred.hasCookie = true)
      (htype : rLe16 buf pos = R_TLV_AUTH_COOKIE) (hsize : (rLe16 buf (pos + 2)).toNat = 36)
      (hlength : pos + 36 ≤ buf.length)
      (hcookie : FixedBytes.ofSlice 32 buf (pos + 4) = cred.cookie) :
      Authentic gcm cred buf pos evpOk (buf.drop (pos + 36))
  | aes (hauth : cred.authType = .aesGcm) (hset : cred.hasAesKey = true)
      (htype : rLe16 buf pos = R_TLV_AUTH_AES) (hsize : (rLe16 buf (pos + 2)).toNat = 32)
      (hlength : pos + 32 < buf.length) (hcap : buf.length - (pos + 32) ≤ R_MAX_PACKET_SIZE)
      (hevp : evpOk = true) (pdu : Bytes)
      (hopen : gcm.decrypt cred.aesKey (FixedBytes.ofSlice 12 buf (pos + 4))
        (FixedBytes.ofSlice 16 buf (pos + 16)) (buf.take (pos + 16)) (buf.drop (pos + 32)) =
          some pdu) :
      Authentic gcm cred buf pos evpOk pdu

/-- What `r_parse_auth_tlv_header` reports for a TLV that lies inside the buffer. -/
def authTlvAt (buf : Bytes) (pos : Nat) : RAuthTlv where
  type := rLe16 buf pos
  size := (rLe16 buf (pos + 2)).toNat
  bodyPos := pos + 4
  bodyLen := (rLe16 buf (pos + 2)).toNat - 4
  pduPos := pos + (rLe16 buf (pos + 2)).toNat

theorem rParseAuthTlvHeader_cases (buf : Bytes) (pos : Nat) :
    (4 ≤ (rLe16 buf (pos + 2)).toNat ∧ pos + (rLe16 buf (pos + 2)).toNat ≤ buf.length ∧
      rParseAuthTlvHeader buf pos = .ok (authTlvAt buf pos)) ∨
    (¬ (4 ≤ (rLe16 buf (pos + 2)).toNat ∧ pos + (rLe16 buf (pos + 2)).toNat ≤ buf.length) ∧
      rParseAuthTlvHeader buf pos = .error .errProtocol) := by
  unfold rParseAuthTlvHeader
  split
  · right
    exact ⟨by omega, rfl⟩
  · simp only
    split
    · rename_i hsize
      simp only [Bool.or_eq_true, decide_eq_true_eq] at hsize
      right
      exact ⟨by omega, rfl⟩
    · rename_i hsize
      simp only [Bool.or_eq_true, decide_eq_true_eq, not_or, Nat.not_lt] at hsize
      left
      exact ⟨hsize.1, hsize.2, rfl⟩

theorem extractCookiePdu_ok_iff {cred : RCredential} {buf : Bytes} {pos : Nat} {pdu : Bytes} :
    extractCookiePdu cred buf (authTlvAt buf pos) = .ok pdu ↔
      (rLe16 buf (pos + 2)).toNat = 36 ∧ cred.hasCookie = true ∧
        FixedBytes.ofSlice 32 buf (pos + 4) = cred.cookie ∧ pdu = buf.drop (pos + 36) := by
  unfold extractCookiePdu authTlvAt
  simp only
  constructor
  · intro h
    split at h
    · exact absurd h (by simp)
    · rename_i hsize
      simp only [ne_eq, Bool.or_eq_true, decide_eq_true_eq, not_or, not_not] at hsize
      split at h
      · exact absurd h (by simp)
      · rename_i hcookie
        simp only [ne_eq, Bool.or_eq_true, Bool.not_eq_true', decide_eq_true_eq, not_or,
          Bool.not_eq_false, not_not] at hcookie
        rw [hsize.1] at h
        exact ⟨hsize.1, hcookie.1, hcookie.2, (Except.ok.inj h).symm⟩
  · rintro ⟨hsize, hset, hcookie, rfl⟩
    simp [hsize, hset, hcookie]

/-- The AES branch: the TLV has the size of a nonce and a tag, and the rest of the
    datagram opens under them. -/
theorem extractAesPdu_ok_iff {gcm : Gcm} {cred : RCredential} {buf : Bytes} {pos : Nat}
    {evpOk : Bool} {pdu : Bytes} :
    extractAesPdu gcm cred buf pos (authTlvAt buf pos) R_MAX_PACKET_SIZE evpOk = .ok pdu ↔
      (rLe16 buf (pos + 2)).toNat = 32 ∧ cred.hasAesKey = true ∧ pos + 32 < buf.length ∧
        buf.length - (pos + 32) ≤ R_MAX_PACKET_SIZE ∧ evpOk = true ∧
        gcm.decrypt cred.aesKey (FixedBytes.ofSlice 12 buf (pos + 4))
          (FixedBytes.ofSlice 16 buf (pos + 16)) (buf.take (pos + 16)) (buf.drop (pos + 32)) =
            some pdu := by
  unfold extractAesPdu authTlvAt rDecryptPduAesGcm
  simp only
  constructor
  · intro h
    split at h
    · exact absurd h (by simp)
    rename_i hsize
    simp only [ne_eq, Bool.or_eq_true, decide_eq_true_eq, not_or, not_not] at hsize
    rw [hsize.1] at h
    split at h
    · exact absurd h (by simp)
    rename_i hset
    split at h
    · exact absurd h (by simp)
    split at h
    · exact absurd h (by simp)
    rename_i hcipher
    rw [List.length_drop] at hcipher
    split at h
    · exact absurd h (by simp)
    · rename_i hopen
      obtain rfl := Except.ok.inj h
      split at hopen
      · exact absurd hopen (by simp)
      rename_i hcap
      rw [List.length_drop] at hcap
      split at hopen
      · rename_i hevp
        exact ⟨hsize.1, by simpa using hset, by omega, by omega, hevp, hopen⟩
      · exact absurd hopen (by simp)
  · rintro ⟨hsize, hset, hlength, hcap, rfl, hopen⟩
    have hcipher : ¬ buf.length - (pos + 32) = 0 := by omega
    have hpos : R_MAX_PACKET_SIZE ≠ 0 := by decide
    simp [hsize, hset, hpos, hcipher, Nat.not_lt.mpr hcap, hopen]

theorem rExtractPduData_ok_iff {gcm : Gcm} {cred : RCredential} {buf : Bytes} {pos : Nat}
    {evpOk : Bool} {pdu : Bytes} :
    rExtractPduData gcm cred buf pos R_MAX_PACKET_SIZE evpOk = .ok pdu ↔
      Authentic gcm cred buf pos evpOk pdu := by
  unfold rExtractPduData
  constructor
  · intro h
    rcases rParseAuthTlvHeader_cases buf pos with ⟨-, hend, htlv⟩ | ⟨-, htlv⟩
    · rw [htlv] at h
      cases hauth : cred.authType with
      | derive => simp [hauth, expectedAuthTlv] at h
      | cookie =>
        simp only [hauth, expectedAuthTlv] at h
        split at h
        · exact absurd h (by simp)
        · rename_i htype
          have htype : (authTlvAt buf pos).type = R_TLV_AUTH_COOKIE := not_not.mp htype
          rw [if_pos htype] at h
          obtain ⟨hsize, hset, hcookie, rfl⟩ := extractCookiePdu_ok_iff.mp h
          exact .cookie hauth hset htype hsize (by omega) hcookie
      | aesGcm =>
        simp only [hauth, expectedAuthTlv] at h
        split at h
        · exact absurd h (by simp)
        · rename_i htype
          have htype : (authTlvAt buf pos).type = R_TLV_AUTH_AES := not_not.mp htype
          rw [if_neg (by rw [htype]; decide), if_pos htype] at h
          obtain ⟨hsize, hset, hlength, hcap, hevp, hopen⟩ := extractAesPdu_ok_iff.mp h
          exact .aes hauth hset htype hsize hlength hcap hevp pdu hopen
    · rw [htlv] at h
      exact absurd h (by simp)
  · intro h
    have htlv := rParseAuthTlvHeader_cases buf pos
    cases h with
    | cookie hauth hset htype hsize hlength hcookie =>
      rcases htlv with ⟨-, -, htlv⟩ | ⟨hover, -⟩
      · have htype' : (authTlvAt buf pos).type = R_TLV_AUTH_COOKIE := htype
        simp only [htlv, hauth, expectedAuthTlv, htype', ne_eq, not_true_eq_false, if_false,
          if_true]
        exact extractCookiePdu_ok_iff.mpr ⟨hsize, hset, hcookie, rfl⟩
      · exact absurd ⟨by omega, by omega⟩ hover
    | aes hauth hset htype hsize hlength hcap hevp _ hopen =>
      rcases htlv with ⟨-, -, htlv⟩ | ⟨hover, -⟩
      · have htype' : (authTlvAt buf pos).type = R_TLV_AUTH_AES := htype
        have hother : R_TLV_AUTH_AES ≠ R_TLV_AUTH_COOKIE := by decide
        simp only [htlv, hauth, expectedAuthTlv, htype', ne_eq, not_true_eq_false, if_false,
          if_true, hother]
        exact extractAesPdu_ok_iff.mpr ⟨hsize, hset, hlength, hcap, hevp, hopen⟩
      · exact absurd ⟨by omega, by omega⟩ hover

/-- A datagram that does not verify is a protocol or an authentication error. -/
theorem rExtractPduData_error {gcm : Gcm} {cred : RCredential} {buf : Bytes} {pos cap : Nat}
    {evpOk : Bool} {rc : RClientError} (hauth : cred.authType ≠ .derive)
    (h : rExtractPduData gcm cred buf pos cap evpOk = .error rc) :
    rc = .errProtocol ∨ rc = .errAuth := by
  unfold rExtractPduData extractCookiePdu extractAesPdu at h
  rcases rParseAuthTlvHeader_cases buf pos with ⟨-, -, htlv⟩ | ⟨-, htlv⟩
  · rw [htlv] at h
    cases htype : cred.authType with
    | derive => exact absurd htype hauth
    | _ =>
      simp only [htype, expectedAuthTlv] at h
      repeat' split at h
      all_goals first
        | exact .inl (Except.error.inj h).symm
        | exact .inr (Except.error.inj h).symm
        | exact absurd h (by simp)
  · rw [htlv] at h
    exact .inl (Except.error.inj h).symm

/-! ### The gate -/

/-- What a datagram must be for the client to act on it. -/
structure Admitted (gcm : Gcm) (c : RClient) (buf : Bytes) (io : DatagramIo)
    (tenant : RTenantHeader) (pos : Nat) (req : RClientReq) (pdu : Bytes) : Prop where
  parsed : rParseTenantHeader buf = .ok (tenant, pos)
  inflight : c.inflight.find? (fun req => req.requestId == tenant.uniqueId) = some req
  intime : io.gateMs ≤ req.dedupDeadlineMs
  snapshot : tenant.keyId ∈ req.targets.map (·.serverId)
  authentic : Authentic gcm c.credential buf pos io.evpOk pdu
  wellFormed : ResponseGrammar pdu

def Gate (gcm : Gcm) (c : RClient) (buf : Bytes) (io : DatagramIo) : Prop :=
  ∃ tenant pos req pdu, Admitted gcm c buf io tenant pos req pdu

/-- What reaches the first change of state has passed the gate. -/
theorem onDatagramGate_admitted {gcm : Gcm} {c : RClient}
    (hallowed : ∀ req ∈ c.inflight, ∀ id,
      rAllowedServerId req id = true ↔ id ∈ req.targets.map (·.serverId))
    {buf : Bytes} {io : DatagramIo} {req : RClientReq} {response : RResponse}
    (h : onDatagramGate gcm c buf io = .ok (req, response)) : Gate gcm c buf io := by
  obtain ⟨tenant, pos, pdu, parsed, hparsed, hfind, hintime, hid, hextract, hresponse, -⟩ :=
    onDatagramGate_ok_iff.mp h
  have hsnapshot := (hallowed req (List.mem_of_find?_eq_some hfind) tenant.keyId).mp hid
  exact ⟨tenant, pos, req, pdu, hparsed, hfind, hintime, hsnapshot,
    rExtractPduData_ok_iff.mp hextract, (rParseRateResponseAlloc_ok hresponse).1⟩

/-- A datagram that passes the gate is accepted unless memory runs out. -/
theorem onDatagramGate_of_gate {gcm : Gcm} {c : RClient}
    (hallowed : ∀ req ∈ c.inflight, ∀ id,
      rAllowedServerId req id = true ↔ id ∈ req.targets.map (·.serverId))
    {buf : Bytes} {io : DatagramIo} (hgate : Gate gcm c buf io)
    (hguards : io.allocResponse.guards = true) (hresources : io.allocResponse.resources = true) :
    ∃ req response, onDatagramGate gcm c buf io = .ok (req, response) := by
  obtain ⟨tenant, pos, req, pdu, hadmitted⟩ := hgate
  have hid : rAllowedServerId req tenant.keyId = true :=
    (hallowed req (List.mem_of_find?_eq_some hadmitted.inflight) tenant.keyId).mpr
      hadmitted.snapshot
  rcases rParseRateResponseAlloc_exact pdu hguards hresources with ⟨-, heq⟩ | ⟨hill, -⟩
  · exact ⟨req, _, onDatagramGate_ok_iff.mpr ⟨tenant, pos, pdu, _, hadmitted.parsed,
      hadmitted.inflight, hadmitted.intime, hid,
      rExtractPduData_ok_iff.mpr hadmitted.authentic, heq, rfl⟩⟩
  · exact absurd hadmitted.wellFormed hill

theorem onDatagramGate_error {gcm : Gcm} {c : RClient}
    (hauth : c.credential.authType ≠ .derive) {buf : Bytes} {io : DatagramIo}
    (hguards : io.allocResponse.guards = true) (hresources : io.allocResponse.resources = true)
    {rc : RClientError} (h : onDatagramGate gcm c buf io = .error rc) :
    rc = .ok ∨ rc = .errProtocol ∨ rc = .errAuth := by
  unfold onDatagramGate at h
  split at h
  · exact .inr (.inl (Except.error.inj h).symm)
  split at h
  · rename_i hparse
    obtain rfl := Except.error.inj h
    rcases rParseTenantHeader_cases buf with ⟨-, -, -, hok⟩ | ⟨-, herror⟩
    · exact absurd (hok.symm.trans hparse) (by simp)
    · exact .inr (.inl (Except.error.inj (herror.symm.trans hparse)).symm)
  split at h
  · exact .inl (Except.error.inj h).symm
  split at h
  · exact .inl (Except.error.inj h).symm
  split at h
  · exact .inl (Except.error.inj h).symm
  split at h
  · rename_i hextract
    obtain rfl := Except.error.inj h
    exact .inr (rExtractPduData_error hauth hextract)
  rename_i pdu _
  rcases rParseRateResponseAlloc_exact pdu hguards hresources with ⟨-, heq⟩ | ⟨-, heq⟩
  · rw [heq] at h
    exact absurd h (by simp)
  · rw [heq] at h
    exact .inr (.inl (Except.error.inj h).symm)

/-! ### Along a run -/

/-- What a client takes from the key that was decoded for it. -/
structure Configured (key : DecodedKey) (c : RClient) : Prop where
  keyId : c.credential.keyId = key.keyId
  authType : c.credential.authType = key.authType
  usable : key.authType ≠ .derive
  cookie : key.authType = .cookie →
    c.credential.hasCookie = true ∧ c.credential.cookie = key.secret
  aes : key.authType = .aesGcm → c.credential.hasAesKey = true ∧ c.credential.aesKey = key.secret
  hasQuotas : c.hasQuotas = true
  quotas : c.quotas = key.quotas

theorem rClientCreate_configured {args : CreateArgs} {c : RClient}
    (hcreate : rClientCreate args = .ok c) :
    ∃ key, args.decoded = some key ∧ Configured key c := by
  unfold rClientCreate at hcreate
  split at hcreate
  · exact absurd hcreate (by simp)
  rename_i credential quotas hconfigured
  obtain rfl := Except.ok.inj hcreate
  unfold rClientConfigureAuth at hconfigured
  split at hconfigured
  · exact absurd hconfigured (by simp)
  rename_i key hkey
  refine ⟨key, hkey, ?_⟩
  split at hconfigured
  · exact absurd hconfigured (by simp)
  split at hconfigured
  · exact absurd hconfigured (by simp)
  split at hconfigured
  · rename_i hauth
    obtain ⟨rfl, rfl⟩ := Prod.mk.inj (Except.ok.inj hconfigured)
    exact ⟨rfl, hauth.symm, by simp [hauth], fun _ => ⟨rfl, rfl⟩, by simp [hauth], rfl, rfl⟩
  · rename_i hauth
    obtain ⟨rfl, rfl⟩ := Prod.mk.inj (Except.ok.inj hconfigured)
    exact ⟨rfl, hauth.symm, by simp [hauth], by simp [hauth], fun _ => ⟨rfl, rfl⟩, rfl, rfl⟩
  · exact absurd hconfigured (by simp)

theorem rClientCreate_authType {args : CreateArgs} {c : RClient}
    (hcreate : rClientCreate args = .ok c) : c.credential.authType ≠ .derive := by
  obtain ⟨key, -, hconfigured⟩ := rClientCreate_configured hcreate
  rw [hconfigured.authType]
  exact hconfigured.usable

/-- A request in flight admits exactly the servers of its snapshot. -/
theorem run_allowed_iff {gcm : Gcm} {args : CreateArgs} {c : RClient}
    (hcreate : rClientCreate args = .ok c) {calls : List Call} {m : Machine}
    {trace : List Effect} (hrun : run gcm c calls = some (m, trace)) :
    ∀ req ∈ m.client.inflight, ∀ id,
      rAllowedServerId req id = true ↔ id ∈ req.targets.map (·.serverId) := by
  intro req hmem id
  obtain ⟨started, ⟨launch⟩, hsame, -⟩ :=
    run_live hcreate hrun (view_of_mem (run_wf hcreate hrun) hmem)
  rw [launch.allowed_iff hsame, hsame.targets]

def Noise (gcm : Gcm) (m : Machine) (call : Call) : Prop :=
  m.frames = [] ∧ ∃ buf sender io, call = .datagram buf sender io ∧ ¬ Gate gcm m.client buf io

/-- A datagram is turned away without any change, or it passes the gate. -/
theorem rClientOnDatagram_cases (gcm : Gcm) {c : RClient}
    (hallowed : ∀ req ∈ c.inflight, ∀ id,
      rAllowedServerId req id = true ↔ id ∈ req.targets.map (·.serverId))
    (buf : Bytes) (sender : RAddr) (io : DatagramIo) :
    (∃ rc, onDatagramGate gcm c buf io = .error rc ∧
      rClientOnDatagram gcm c buf sender io = .done rc c []) ∨
    Gate gcm c buf io := by
  unfold rClientOnDatagram
  cases hgate : onDatagramGate gcm c buf io with
  | error rc => exact .inl ⟨rc, rfl, rfl⟩
  | ok admitted => exact .inr (onDatagramGate_admitted hallowed hgate)

theorem acceptResponse_accepted (c : RClient) (req : RClientReq) (response : RResponse)
    (sender : RAddr) (io : DatagramIo) :
    Effect.accepted req.handle response ∈ (acceptResponse c req response sender io).effects := by
  unfold acceptResponse
  simp only
  split
  · simp [Reply.complete]
  · simp [Reply.done]

/-- The gate in front of every change, at every point of every run, and that
    datagrams which fail it can be inserted anywhere in a run: the run reaches the
    same machine with the same trace. -/
theorem ingress_gate {gcm : Gcm} {args : CreateArgs} {c : RClient}
    (hcreate : rClientCreate args = .ok c) {calls : List Call} {m : Machine}
    {trace : List Effect} (hrun : run gcm c calls = some (m, trace)) :
    (∀ buf sender io,
      let reply := rClientOnDatagram gcm m.client buf sender io
      (¬ Gate gcm m.client buf io →
        reply.client = m.client ∧ reply.effects = [] ∧ reply.frame = none ∧
        (io.allocResponse.guards = true → io.allocResponse.resources = true →
          reply.status = .ok ∨ reply.status = .errProtocol ∨ reply.status = .errAuth)) ∧
      (Gate gcm m.client buf io →
        io.allocResponse.guards = true → io.allocResponse.resources = true →
          ∃ h response, Effect.accepted h response ∈ reply.effects)) ∧
    ∀ noisy, Run.Inserted (step gcm) (Noise gcm) (.init c) calls noisy →
      run gcm c noisy = some (m, trace) := by
  have hauth : m.client.credential.authType ≠ .derive := by
    rw [credential_of_static (run_wf hcreate hrun).static]
    exact rClientCreate_authType hcreate
  refine ⟨?_, ?_⟩
  · intro buf sender io
    have hallowed := run_allowed_iff hcreate hrun
    refine ⟨?_, ?_⟩
    · intro hfails
      rcases rClientOnDatagram_cases gcm hallowed buf sender io with ⟨rc, hgate, heq⟩ | hgate
      · rw [heq]
        exact ⟨rfl, rfl, rfl, fun hguards hresources =>
          onDatagramGate_error hauth hguards hresources hgate⟩
      · exact absurd hgate hfails
    · intro hgate hguards hresources
      obtain ⟨req, response, heq⟩ := onDatagramGate_of_gate hallowed hgate hguards hresources
      refine ⟨req.handle, response, ?_⟩
      unfold rClientOnDatagram
      rw [heq]
      exact acceptResponse_accepted m.client req response sender io
  · intro noisy hinserted
    apply Run.exec_inserted (I := fun m => ∃ calls trace, run gcm c calls = some (m, trace))
      ?_ ?_ ⟨[], [], rfl⟩ hinserted hrun
    · rintro m call m' effects ⟨calls, trace, hrun⟩ hstep
      exact ⟨calls ++ [call], trace ++ effects,
        Run.exec_snoc.mpr ⟨m, trace, effects, hrun, hstep, rfl⟩⟩
    · rintro m call ⟨calls, trace, hrun⟩ ⟨hframes, buf, sender, io, rfl, hfails⟩
      rcases rClientOnDatagram_cases gcm (run_allowed_iff hcreate hrun) buf sender io with
        ⟨rc, -, heq⟩ | hgate
      · obtain ⟨client, frames, nextHandle⟩ := m
        obtain rfl : frames = [] := hframes
        simp [step, heq, Machine.afterReply, Reply.done]
      · exact absurd hgate hfails

/-- A response of server 9, which is not in the snapshot, between the submission
    and the answer of server 3. -/
theorem ingress_gate_unknown_server :
    ∃ m trace, run noGcm sampleClient [sampleSubmit 1 100, sampleDatagram 1 3 1 105] =
        some (m, trace) ∧
      run noGcm sampleClient
        [sampleSubmit 1 100, sampleDatagram 1 9 1 104, sampleDatagram 1 3 1 105] =
        some (m, trace) := by
  obtain ⟨⟨m, trace⟩, hrun, -⟩ := Option.map_eq_some_iff.mp
    (show (run noGcm sampleClient [sampleSubmit 1 100, sampleDatagram 1 3 1 105]).map
      (fun s => (marks 0 s.2).length) = some 2 by decide +kernel)
  refine ⟨m, trace, hrun, (ingress_gate sampleClient_created hrun).2 _ ?_⟩
  refine .keep _ _ _ _ fun submitted out hstep => ?_
  have hread : (step noGcm (.init sampleClient) (sampleSubmit 1 100)).map
      (fun s => (s.1.frames, s.1.client.inflight.map fun req => req.targets.map (·.serverId))) =
        some ([], [[5, 3]]) := by decide +kernel
  rw [hstep] at hread
  obtain ⟨hframes, htargets⟩ := Prod.mk.inj (Option.some.inj hread)
  refine .insert _ _ _ _ ⟨hframes, _, _, _, rfl, ?_⟩ (.keep _ _ _ _ fun _ _ _ => .nil _)
  rintro ⟨tenant, pos, req, pdu, hadmitted⟩
  have hkey : (rParseTenantHeader (sampleResponse 1 9 1)).map (·.1.keyId) = .ok 9 := by
    decide +kernel
  rw [hadmitted.parsed] at hkey
  have hids : req.targets.map (·.serverId) ∈ submitted.client.inflight.map
      fun req => req.targets.map (·.serverId) :=
    List.mem_map_of_mem (List.mem_of_find?_eq_some hadmitted.inflight)
  rw [htargets, List.mem_singleton] at hids
  have hsnapshot := hadmitted.snapshot
  rw [hids, show tenant.keyId = 9 from Except.ok.inj hkey] at hsnapshot
  exact absurd hsnapshot (by decide)

end RlClient
