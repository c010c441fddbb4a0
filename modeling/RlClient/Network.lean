import Mathlib.Logic.Function.Basic
import RlClient.Answer
import RlClient.Credential
import RlClient.Reflection
import RlClient.Selection

/-!
# Clients, responders and the wire between them

Any number of clients and of responders that were given one credential, and a network that
keeps every packet ever handed to it. It may deliver a packet to anyone, late, twice, out of
order or never, from any address, and it may make up packets as long as they are not
authentic under the credential. A client that the network calls into is the machine of
`Machine`, a responder is `r_test_responder_process` with the loop of the responder's `main`
around it: an answer is sent when the call succeeds and asks for it.
-/

namespace RlClient

/-! ### The system -/

/-- The parties, and the packets that were handed to the network so far. -/
structure Network (ι κ : Type) where
  clients : ι → Machine
  responders : κ → RTestResponderState
  wire : List Bytes

/-- What can happen next: a host calls its client, or the network delivers a packet to a
    client or a responder, or it makes one up. -/
inductive NetworkEvent (ι κ : Type) where
  | host (i : ι) (call : Call)
  | deliver (i : ι) (packet : Bytes) (sender : RAddr) (io : DatagramIo)
  | serve (j : κ) (packet : Bytes) (io : RTestResponderIo)
  | inject (packet : Bytes)

/-- What is observed: an effect of a client, a datagram that a responder has processed, with
    its state before, or a packet that was made up. -/
inductive Occurrence (ι κ : Type) where
  | client (i : ι) (effect : Effect)
  | served (j : κ) (state : RTestResponderState) (input : Bytes) (outcome : RTestOutcome)
  | injected (packet : Bytes)

/-- The packet that an effect hands to the network. A send that reports a failure may have
    got through. -/
def Effect.packet? : Effect → Option Bytes
  | .udpSend _ _ _ _ _ packet _ => some packet
  | _ => none

def Call.isDatagram : Call → Bool
  | .datagram _ _ _ => true
  | _ => false

/-- What the responder's `main` sends after a call. -/
def RTestOutcome.packets (outcome : RTestOutcome) : List Bytes :=
  if outcome.rc = .ok ∧ outcome.sendResponse = true then [outcome.output] else []

/-- Whether a holder of the credential takes the packet for authentic. -/
def opens (gcm : Gcm) (cred : RCredential) (packet : Bytes) : Bool :=
  match rParseTenantHeader packet with
  | .error _ => false
  | .ok (_, pos) =>
      match rExtractPduData gcm cred packet pos R_MAX_PACKET_SIZE true with
      | .error _ => false
      | .ok _ => true

/-- The response that a client with the credential reads from the packet for a request id. -/
def Reads (gcm : Gcm) (cred : RCredential) (packet : Bytes) (evpOk : Bool) (alloc : ResponseAlloc)
    (requestId : FixedBytes 16) (response : RResponse) : Prop :=
  ∃ tenant pos pdu parsed, Opened gcm cred packet evpOk tenant pos pdu ∧
    tenant.uniqueId = requestId ∧ rParseRateResponseAlloc pdu alloc = .ok parsed ∧
    response =
      { serverId := tenant.keyId
        steeringByte := tenant.steeringFeedback
        success := parsed.success
        guards := parsed.guards
        resources := parsed.resources }

variable {ι κ : Type}

/-- Who handed a packet to the network. -/
inductive Origin (trace : List (Occurrence ι κ)) (packet : Bytes) : Prop
  | sent (i : ι) (h : Option Handle) (pass : SendPass) (startedMs : UInt64) (index : Nat)
      (addr : RAddr) (ok : Bool)
      (hmem : .client i (.udpSend h pass startedMs index addr packet ok) ∈ trace)
  | answered (j : κ) (state : RTestResponderState) (input : Bytes) (outcome : RTestOutcome)
      (hmem : .served j state input outcome ∈ trace) (hsent : outcome.sendResponse = true)
      (houtput : outcome.output = packet)
  | made (hmem : .injected packet ∈ trace)

theorem Origin.mono {trace trace' : List (Occurrence ι κ)} (hsub : ∀ o ∈ trace, o ∈ trace')
    {packet : Bytes} (h : Origin trace packet) : Origin trace' packet := by
  cases h with
  | sent i h pass startedMs index addr ok hmem =>
    exact .sent i h pass startedMs index addr ok (hsub _ hmem)
  | answered j state input outcome hmem hsent houtput =>
    exact .answered j state input outcome (hsub _ hmem) hsent houtput
  | made hmem => exact .made (hsub _ hmem)

/-! ### Deployments -/

variable {gcm : Gcm}

/-- The strings that decode to `key`: it is spelled in one case throughout. -/
def ApiKey.SpelledBy (key : ApiKey) (text : Bytes) : Prop :=
  text = key.encode ∨ text = key.encode.map toUpper

/-- The secret of a key, ready for both modes. -/
def ApiKey.credential (key : ApiKey) : RCredential where
  keyId := key.keyId
  authType := key.authType
  cookie := key.secret
  hasCookie := true
  aesKey := key.secret
  hasAesKey := true

/-- Clients and responders that were created with one credential string each, all of them
    spelling the same key. -/
structure Deployment (ι κ : Type) where
  key : ApiKey
  args : ι → CreateArgs
  client : ι → RClient
  responder : κ → RTestResponderState
  keyed : ∀ i, ∃ text, key.SpelledBy text ∧ (args i).decoded = configuredKey .granted text
  created : ∀ i, rClientCreate (args i) = .ok (client i)
  initialised : ∀ j, ∃ text scenario serverId steeringKeepPort allowCount, key.SpelledBy text ∧
    rTestResponderInit .granted scenario (some text) serverId steeringKeepPort allowCount =
      .ok (responder j)

/-- The system before anything has happened. -/
def Deployment.start (d : Deployment ι κ) : Network ι κ where
  clients i := .init (d.client i)
  responders := d.responder
  wire := []

theorem Deployment.configured (d : Deployment ι κ) (i : ι) :
    Configured d.key.decoded (d.client i) := by
  obtain ⟨text, hspelled, hdecoded⟩ := d.keyed i
  rw [d.key.configuredKey_of_open (d.key.open_iff.mpr hspelled)] at hdecoded
  obtain ⟨key, hkey, hconfigured⟩ := rClientCreate_configured (d.created i)
  obtain rfl := Option.some.inj (hdecoded.symm.trans hkey)
  exact hconfigured

theorem Configured.outward {key : ApiKey} {c : RClient} (h : Configured key.decoded c) :
    SharesSecret c.credential key.credential := by
  refine ⟨h.authType.symm, fun hcookie => ⟨rfl, ?_⟩, fun haes => ⟨rfl, ?_⟩⟩
  · exact (h.cookie (h.authType.symm.trans hcookie)).2.symm
  · exact (h.aes (h.authType.symm.trans haes)).2.symm

/-- The responder's decoder and the client's agree on a credential string. -/
theorem rClientParseAuthKey_spelled {key : ApiKey} {text : Bytes} (hspelled : key.SpelledBy text) :
    ∃ info, rClientParseAuthKey .granted (some text) .zero = (.ok, info) ∧
      info.authType = key.authType ∧ info.keyId = key.keyId ∧ info.secret = key.secret ∧
      info.secretLen = 32 := by
  have htyped : key.authType = .cookie ∨ key.authType = .aesGcm := by
    cases hauth : key.authType with
    | derive => exact absurd hauth key.typed
    | cookie => exact .inl rfl
    | aesGcm => exact .inr rfl
  rw [rClientParseAuthKey]
  simp only [key.decode hspelled (.cleared 32), ApiKey.returned]
  rw [if_neg (by simp),
    if_neg (by simp only [not_or, not_and_or, not_not]; exact ⟨htyped, trivial⟩)]
  exact ⟨_, rfl, rfl, rfl, rfl, rfl⟩

/-- A responder as it starts, with the key and an empty table. -/
def ApiKey.responder (key : ApiKey) (scenario : RTestScenario) (serverId : UInt64)
    (steeringKeepPort : Bool) (allowCount : UInt64) : RTestResponderState where
  scenario := scenario
  authType := key.authType
  tenantKeyId := key.keyId
  secret := key.secret
  serverId := serverId
  steeringKeepPort := steeringKeepPort
  allowCount := allowCount
  sequence := 0
  lastGuardLatencyTrackerId := .replicate 16 0
  hasLastGuardLatencyTrackerId := false
  quota := []

theorem rTestResponderInit_spelled {key : ApiKey} {text : Bytes} (hspelled : key.SpelledBy text)
    (scenario : RTestScenario) {serverId : UInt64} (hserver : serverId ≠ 0)
    (steeringKeepPort : Bool) (allowCount : UInt64) :
    rTestResponderInit .granted scenario (some text) serverId steeringKeepPort allowCount =
      .ok (key.responder scenario serverId steeringKeepPort allowCount) := by
  obtain ⟨info, hparsed, hauth, hkeyId, hsecret, hlen⟩ := rClientParseAuthKey_spelled hspelled
  unfold rTestResponderInit
  rw [if_neg (by simp [hserver])]
  simp only [hparsed, hlen]
  rw [if_neg (by simp), hauth, hkeyId, hsecret]
  rfl

/-- A responder starts with the key that its credential string spells and an empty table. -/
theorem Deployment.responder_started (d : Deployment ι κ) (j : κ) :
    ∃ scenario serverId steeringKeepPort allowCount,
      d.responder j = d.key.responder scenario serverId steeringKeepPort allowCount := by
  obtain ⟨text, scenario, serverId, steeringKeepPort, allowCount, hspelled, hinit⟩ :=
    d.initialised j
  have hserver : serverId ≠ 0 := by
    rintro rfl
    cases hinit
  rw [rTestResponderInit_spelled hspelled scenario hserver] at hinit
  exact ⟨_, _, _, _, (Except.ok.inj hinit).symm⟩

theorem Deployment.responder_credential (d : Deployment ι κ) (j : κ) :
    (d.responder j).credential = d.key.credential := by
  obtain ⟨scenario, serverId, steeringKeepPort, allowCount, hstarted⟩ := d.responder_started j
  rw [hstarted]
  rfl

theorem Deployment.responder_quota (d : Deployment ι κ) (j : κ) : (d.responder j).quota = [] := by
  obtain ⟨scenario, serverId, steeringKeepPort, allowCount, hstarted⟩ := d.responder_started j
  rw [hstarted]
  rfl

theorem Opened.shared {cred receiver : RCredential} (hshares : SharesSecret cred receiver)
    {buf : Bytes} {evpOk : Bool} {tenant : RTenantHeader} {pos : Nat} {pdu : Bytes}
    (h : Opened gcm cred buf evpOk tenant pos pdu) :
    Opened gcm receiver buf evpOk tenant pos pdu := by
  refine ⟨h.parsed, rExtractPduData_ok_iff.mpr ?_⟩
  cases rExtractPduData_ok_iff.mp h.extracted with
  | cookie hauth _ htype hsize hlength hcookie =>
    obtain ⟨hset, hsame⟩ := hshares.cookie hauth
    exact .cookie (hshares.authType.trans hauth) hset htype hsize hlength (hcookie.trans hsame.symm)
  | aes hauth _ htype hsize hlength hcap hevp _ hopen =>
    obtain ⟨hset, hsame⟩ := hshares.aes hauth
    exact .aes (hshares.authType.trans hauth) hset htype hsize hlength hcap hevp _
      (by rw [hsame]; exact hopen)

theorem Opened.opens {cred : RCredential} {packet : Bytes} {evpOk : Bool} {tenant : RTenantHeader}
    {pos : Nat} {pdu : Bytes} (h : Opened gcm cred packet evpOk tenant pos pdu) :
    opens gcm cred packet = true := by
  have hready := h.ready
  simp only [RlClient.opens, hready.parsed, hready.extracted]

/-! ### What happens -/

variable [DecidableEq ι]

/-- The effects of client `i`. -/
def Occurrence.effect? (i : ι) : Occurrence ι κ → Option Effect
  | .client k effect => if k = i then some effect else none
  | _ => none

theorem filterMap_effect_self (i : ι) (effects : List Effect) :
    (effects.map (.client i : Effect → Occurrence ι κ)).filterMap (Occurrence.effect? i) =
      effects := by
  rw [List.filterMap_map]
  convert List.filterMap_some using 2
  simp [Occurrence.effect?]

theorem filterMap_effect_ne {i k : ι} (hne : k ≠ i) (effects : List Effect) :
    (effects.map (.client k : Effect → Occurrence ι κ)).filterMap (Occurrence.effect? i) = [] := by
  rw [List.filterMap_map, List.filterMap_eq_nil_iff]
  intro effect _
  simp [Occurrence.effect?, hne]

theorem filterMap_effect_split (pre post : List (Occurrence ι κ)) (i : ι) (effect : Effect) :
    (pre ++ .client i effect :: post).filterMap (Occurrence.effect? i) =
      pre.filterMap (Occurrence.effect? i) ++ effect :: post.filterMap (Occurrence.effect? i) := by
  have hown : Occurrence.effect? i (.client i effect : Occurrence ι κ) = some effect := by
    simp [Occurrence.effect?]
  rw [List.filterMap_append, List.filterMap_cons_some hown]

theorem mem_effects {trace : List (Occurrence ι κ)} {i : ι} {effect : Effect}
    (h : Occurrence.client i effect ∈ trace) :
    effect ∈ trace.filterMap (Occurrence.effect? i) :=
  List.mem_filterMap.mpr ⟨_, h, by simp [Occurrence.effect?]⟩

theorem mem_of_effects {trace : List (Occurrence ι κ)} {i : ι} {effect : Effect}
    (h : effect ∈ trace.filterMap (Occurrence.effect? i)) : Occurrence.client i effect ∈ trace := by
  obtain ⟨o, ho, heffect⟩ := List.mem_filterMap.mp h
  cases o with
  | client k effect' =>
    simp only [Occurrence.effect?] at heffect
    split at heffect
    · rename_i hown
      obtain rfl := Option.some.inj heffect
      rwa [← hown]
    · cases heffect
  | served => cases heffect
  | injected => cases heffect

variable [DecidableEq κ]

/-- Client `i` takes a step. -/
def Network.clientStep (gcm : Gcm) (net : Network ι κ) (i : ι) (call : Call) :
    Option (Network ι κ × List (Occurrence ι κ)) :=
  match step gcm (net.clients i) call with
  | none => none
  | some (m, effects) =>
      some
        ({ net with
            clients := Function.update net.clients i m
            wire := net.wire ++ effects.filterMap Effect.packet? },
          effects.map (.client i))

/-- One step of the system; `cred` is what outsiders do not have. -/
def Network.step (gcm : Gcm) (cred : RCredential) (net : Network ι κ) :
    NetworkEvent ι κ → Option (Network ι κ × List (Occurrence ι κ))
  | .host i call => if call.isDatagram then none else net.clientStep gcm i call
  | .deliver i packet sender io =>
      if packet ∈ net.wire then net.clientStep gcm i (.datagram packet sender io) else none
  | .serve j packet io =>
      if packet ∈ net.wire then
        match rTestResponderProcess gcm (net.responders j) packet R_MAX_PACKET_SIZE io with
        | .error _ => some (net, [])
        | .ok outcome =>
            some
              ({ net with
                  responders := Function.update net.responders j outcome.state
                  wire := net.wire ++ outcome.packets },
                [.served j (net.responders j) packet outcome])
      else none
  | .inject packet =>
      if opens gcm cred packet then none
      else some ({ net with wire := net.wire ++ [packet] }, [.injected packet])

/-! ### One step -/

/-- What a step does. -/
inductive Network.Moves (gcm : Gcm) (cred : RCredential) (net : Network ι κ) :
    Network ι κ → List (Occurrence ι κ) → Prop
  | call (i : ι) (call : Call) (m : Machine) (effects : List Effect)
      (hstep : RlClient.step gcm (net.clients i) call = some (m, effects))
      (hcarried : ∀ packet sender io, call = .datagram packet sender io → packet ∈ net.wire) :
      Moves gcm cred net
        { net with
          clients := Function.update net.clients i m
          wire := net.wire ++ effects.filterMap Effect.packet? }
        (effects.map (.client i))
  | serve (j : κ) (packet : Bytes) (io : RTestResponderIo) (outcome : RTestOutcome)
      (hcarried : packet ∈ net.wire)
      (hprocess : rTestResponderProcess gcm (net.responders j) packet R_MAX_PACKET_SIZE io =
        .ok outcome) :
      Moves gcm cred net
        { net with
          responders := Function.update net.responders j outcome.state
          wire := net.wire ++ outcome.packets }
        [.served j (net.responders j) packet outcome]
  | ignore : Moves gcm cred net net []
  | inject (packet : Bytes) (hforeign : opens gcm cred packet = false) :
      Moves gcm cred net { net with wire := net.wire ++ [packet] } [.injected packet]

theorem Network.moves_of_clientStep {cred : RCredential} {net net' : Network ι κ} {i : ι}
    {call : Call} {out : List (Occurrence ι κ)}
    (hcarried : ∀ packet sender io, call = .datagram packet sender io → packet ∈ net.wire)
    (h : net.clientStep gcm i call = some (net', out)) : net.Moves gcm cred net' out := by
  unfold clientStep at h
  split at h
  · cases h
  · rename_i m effects hstep
    obtain ⟨rfl, rfl⟩ := Prod.mk.inj (Option.some.inj h)
    exact .call i call m effects hstep hcarried

theorem Network.moves_of_step {cred : RCredential} {net net' : Network ι κ}
    {event : NetworkEvent ι κ} {out : List (Occurrence ι κ)}
    (h : net.step gcm cred event = some (net', out)) : net.Moves gcm cred net' out := by
  cases event with
  | host i call =>
    simp only [step] at h
    split at h
    · cases h
    · rename_i hcall
      refine moves_of_clientStep ?_ h
      rintro packet sender io rfl
      exact absurd rfl hcall
  | deliver i packet sender io =>
    simp only [step] at h
    split at h
    · rename_i hmem
      refine moves_of_clientStep ?_ h
      intro packet' sender' io' heq
      obtain ⟨rfl, -, -⟩ := Call.datagram.inj heq
      exact hmem
    · cases h
  | serve j packet io =>
    simp only [step] at h
    split at h
    · rename_i hmem
      split at h
      · obtain ⟨rfl, rfl⟩ := Prod.mk.inj (Option.some.inj h)
        exact .ignore
      · rename_i outcome hprocess
        obtain ⟨rfl, rfl⟩ := Prod.mk.inj (Option.some.inj h)
        exact .serve j packet io outcome hmem hprocess
    · cases h
  | inject packet =>
    simp only [step] at h
    split at h
    · cases h
    · rename_i hforeign
      obtain ⟨rfl, rfl⟩ := Prod.mk.inj (Option.some.inj h)
      exact .inject packet (Bool.eq_false_iff.mpr hforeign)

/-- A step of the system is a step of client `i` or leaves it alone. -/
theorem Network.step_client {cred : RCredential} (i : ι) (net : Network ι κ)
    (event : NetworkEvent ι κ) (net' : Network ι κ) (out : List (Occurrence ι κ))
    (h : net.step gcm cred event = some (net', out)) :
    (net'.clients i = net.clients i ∧ out.filterMap (Occurrence.effect? i) = []) ∨
      ∃ call, RlClient.step gcm (net.clients i) call =
        some (net'.clients i, out.filterMap (Occurrence.effect? i)) := by
  cases Network.moves_of_step h with
  | call k call m effects hstep _ =>
    by_cases hown : k = i
    · subst hown
      right
      refine ⟨call, ?_⟩
      rw [filterMap_effect_self]
      simp only [Function.update_self]
      exact hstep
    · left
      exact ⟨Function.update_of_ne (Ne.symm hown) _ _, filterMap_effect_ne hown effects⟩
  | serve j packet io outcome => exact .inl ⟨rfl, rfl⟩
  | ignore => exact .inl ⟨rfl, rfl⟩
  | inject packet => exact .inl ⟨rfl, rfl⟩

/-! ### Where packets come from -/

/-- What a step puts on the wire was handed over in that step. -/
theorem Network.Moves.origin {cred : RCredential} {net net' : Network ι κ}
    {out : List (Occurrence ι κ)} (h : net.Moves gcm cred net' out) {packet : Bytes}
    (hmem : packet ∈ net'.wire) : packet ∈ net.wire ∨ Origin out packet := by
  cases h with
  | call i call m effects hstep _ =>
    rcases List.mem_append.mp hmem with hold | hnew
    · exact .inl hold
    right
    obtain ⟨effect, heffect, hpacket⟩ := List.mem_filterMap.mp hnew
    cases effect with
    | udpSend h pass startedMs index addr sent ok =>
      obtain rfl := Option.some.inj hpacket
      exact .sent i h pass startedMs index addr ok (List.mem_map_of_mem heffect)
    | _ => cases hpacket
  | serve j input io outcome _ hprocess =>
    rcases List.mem_append.mp hmem with hold | hnew
    · exact .inl hold
    right
    unfold RTestOutcome.packets at hnew
    split at hnew
    · rename_i hsent
      exact .answered j _ input outcome List.mem_cons_self hsent.2 (List.mem_singleton.mp hnew).symm
    · cases hnew
  | ignore => exact .inl hmem
  | inject made _ =>
    rcases List.mem_append.mp hmem with hold | hnew
    · exact .inl hold
    · rw [List.mem_singleton.mp hnew]
      exact .inr (.made List.mem_cons_self)

/-- **Every packet has an origin.** -/
theorem wire_origin {cred : RCredential} {net₀ net : Network ι κ} (hempty : net₀.wire = [])
    {events : List (NetworkEvent ι κ)} {trace : List (Occurrence ι κ)}
    (hrun : Run.exec (Network.step gcm cred) net₀ events = some (net, trace)) {packet : Bytes}
    (hmem : packet ∈ net.wire) : Origin trace packet := by
  refine Run.exec_induction
    (P := fun _ net trace => ∀ packet ∈ net.wire, Origin trace packet) ?_ ?_ hrun packet hmem
  · intro packet hmem
    rw [hempty] at hmem
    cases hmem
  · intro events net trace event net' out _ ih hstep packet hmem
    rcases (Network.moves_of_step hstep).origin hmem with hold | hnew
    · exact (ih packet hold).mono fun o ho => List.mem_append_left _ ho
    · exact hnew.mono fun o ho => List.mem_append_right _ ho

theorem injected_foreign {cred : RCredential} {net₀ net : Network ι κ}
    {events : List (NetworkEvent ι κ)} {trace : List (Occurrence ι κ)}
    (hrun : Run.exec (Network.step gcm cred) net₀ events = some (net, trace)) {packet : Bytes}
    (hmem : Occurrence.injected packet ∈ trace) : opens gcm cred packet = false := by
  obtain ⟨pre, post, rfl⟩ := List.append_of_mem hmem
  obtain ⟨events₁, event, events₂, net₁, trace₁, net₂, left, right, -, -, hstep, -⟩ :=
    Run.exec_locate hrun
  have hhere : Occurrence.injected packet ∈ left ++ Occurrence.injected packet :: right :=
    List.mem_append_right _ List.mem_cons_self
  generalize left ++ Occurrence.injected packet :: right = out at hstep hhere
  cases Network.moves_of_step hstep with
  | call i call m effects =>
    obtain ⟨effect, -, heq⟩ := List.mem_map.mp hhere
    cases heq
  | serve j input io outcome => cases List.mem_singleton.mp hhere
  | ignore => cases hhere
  | inject made hforeign =>
    obtain rfl := Occurrence.injected.inj (List.mem_singleton.mp hhere)
    exact hforeign

/-! ### What a client accepts -/

theorem accepted_of_acceptResponse {c : RClient} {req : RClientReq} {response accepted : RResponse}
    {sender : RAddr} {io : DatagramIo} {h : Handle}
    (hmem : Effect.accepted h accepted ∈ (acceptResponse c req response sender io).effects) :
    req.handle = h ∧ response = accepted := by
  have hfirst : Effect.accepted h accepted ∈ [Effect.accepted req.handle response] →
      req.handle = h ∧ response = accepted := by
    intro hmem
    obtain ⟨rfl, rfl⟩ := Effect.accepted.inj (List.mem_singleton.mp hmem)
    exact ⟨rfl, rfl⟩
  unfold acceptResponse at hmem
  simp only at hmem
  split at hmem
  · rename_i best _
    obtain ⟨observed, hobserved, heffects⟩ := complete_effects
      (c.putRequest (recordResponse req response sender io.allocSeen))
      (recordResponse req response sender io.allocSeen) .ok (some best) io.complete
      [.accepted req.handle response]
    rw [heffects] at hmem
    -- what a completion adds is a profile, sends and the callback
    rcases List.mem_append.mp hmem with hmem | hmem
    · exact hfirst hmem
    rcases List.mem_append.mp hmem with hmem | hmem
    · rcases List.mem_append.mp hmem with hmem | hmem
      · obtain ⟨p, hp⟩ := hobserved _ hmem
        cases hp
      · split at hmem
        · exact absurd (rCompletionDelivery_isSend _ hmem) Bool.false_ne_true
        · cases hmem
    · cases List.mem_singleton.mp hmem
  · exact hfirst hmem

theorem mem_acceptedBy {h : Handle} {effects : List Effect} {response : RResponse} :
    response ∈ acceptedBy h effects ↔ Effect.accepted h response ∈ effects := by
  constructor
  · intro hmem
    obtain ⟨effect, heffect, hsome⟩ := List.mem_filterMap.mp hmem
    cases effect with
    | accepted k response' =>
      simp only [Effect.accepted?] at hsome
      split at hsome
      · rename_i hown
        obtain rfl := Option.some.inj hsome
        rwa [← hown]
      · cases hsome
    | _ => cases hsome
  · intro hmem
    exact List.mem_filterMap.mpr ⟨_, hmem, by simp [Effect.accepted?]⟩

/-- A response is accepted by a datagram that passes the gate. -/
theorem step_accepted {c : RClient} {m m' : Machine} (hwf : m.Wf c) {call : Call}
    {effects : List Effect} (hstep : step gcm m call = some (m', effects)) {h : Handle}
    {response : RResponse} (hmem : Effect.accepted h response ∈ effects) :
    ∃ packet sender io req, call = .datagram packet sender io ∧
      onDatagramGate gcm m.client packet io = .ok (req, response) ∧ req.handle = h := by
  have hlife := (step_wf_life hwf hstep).2 h
  obtain ⟨_, -, hreq⟩ := hlife.treats (mem_about.mpr ⟨hmem, rfl⟩) (by simp [Effect.isTrigger])
  have haccepted : response ∈ acceptedBy h (about h effects) := by
    rw [acceptedBy_about]
    exact mem_acceptedBy.mpr hmem
  obtain ⟨packet, sender, io, rfl, -⟩ := hreq.accepts haccepted
  cases stepped_of_step hstep with
  | datagram _ _ _ hframes =>
    unfold rClientOnDatagram at hmem
    split at hmem
    · cases hmem
    · rename_i req accepted hgate
      obtain ⟨hhandle, rfl⟩ := accepted_of_acceptResponse hmem
      exact ⟨packet, sender, io, req, rfl, hgate, hhandle⟩

/-! ### Runs of a deployment -/

section

variable {d : Deployment ι κ} {events : List (NetworkEvent ι κ)} {net : Network ι κ}

/-- What a client does in a run of the system is a run of its own. -/
theorem Deployment.client_run {trace : List (Occurrence ι κ)}
    (hrun : Run.exec (Network.step gcm d.key.credential) d.start events = some (net, trace))
    (i : ι) : ∃ calls, run gcm (d.client i) calls =
      some (net.clients i, trace.filterMap (Occurrence.effect? i)) :=
  Run.exec_project (fun net : Network ι κ => net.clients i) (Occurrence.effect? i)
    (Network.step_client i) hrun

/-- A responder keeps its configuration, and each event advances its table by one request
    at most. -/
theorem Deployment.responder_kept {trace : List (Occurrence ι κ)}
    (hrun : Run.exec (Network.step gcm d.key.credential) d.start events = some (net, trace))
    (j : κ) : Kept (0xffff * events.length) (d.responder j) (net.responders j) := by
  refine Run.exec_induction (P := fun events net _ =>
    Kept (0xffff * events.length) (d.responder j) (net.responders j)) (.refl 0 _) ?_ hrun
  intro events net trace event net' out _ ih hstep
  rw [List.length_append, List.length_singleton, Nat.mul_add, Nat.mul_one]
  have hsame : Kept (0xffff * events.length + 0xffff) (d.responder j) (net.responders j) :=
    ih.mono (Nat.le_add_right _ _)
  cases Network.moves_of_step hstep with
  | call => exact hsame
  | serve k packet io outcome _ hprocess =>
    by_cases hown : k = j
    · subst hown
      simp only [Function.update_self]
      exact ih.trans (rTestResponderProcess_kept hprocess)
    · simp only [Function.update_of_ne (Ne.symm hown)]
      exact hsame
  | ignore => exact hsame
  | inject => exact hsame

/-- A datagram that a responder has processed: it was on the wire, and the state before it is
    one that the responder has reached. -/
theorem Deployment.served {pre post : List (Occurrence ι κ)} {j : κ}
    {state : RTestResponderState} {input : Bytes} {outcome : RTestOutcome}
    (hrun : Run.exec (Network.step gcm d.key.credential) d.start events =
      some (net, pre ++ .served j state input outcome :: post)) :
    Kept (0xffff * (events.length - 1)) (d.responder j) state ∧ Origin pre input ∧
      ∃ io, rTestResponderProcess gcm state input R_MAX_PACKET_SIZE io = .ok outcome := by
  obtain ⟨events₁, event, events₂, net₁, trace₁, net₂, left, right, rfl, hfirst, hstep, rfl⟩ :=
    Run.exec_locate hrun
  have hhere : Occurrence.served j state input outcome ∈
      left ++ Occurrence.served j state input outcome :: right :=
    List.mem_append_right _ List.mem_cons_self
  generalize left ++ Occurrence.served j state input outcome :: right = out at hstep hhere
  cases Network.moves_of_step hstep with
  | call i call m effects =>
    obtain ⟨effect, -, heq⟩ := List.mem_map.mp hhere
    cases heq
  | serve k packet io outcome' hcarried hprocess =>
    obtain ⟨rfl, rfl, rfl, rfl⟩ := Occurrence.served.inj (List.mem_singleton.mp hhere)
    refine ⟨(responder_kept hfirst j).mono (Nat.mul_le_mul_left _ ?_), ?_, io, hprocess⟩
    · rw [List.length_append, List.length_cons]
      omega
    · exact (wire_origin rfl hfirst hcarried).mono fun o ho => List.mem_append_left _ ho
  | ignore => cases hhere
  | inject packet => cases List.mem_singleton.mp hhere

/-- A response that a client has accepted: it was read from a packet on the wire. -/
theorem Deployment.accepted {pre post : List (Occurrence ι κ)} {i : ι} {h : Handle}
    {response : RResponse}
    (hrun : Run.exec (Network.step gcm d.key.credential) d.start events =
      some (net, pre ++ .client i (.accepted h response) :: post)) :
    ∃ packet io calls m trace req, run gcm (d.client i) calls = some (m, trace) ∧
      (∀ effect ∈ trace, .client i effect ∈ pre) ∧ Origin pre packet ∧
      onDatagramGate gcm m.client packet io = .ok (req, response) ∧ req.handle = h := by
  obtain ⟨events₁, event, events₂, net₁, trace₁, net₂, left, right, -, hfirst, hstep, rfl⟩ :=
    Run.exec_locate hrun
  have hhere : Occurrence.client i (.accepted h response) ∈
      left ++ Occurrence.client i (.accepted h response) :: right :=
    List.mem_append_right _ List.mem_cons_self
  generalize left ++ Occurrence.client i (.accepted h response) :: right = out at hstep hhere
  obtain ⟨calls, hclient⟩ := client_run hfirst i
  cases Network.moves_of_step hstep with
  | call k call m effects hcall hcarried =>
    obtain ⟨effect, heffect, heq⟩ := List.mem_map.mp hhere
    obtain ⟨rfl, rfl⟩ := Occurrence.client.inj heq
    obtain ⟨packet, sender, io, req, rfl, hgate, hhandle⟩ :=
      step_accepted (run_wf (d.created k) hclient) hcall heffect
    refine ⟨packet, io, calls, _, _, req, hclient, ?_, ?_, hgate, hhandle⟩
    · intro effect heffect
      exact List.mem_append_left _ (mem_of_effects heffect)
    · exact (wire_origin rfl hfirst (hcarried packet sender io rfl)).mono
        fun o ho => List.mem_append_left _ ho
  | serve j packet io outcome => cases List.mem_singleton.mp hhere
  | ignore => cases hhere
  | inject packet => cases List.mem_singleton.mp hhere

end

end RlClient
