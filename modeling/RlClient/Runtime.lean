import RlClient.SocketRebind
import RlClient.Bech32
import RlClient.Accounts

/-!
# The runtime

The bundled runtime puts a client on the sockets of the process: it opens one for each
address family, sends through the one that fits the destination, drains the one that is
readable, binds new ones when the steering hook is called, and closes them in the end. The
machine below does all of it around the machine of the client, from before
`r_runtime_client_init` to after `r_runtime_client_destroy` and again. While a datagram is
delivered the host's callbacks run, and what they do may replace the sockets under the loop
that is draining one of them; that loop knows its socket by the number of the descriptor,
which the system uses again after a close.
-/

namespace RlClient

/-! ### The model -/

/-- `r_runtime_options_t`. -/
structure RRuntimeOptions where
  tenantDnsName : Option Bytes
  authKey : Option Bytes
  serverHost : Option Bytes
  serverPort : UInt16
  requestPolicy : Option RRequestPolicy
  profileRequests : Bool

/-- `copy_fixed_host`: the endpoint kept in the runtime, if there is one. -/
def copyFixedHost (options : RRuntimeOptions) : Except RClientError (Option (Bytes × UInt16)) :=
  match options.serverHost with
  | none => if options.serverPort = 0 then .ok none else .error .errConfig
  | some host =>
      if options.serverPort = 0 then .error .errConfig
      else if host.length = 0 || host.length ≥ 256 then .error .errConfig
      else .ok (some (host, options.serverPort))

/-- How `sendto` went: interrupted a number of times, and then its return value, `none` for
    an error. -/
structure Transmission where
  interrupts : Nat
  sent : Option Nat

/-- The system: its answers to the calls on sockets, what becomes of a datagram handed to
    `sendto`, and the number of the descriptor each socket has while it is open. -/
structure RuntimeSystem (σ : Type) where
  answer : σ → SysCall → Option Int × σ
  transmit : σ → RSocket → RAddr → Bytes → Transmission × σ
  descriptor : Nat → Nat

/-- What the outside sees of the runtime. A `recvfrom` names the descriptor it is called on
    and the open socket the system finds there, if any. -/
inductive RuntimeOutput where
  | system (event : RuntimeEvent)
  | sendto (socket : RSocket) (addr : RAddr) (packet : Bytes) (sent : Option Nat)
  | recvfrom (descriptor : Nat) (found : Option Nat)
  | client (effect : Effect)
  | initialised (status : RClientError)
  | drained (status : RClientError)

/-- The family of a socket as `ss_family` has it. -/
def RFamily.code : RFamily → Option Nat
  | .inet => some AF_INET
  | .inet6 => some AF_INET6
  | .other => none

def RAddr.family (addr : RAddr) : Nat := leWordAt 2 addr.sa 0

/-- Where `r_runtime_client_on_readable` is: not called, about to call `recvfrom`, or in a
    callback of `r_client_on_datagram`, which is going to return `status`. -/
inductive Drain where
  | outside
  | receiving (descriptor : Nat)
  | delivering (descriptor : Nat) (status : RClientError)
deriving DecidableEq

/-- The runtime with the client it drives, once there is one. -/
structure RuntimeMachine (σ : Type) where
  runtime : RRuntimeClient σ
  handle : Option Machine
  drain : Drain

/-- What `recvfrom` gives. -/
inductive Received where
  | interrupted
  | wouldBlock
  | failed
  | datagram (buf : Bytes) (sender : RAddr) (io : DatagramIo)

/-- What happens to the runtime. `host` is any call of the client but `r_client_on_datagram`,
    which only the drain makes; `assigned` are the ports the system picks for port 0. -/
inductive RuntimeInput where
  | init (alloc : DecodeAlloc) (options : RRuntimeOptions) (refresh : RefreshIo)
      (assigned : RFamily → UInt16)
  | host (call : Call)
  | readable (descriptor : Nat)
  | received (received : Received)
  | destroy

variable {σ : Type}

/-- The events between two states of the system. -/
def systemEvents (os os' : Os σ) : List RuntimeOutput :=
  (os'.trace.drop os.trace.length).map .system

section Steps

variable (sys : RuntimeSystem σ)

/-- The first loop of `runtime_udp_send`. -/
def findSocket (family : Nat) : List RSocket → Os σ → Option RSocket × Os σ
  | [], os => (none, os)
  | socket :: sockets, os =>
      match os.call sys.answer (.getsockname socket.id) with
      | (none, os) =>
          if socket.family.code = some family then (some socket, os)
          else findSocket family sockets os
      | (some _, os) => findSocket family sockets os

/-- `runtime_udp_send`. -/
def runtimeUdpSend (runtime : RRuntimeClient σ) (addr : RAddr) (packet : Bytes) :
    Bool × RRuntimeClient σ × List RuntimeOutput :=
  if packet.isEmpty then (false, runtime, [])
  else
    match findSocket sys addr.family runtime.sockets runtime.os with
    | (none, os) => (false, { runtime with os := os }, systemEvents runtime.os os)
    | (some socket, os) =>
        let (transmission, env) := sys.transmit os.env socket addr packet
        (transmission.sent = some packet.length, { runtime with os := { os with env := env } },
          systemEvents runtime.os os ++
            List.replicate transmission.interrupts (.sendto socket addr packet none) ++
            [.sendto socket addr packet transmission.sent])

/-- What the runtime does for one effect of the client. The host's answer in the effect must
    be the one the runtime gives. -/
def perform (runtime : RRuntimeClient σ) (effect : Effect) :
    Option (RRuntimeClient σ × List RuntimeOutput) :=
  match effect with
  | .udpSend _ _ _ _ addr packet ok =>
      let (sent, runtime', outputs) := runtimeUdpSend sys runtime addr packet
      if sent = ok then some (runtime', .client effect :: outputs) else none
  | .steering keepPort =>
      let runtime' := runtimeOnSteeringFeedback sys.answer keepPort runtime
      some (runtime', .client effect :: systemEvents runtime.os runtime'.os)
  | _ => some (runtime, [.client effect])

/-- `r_runtime_client_destroy`; the client goes with its handle. -/
def rRuntimeClientDestroy (runtime : RRuntimeClient σ) : RRuntimeClient σ where
  os := closeSockets sys.answer runtime.sockets runtime.os
  sockets := []

/-- The configuration `r_runtime_client_init` hands to `r_client_create`. -/
def RRuntimeOptions.createArgs (options : RRuntimeOptions) (alloc : DecodeAlloc) (authKey : Bytes)
    (refresh : RefreshIo) : CreateArgs where
  authType := .derive
  keyId := 0
  dnsName := options.tenantDnsName
  requestPolicy := some (options.requestPolicy.getD rClientDefaultRequestPolicy)
  requestProfileCb := options.profileRequests
  dnsRefresh := { refreshIntervalMs := 0, forcedRefreshMinIntervalMs := 0,
                  forcedRefreshJitterMs := 0 }
  udpSend := true
  onSteeringFeedback := true
  decoded := configuredKey alloc authKey
  refresh := refresh

/-- A socket bound to port 0 has the port the system picked. -/
def openAnyPort (family : RFamily) (assigned : UInt16) (os : Os σ) : List RSocket × Os σ :=
  match openUdpSocket sys.answer family 0 os with
  | (.ok socket, os) => ([{ socket with port := assigned }], os)
  | (.error _, os) => ([], os)

/-- `r_runtime_client_init` on a runtime that has no sockets. -/
def rRuntimeClientInit (alloc : DecodeAlloc) (options : RRuntimeOptions) (refresh : RefreshIo)
    (assigned : RFamily → UInt16) (os : Os σ) : RClientError × RRuntimeClient σ × Option Machine :=
  match options.authKey with
  | none => (.errConfig, ⟨os, []⟩, none)
  | some [] => (.errConfig, ⟨os, []⟩, none)
  | some (b :: key) =>
      match copyFixedHost options with
      | .error status => (status, rRuntimeClientDestroy sys ⟨os, []⟩, none)
      | .ok _ =>
          let (ipv4, os) := openAnyPort sys .inet (assigned .inet) os
          let (ipv6, os) := openAnyPort sys .inet6 (assigned .inet6) os
          let runtime : RRuntimeClient σ := ⟨os, ipv4 ++ ipv6⟩
          if runtime.sockets.isEmpty then (.errIo, rRuntimeClientDestroy sys runtime, none)
          else
            match rClientCreate (options.createArgs alloc (b :: key) refresh) with
            | .error status => (status, rRuntimeClientDestroy sys runtime, none)
            | .ok client => (.ok, runtime, some (.init client))

def Os.lookup (os : Os σ) (descriptor : Nat) : Option Nat :=
  (opened os.trace).find? fun id => id ∉ closed os.trace ∧ sys.descriptor id = descriptor

/-- `socket_is_current`. -/
def socketIsCurrent (runtime : RRuntimeClient σ) (descriptor : Nat) : Bool :=
  runtime.sockets.any fun socket => sys.descriptor socket.id = descriptor

/-- The end of the loop of `r_runtime_client_on_readable`, once `r_client_on_datagram` has
    returned. -/
def afterDatagram (runtime : RRuntimeClient σ) (descriptor : Nat) (status : RClientError) :
    Drain × List RuntimeOutput :=
  if status = .errProtocol ∨ status = .errAuth then (.receiving descriptor, [])
  else if status ≠ .ok then (.outside, [.drained status])
  else if socketIsCurrent sys runtime descriptor then (.receiving descriptor, [])
  else (.outside, [.drained .ok])

/-- The client has made a step: the runtime does what the effects ask for, and the drain goes
    on when no callback is running any more. -/
def RuntimeMachine.follow (s : RuntimeMachine σ) (drain : Drain) (m : Machine)
    (effects : List Effect) : Option (RuntimeMachine σ × List RuntimeOutput) :=
  match Run.exec (perform sys) s.runtime effects with
  | none => none
  | some (runtime, outputs) =>
      match drain with
      | .delivering descriptor status =>
          if m.frames.isEmpty then
            let (drain, more) := afterDatagram sys runtime descriptor status
            some (⟨runtime, some m, drain⟩, outputs ++ more)
          else some (⟨runtime, some m, drain⟩, outputs)
      | drain => some (⟨runtime, some m, drain⟩, outputs)

/-- One step. The runtime is initialised only while it has no client: the source does not check
    this, and a second initialisation would clear the record and leak the sockets in it. It is
    destroyed outside of its loop and of callbacks; the host acts outside of the loop or in a
    callback; a drain is started on the descriptor of a socket of the runtime. -/
def RuntimeMachine.step (gcm : Gcm) (s : RuntimeMachine σ) :
    RuntimeInput → Option (RuntimeMachine σ × List RuntimeOutput)
  | .init alloc options refresh assigned =>
      match s.handle with
      | some _ => none
      | none =>
          let (status, runtime, handle) :=
            rRuntimeClientInit sys alloc options refresh assigned s.runtime.os
          some (⟨runtime, handle, .outside⟩,
            systemEvents s.runtime.os runtime.os ++ [.initialised status])
  | .host (.datagram _ _ _) => none
  | .host call =>
      match s.handle, s.drain with
      | none, _ => none
      | some _, .receiving _ => none
      | some m, drain =>
          match RlClient.step gcm m call with
          | none => none
          | some (m', effects) => s.follow sys drain m' effects
  | .readable descriptor =>
      match s.handle, s.drain with
      | some m, .outside =>
          if m.frames.isEmpty && socketIsCurrent sys s.runtime descriptor then
            some ({ s with drain := .receiving descriptor }, [])
          else none
      | _, _ => none
  | .received received =>
      match s.handle, s.drain with
      | some m, .receiving descriptor =>
          let read := RuntimeOutput.recvfrom descriptor (s.runtime.os.lookup sys descriptor)
          match received with
          | .interrupted => some (s, [read])
          | .wouldBlock => some ({ s with drain := .outside }, [read, .drained .ok])
          | .failed => some ({ s with drain := .outside }, [read, .drained .errIo])
          | .datagram buf sender io =>
              match RlClient.step gcm m (.datagram buf sender io) with
              | none => none
              | some (m', effects) =>
                  let status := (rClientOnDatagram gcm m.client buf sender io).status
                  (s.follow sys (.delivering descriptor status) m' effects).map fun next =>
                    (next.1, read :: next.2)
      | _, _ => none
  | .destroy =>
      match s.handle, s.drain with
      | some m, .outside =>
          if m.frames.isEmpty then
            let runtime := rRuntimeClientDestroy sys s.runtime
            some (⟨runtime, none, .outside⟩, systemEvents s.runtime.os runtime.os)
          else none
      | _, _ => none

end Steps

/-- The process before the runtime does anything. -/
def RuntimeMachine.start (env : σ) : RuntimeMachine σ where
  runtime := ⟨⟨env, 0, []⟩, []⟩
  handle := none
  drain := .outside

/-! ### One step, taken apart -/

variable {sys : RuntimeSystem σ} {gcm : Gcm} {s s' : RuntimeMachine σ}
  {outputs : List RuntimeOutput}

/-- What the runtime does behind a step of the client. -/
theorem follow_cases {drain : Drain} {m : Machine} {effects : List Effect}
    (h : s.follow sys drain m effects = some (s', outputs)) :
    ∃ r done, Run.exec (perform sys) s.runtime effects = some (r, done) ∧
      ((s' = ⟨r, some m, drain⟩ ∧ outputs = done ∧
          ∀ d status, drain = .delivering d status → m.frames ≠ []) ∨
        ∃ d status, drain = .delivering d status ∧ m.frames = [] ∧
          outputs = done ++ (afterDatagram sys r d status).2 ∧
          s' = ⟨r, some m, (afterDatagram sys r d status).1⟩) := by
  unfold RuntimeMachine.follow at h
  split at h
  · cases h
  rename_i r done hexec
  refine ⟨r, done, hexec, ?_⟩
  split at h
  · rename_i d status
    split at h
    · rename_i hframes
      obtain ⟨rfl, rfl⟩ := Prod.mk.inj (Option.some.inj h)
      exact .inr ⟨d, status, rfl, List.isEmpty_iff.mp hframes, rfl, rfl⟩
    · rename_i hframes
      obtain ⟨rfl, rfl⟩ := Prod.mk.inj (Option.some.inj h)
      exact .inl ⟨rfl, rfl, fun _ _ _ hnil => hframes (by rw [hnil]; rfl)⟩
  · rename_i hother
    obtain ⟨rfl, rfl⟩ := Prod.mk.inj (Option.some.inj h)
    exact .inl ⟨rfl, rfl, fun d status heq => absurd heq (hother d status)⟩

/-- What a step does. -/
inductive RuntimeMachine.Moves (sys : RuntimeSystem σ) (gcm : Gcm) (s : RuntimeMachine σ) :
    RuntimeInput → RuntimeMachine σ → List RuntimeOutput → Prop
  | init (alloc : DecodeAlloc) (options : RRuntimeOptions) (refresh : RefreshIo)
      (assigned : RFamily → UInt16) (hhandle : s.handle = none) {status : RClientError}
      {r : RRuntimeClient σ} {handle : Option Machine}
      (hinit : rRuntimeClientInit sys alloc options refresh assigned s.runtime.os =
        (status, r, handle)) :
      Moves sys gcm s (.init alloc options refresh assigned) ⟨r, handle, .outside⟩
        (systemEvents s.runtime.os r.os ++ [.initialised status])
  | host (call : Call) {m m' : Machine} {effects : List Effect} (hhandle : s.handle = some m)
      (hdrain : ∀ d, s.drain ≠ .receiving d)
      (hclient : RlClient.step gcm m call = some (m', effects)) {s' : RuntimeMachine σ}
      {outputs : List RuntimeOutput}
      (hfollow : s.follow sys s.drain m' effects = some (s', outputs)) :
      Moves sys gcm s (.host call) s' outputs
  | readable (d : Nat) {m : Machine} (hhandle : s.handle = some m) (hframes : m.frames = [])
      (hcurrent : socketIsCurrent sys s.runtime d = true) :
      Moves sys gcm s (.readable d) { s with drain := .receiving d } []
  | interrupted {d : Nat} (hdrain : s.drain = .receiving d) :
      Moves sys gcm s (.received .interrupted) s [.recvfrom d (s.runtime.os.lookup sys d)]
  | ended (received : Received) {d : Nat} (hdrain : s.drain = .receiving d) {m : Machine}
      (hhandle : s.handle = some m) {status : RClientError}
      (hstatus : ¬ (status = .errProtocol ∨ status = .errAuth)) :
      Moves sys gcm s (.received received) { s with drain := .outside }
        [.recvfrom d (s.runtime.os.lookup sys d), .drained status]
  | datagram (buf : Bytes) (sender : RAddr) (io : DatagramIo) {d : Nat}
      (hdrain : s.drain = .receiving d) {m m' : Machine} {effects : List Effect}
      (hhandle : s.handle = some m)
      (hclient : RlClient.step gcm m (.datagram buf sender io) = some (m', effects))
      {s' : RuntimeMachine σ} {outputs : List RuntimeOutput}
      (hfollow : s.follow sys (.delivering d (rClientOnDatagram gcm m.client buf sender io).status)
        m' effects = some (s', outputs)) :
      Moves sys gcm s (.received (.datagram buf sender io)) s'
        (.recvfrom d (s.runtime.os.lookup sys d) :: outputs)
  | destroy {m : Machine} (hhandle : s.handle = some m) :
      Moves sys gcm s .destroy ⟨rRuntimeClientDestroy sys s.runtime, none, .outside⟩
        (systemEvents s.runtime.os (rRuntimeClientDestroy sys s.runtime).os)

theorem RuntimeMachine.moves_of_step {input : RuntimeInput}
    (h : s.step sys gcm input = some (s', outputs)) : s.Moves sys gcm input s' outputs := by
  unfold RuntimeMachine.step at h
  split at h
  · -- init
    split at h
    · cases h
    · rename_i hhandle
      obtain ⟨rfl, rfl⟩ := Prod.mk.inj (Option.some.inj h)
      exact .init _ _ _ _ hhandle rfl
  · cases h
  · -- host
    split at h
    · cases h
    · cases h
    · rename_i hhandle hdrain
      split at h
      · cases h
      · rename_i hclient
        exact .host _ hhandle hdrain hclient h
  · -- readable
    split at h
    · rename_i hhandle _
      split at h
      · rename_i henabled
        obtain ⟨hframes, hcurrent⟩ := Bool.and_eq_true_iff.mp henabled
        obtain ⟨rfl, rfl⟩ := Prod.mk.inj (Option.some.inj h)
        exact .readable _ hhandle (List.isEmpty_iff.mp hframes) hcurrent
      · cases h
    · cases h
  · -- received
    split at h
    · rename_i hhandle hdrain
      simp only at h
      split at h
      · obtain ⟨rfl, rfl⟩ := Prod.mk.inj (Option.some.inj h)
        exact .interrupted hdrain
      · obtain ⟨rfl, rfl⟩ := Prod.mk.inj (Option.some.inj h)
        exact .ended _ hdrain hhandle (by simp)
      · obtain ⟨rfl, rfl⟩ := Prod.mk.inj (Option.some.inj h)
        exact .ended _ hdrain hhandle (by simp)
      · split at h
        · cases h
        · rename_i hclient
          obtain ⟨⟨s₁, followed⟩, hfollow, hnext⟩ := Option.map_eq_some_iff.mp h
          obtain ⟨rfl, rfl⟩ := Prod.mk.inj hnext
          exact .datagram _ _ _ hdrain hhandle hclient hfollow
    · cases h
  · -- destroy
    split at h
    · rename_i hhandle _
      split at h
      · obtain ⟨rfl, rfl⟩ := Prod.mk.inj (Option.some.inj h)
        exact .destroy hhandle
      · cases h
    · cases h

end RlClient
