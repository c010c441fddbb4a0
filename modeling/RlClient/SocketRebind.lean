import Mathlib.Data.List.Perm.Basic
import Mathlib.Data.List.Forall2
import RlClient.PortScan

/-!
# Rebinding the runtime's sockets

The runtime answers the steering hook by binding a new socket for each one it has and
closing the old ones when it has all of them. Every system call may fail, in any pattern:
`answer` decides, with a memory of its own. Sockets are named by a number that is never
used again, and what the runtime does is kept as a trace of events, so that leaks, double
closes and the ports that were tried can be read off it.
-/

namespace RlClient

/-! ### The model -/

/-- The families `runtime_socket_family_and_port` tells apart. -/
inductive RFamily where
  | inet
  | inet6
  | other
  deriving Repr, DecidableEq

/-- A socket: its name, and the family and port it is bound to. -/
structure RSocket where
  id : Nat
  family : RFamily
  port : UInt16
  deriving Repr, DecidableEq

/-- The system calls on sockets; `socket` is given the name its socket gets. -/
inductive SysCall where
  | socket (family : RFamily) (id : Nat)
  | setNonblocking (id : Nat)
  | setV6Only (id : Nat)
  | bind (id : Nat) (family : RFamily) (port : UInt16)
  | getsockname (id : Nat)
  | close (id : Nat)
  deriving Repr, DecidableEq

/-- What the runtime does: a call of `runtime_try_steering_port`, a system call with its
    error, if any, or a line of the log. -/
inductive RuntimeEvent where
  | trying (family : RFamily) (port : UInt16)
  | called (call : SysCall) (error : Option Int)
  | warned (message : String)
  deriving Repr, DecidableEq

/-- The system below the runtime. -/
structure Os (σ : Type) where
  env : σ
  nextId : Nat
  trace : List RuntimeEvent

/-- `r_runtime_client_t`, as far as its sockets go. -/
structure RRuntimeClient (σ : Type) where
  os : Os σ
  sockets : List RSocket

def R_EADDRINUSE : Int := 98

variable {σ : Type}

def Os.note (os : Os σ) (event : RuntimeEvent) : Os σ :=
  { os with trace := os.trace ++ [event] }

section Calls

variable (answer : σ → SysCall → Option Int × σ)

/-- One system call; the error is `errno`. -/
def Os.call (os : Os σ) (call : SysCall) : Option Int × Os σ :=
  ((answer os.env call).1,
    { os with
      env := (answer os.env call).2
      trace := os.trace ++ [.called call (answer os.env call).1] })

/-- `open_udp_socket`: the socket, or the error that stands in `out_error`. -/
def openUdpSocket (family : RFamily) (port : UInt16) (os : Os σ) :
    Except Int RSocket × Os σ :=
  let id := os.nextId
  match os.call answer (.socket family id) with
  | (some error, os) => (.error error, os)
  | (none, os) =>
      let os := { os with nextId := id + 1 }
      match os.call answer (.setNonblocking id) with
      | (some error, os) => (.error error, (os.call answer (.close id)).2)
      | (none, os) =>
          -- the result of the `IPV6_V6ONLY` option is not looked at
          let os := if family = .inet then os else (os.call answer (.setV6Only id)).2
          match os.call answer (.bind id family port) with
          | (some error, os) => (.error error, (os.call answer (.close id)).2)
          | (none, os) => (.ok ⟨id, family, port⟩, os)

/-- `socket_error_is_address_in_use`. -/
def socketErrorIsAddressInUse (error : Int) : Bool := error == R_EADDRINUSE

/-- `runtime_try_steering_port`; the second part of the state is the socket of the
    `runtime_steering_bind_t`. -/
def runtimeTrySteeringPort (family : RFamily) (binding : Os σ × Option RSocket) (port : UInt16) :
    RSteeringBindResult × (Os σ × Option RSocket) :=
  match openUdpSocket answer family port (binding.1.note (.trying family port)) with
  | (.ok socket, os) => (.ok, os, some socket)
  | (.error error, os) =>
      (if socketErrorIsAddressInUse error then .occupied else .error, os, none)

/-- `runtime_socket_family_and_port`; `getsockname` reports what the socket is bound to. -/
def runtimeSocketFamilyAndPort (socket : RSocket) (os : Os σ) :
    Option (RFamily × UInt16) × Os σ :=
  match os.call answer (.getsockname socket.id) with
  | (some _, os) => (none, os)
  | (none, os) =>
      match socket.family with
      | .inet => (some (.inet, socket.port), os)
      | .inet6 => (some (.inet6, socket.port), os)
      | .other => (none, os)

/-- The first loop of `runtime_on_steering_feedback`: whether it reached its end, and the
    replacements bound by then. -/
def acquireReplacements : List RSocket → List RSocket → Os σ → Bool × List RSocket × Os σ
  | [], replacements, os => (true, replacements, os)
  | socket :: sockets, replacements, os =>
      match runtimeSocketFamilyAndPort answer socket os with
      | (none, os) => (false, replacements, os)
      | (some (family, currentPort), os) =>
          match rClientSelectSteeringPort (rClientNextSteeringPort currentPort)
              (runtimeTrySteeringPort answer family) (os, none) ⟨0, 0⟩ with
          -- a scan that succeeds has left its socket in the binding
          | (.ok, _, os, some replacement) =>
              acquireReplacements sockets (replacements ++ [replacement]) os
          | (_, _, os, _) => (false, replacements, os)

def closeSockets (sockets : List RSocket) (os : Os σ) : Os σ :=
  sockets.foldl (fun os socket => (os.call answer (.close socket.id)).2) os

/-- `runtime_on_steering_feedback`. -/
def runtimeOnSteeringFeedback (keepPort : Bool) (runtime : RRuntimeClient σ) : RRuntimeClient σ :=
  if keepPort || runtime.sockets.isEmpty then runtime
  else
    match acquireReplacements answer runtime.sockets [] runtime.os with
    | (true, replacements, os) =>
        { os := closeSockets answer runtime.sockets os, sockets := replacements }
    | (false, replacements, os) =>
        { runtime with
          os := (closeSockets answer replacements os).note
            (.warned "source-port steering could not acquire replacement sockets") }

end Calls

/-! ### Accounting -/

def RuntimeEvent.opens : RuntimeEvent → Option Nat
  | .called (.socket _ id) none => some id
  | _ => none

def RuntimeEvent.closes : RuntimeEvent → Option Nat
  | .called (.close id) _ => some id
  | _ => none

def opened (events : List RuntimeEvent) : List Nat := events.filterMap RuntimeEvent.opens

def closed (events : List RuntimeEvent) : List Nat := events.filterMap RuntimeEvent.closes

@[simp] theorem opened_append (a b : List RuntimeEvent) : opened (a ++ b) = opened a ++ opened b :=
  List.filterMap_append

@[simp] theorem closed_append (a b : List RuntimeEvent) : closed (a ++ b) = closed a ++ closed b :=
  List.filterMap_append

/-- `os'` is `os` after `events`, and names have been given out one by one. -/
structure Grows (os os' : Os σ) (events : List RuntimeEvent) : Prop where
  trace : os'.trace = os.trace ++ events
  names : ∃ k, os'.nextId = os.nextId + k ∧ opened events = List.range' os.nextId k

theorem Grows.refl (os : Os σ) : Grows os os [] :=
  ⟨(List.append_nil _).symm, 0, rfl, rfl⟩

theorem Grows.trans {os os' os'' : Os σ} {a b : List RuntimeEvent} (h : Grows os os' a)
    (h' : Grows os' os'' b) : Grows os os'' (a ++ b) := by
  obtain ⟨htrace, k, hnext, hopened⟩ := h
  obtain ⟨htrace', k', hnext', hopened'⟩ := h'
  refine ⟨by rw [htrace', htrace, List.append_assoc], k + k', by omega, ?_⟩
  rw [opened_append, hopened, hopened', hnext, List.range'_append_1]

theorem Grows.note (os : Os σ) (event : RuntimeEvent) (h : event.opens = none) :
    Grows os (os.note event) [event] := by
  refine ⟨rfl, 0, rfl, ?_⟩
  rw [opened, List.filterMap_cons_none h]
  rfl

section Bookkeeping

variable {answer : σ → SysCall → Option Int × σ}

theorem Grows.call {os os' : Os σ} {call : SysCall} {error : Option Int}
    (h : os.call answer call = (error, os'))
    (hopens : (RuntimeEvent.called call error).opens = none) :
    Grows os os' [.called call error] := by
  obtain ⟨rfl, rfl⟩ := Prod.mk.inj h
  refine ⟨rfl, 0, rfl, ?_⟩
  rw [opened, List.filterMap_cons_none hopens]
  rfl

theorem Grows.socket {os os' : Os σ} {family : RFamily}
    (h : os.call answer (.socket family os.nextId) = (none, os')) :
    Grows os { os' with nextId := os.nextId + 1 } [.called (.socket family os.nextId) none] := by
  obtain ⟨herror, rfl⟩ := Prod.mk.inj h
  refine ⟨?_, 1, rfl, rfl⟩
  rw [← herror]

/-- Either everything `open_udp_socket` made is closed again, or the one socket it made is
    bound. -/
theorem openUdpSocket_cases {os os' : Os σ} {family : RFamily} {port : UInt16}
    {result : Except Int RSocket} (h : openUdpSocket answer family port os = (result, os')) :
    ∃ events, Grows os os' events ∧
      ((∃ error, result = .error error ∧ opened events = closed events) ∨
        (result = .ok ⟨os.nextId, family, port⟩ ∧ opened events = [os.nextId] ∧
          closed events = [] ∧ .called (.bind os.nextId family port) none ∈ events)) := by
  unfold openUdpSocket at h
  simp only at h
  rcases hsocket : os.call answer (.socket family os.nextId) with ⟨_ | error, os₁⟩
  swap
  · simp only [hsocket] at h
    obtain ⟨rfl, rfl⟩ := Prod.mk.inj h
    exact ⟨_, Grows.call hsocket rfl, Or.inl ⟨error, rfl, rfl⟩⟩
  have hmade := Grows.socket hsocket
  simp only [hsocket] at h
  rcases hblocking : Os.call answer { os₁ with nextId := os.nextId + 1 }
    (.setNonblocking os.nextId) with ⟨_ | error, os₂⟩
  swap
  · simp only [hblocking] at h
    obtain ⟨rfl, rfl⟩ := Prod.mk.inj h
    exact ⟨_, (hmade.trans (Grows.call hblocking rfl)).trans (Grows.call rfl rfl),
      Or.inl ⟨error, rfl, rfl⟩⟩
  simp only [hblocking] at h
  have hready := hmade.trans (Grows.call hblocking rfl)
  -- the option of the second family adds an event that neither makes nor closes a socket
  obtain ⟨option, os₃, hos₃, hoption, hopened, hclosed⟩ : ∃ option os₃,
      (if family = .inet then os₂ else (os₂.call answer (.setV6Only os.nextId)).2) = os₃ ∧
        Grows os₂ os₃ option ∧ opened option = [] ∧ closed option = [] := by
    by_cases hfamily : family = .inet
    · exact ⟨[], os₂, if_pos hfamily, Grows.refl os₂, rfl, rfl⟩
    · exact ⟨_, _, if_neg hfamily, Grows.call rfl rfl, rfl, rfl⟩
  rw [hos₃] at h
  have hbefore := hready.trans hoption
  rcases hbind : os₃.call answer (.bind os.nextId family port) with ⟨_ | error, os₄⟩
  · simp only [hbind] at h
    obtain ⟨rfl, rfl⟩ := Prod.mk.inj h
    refine ⟨_, hbefore.trans (Grows.call hbind rfl), Or.inr ⟨rfl, ?_, ?_, ?_⟩⟩
    · rw [opened_append, opened_append, hopened]
      rfl
    · rw [closed_append, closed_append, hclosed]
      rfl
    · exact List.mem_append_right _ (List.mem_singleton_self _)
  · simp only [hbind] at h
    obtain ⟨rfl, rfl⟩ := Prod.mk.inj h
    refine ⟨_, (hbefore.trans (Grows.call hbind rfl)).trans (Grows.call rfl rfl),
      Or.inl ⟨error, rfl, ?_⟩⟩
    rw [opened_append, opened_append, opened_append, closed_append, closed_append, closed_append,
      hopened, hclosed]
    rfl

theorem runtimeTrySteeringPort_cases (answer : σ → SysCall → Option Int × σ) (family : RFamily)
    (binding : Os σ × Option RSocket) (port : UInt16) :
    ∃ events, Grows binding.1 (runtimeTrySteeringPort answer family binding port).2.1 events ∧
      .trying family port ∈ events ∧
      (((runtimeTrySteeringPort answer family binding port).1 ≠ .ok ∧
          opened events = closed events) ∨
        ∃ id, (runtimeTrySteeringPort answer family binding port).1 = .ok ∧
          (runtimeTrySteeringPort answer family binding port).2.2 = some ⟨id, family, port⟩ ∧
          opened events = [id] ∧ closed events = [] ∧
          .called (.bind id family port) none ∈ events) := by
  have hnoted := Grows.note binding.1 (.trying family port) rfl
  rcases hopen : openUdpSocket answer family port (binding.1.note (.trying family port))
    with ⟨outcome, os⟩
  obtain ⟨events, hgrows, hcases⟩ := openUdpSocket_cases hopen
  unfold runtimeTrySteeringPort
  rw [hopen]
  have hboth := hnoted.trans hgrows
  refine ⟨_ ++ events, ?_, List.mem_append_left _ (List.mem_singleton_self _), ?_⟩
  · cases outcome with
    | error error => exact hboth
    | ok socket => exact hboth
  rcases hcases with ⟨error, rfl, hsame⟩ | ⟨rfl, hopened, hclosed, hbound⟩
  · refine Or.inl ⟨?_, hsame⟩
    simp only
    split <;> simp
  · exact Or.inr ⟨_, rfl, rfl, hopened, hclosed, List.mem_append_right _ hbound⟩

/-- What the tries before the last one of a scan made is closed again. -/
theorem skipped_tries {family : RFamily} {candidate : UInt16} {os : Os σ} {n : Nat}
    (hagain : ∀ j < n, Probe.answer (runtimeTrySteeringPort answer family) rClientNextSteeringPort j
      candidate (os, none) = .occupied) :
    ∃ events, Grows os (Probe.after (runtimeTrySteeringPort answer family) rClientNextSteeringPort
        n candidate (os, none)).1 events ∧
      opened events = closed events ∧
      ∀ j < n, .trying family (rClientNextSteeringPort^[j] candidate) ∈ events := by
  induction n with
  | zero => exact ⟨[], Grows.refl os, rfl, fun j hj => absurd hj (Nat.not_lt_zero j)⟩
  | succ n ih =>
    obtain ⟨before, hbefore, hbalanced, htried⟩ := ih fun j hj => hagain j (Nat.lt_succ_of_lt hj)
    have hlast := hagain n (Nat.lt_succ_self n)
    rw [Probe.answer] at hlast
    rw [Probe.after_succ]
    obtain ⟨events, hgrows, htrying, ⟨-, hsame⟩ | ⟨id, hok, -⟩⟩ :=
      runtimeTrySteeringPort_cases answer family _ (rClientNextSteeringPort^[n] candidate)
    · refine ⟨before ++ events, hbefore.trans hgrows, ?_, fun j hj => ?_⟩
      · rw [opened_append, closed_append, hbalanced, hsame]
      · rcases Nat.lt_succ_iff_lt_or_eq.mp hj with hlt | rfl
        · exact List.mem_append_left _ (htried j hlt)
        · exact List.mem_append_right _ htrying
    · rw [hlast] at hok
      cases hok

/-- A scan for one family: what the ports that were not taken made is closed again, and
    every port up to the one that was taken has been tried. -/
theorem steeringScan_cases {family : RFamily} {firstPort : UInt16} {os os' : Os σ}
    {out cells : PortCells} {status : RClientError} {binding : Option RSocket}
    (h : rClientSelectSteeringPort firstPort (runtimeTrySteeringPort answer family) (os, none) out =
      (status, cells, os', binding)) :
    ∃ events, Grows os os' events ∧
      ((status ≠ .ok ∧ opened events = closed events) ∨
        ∃ id n, status = .ok ∧
          binding = some ⟨id, family, rClientNextSteeringPort^[n] (firstCandidate firstPort)⟩ ∧
          opened events = closed events ++ [id] ∧
          .called (.bind id family (rClientNextSteeringPort^[n] (firstCandidate firstPort))) none
            ∈ events ∧
          ∀ j ≤ n, .trying family (rClientNextSteeringPort^[j] (firstCandidate firstPort))
            ∈ events) := by
  obtain ⟨n, -, hagain, -, hresult⟩ :=
    rClientSelectSteeringPort_cases firstPort (runtimeTrySteeringPort answer family) (os, none) out
  obtain ⟨before, hbefore, hbalanced, htried⟩ := skipped_tries hagain
  rw [h, Probe.after_succ, Probe.answer] at hresult
  obtain ⟨hstatus, -, hlast⟩ : status = _ ∧ cells = _ ∧ (os', binding) = _ := by
    simpa only [Prod.mk.injEq, and_assoc] using hresult
  obtain ⟨events, hgrows, htrying, hcases⟩ := runtimeTrySteeringPort_cases answer family
    (Probe.after (runtimeTrySteeringPort answer family) rClientNextSteeringPort n
      (firstCandidate firstPort) (os, none))
    (rClientNextSteeringPort^[n] (firstCandidate firstPort))
  rw [← hlast] at hgrows hcases
  refine ⟨before ++ events, hbefore.trans hgrows, ?_⟩
  rcases hcases with ⟨hresult, hsame⟩ | ⟨id, hok, hbinding, hopened, hclosed, hbound⟩
  · refine Or.inl ⟨?_, ?_⟩
    · rw [hstatus]
      exact scanOutcome_ne_ok hresult out
    · rw [opened_append, closed_append, hbalanced, hsame]
  · refine Or.inr ⟨id, n, ?_, hbinding, ?_, List.mem_append_right _ hbound, fun j hj => ?_⟩
    · rw [hstatus, hok]
      rfl
    · rw [opened_append, closed_append, hbalanced, hopened, hclosed, List.append_nil]
    · rcases Nat.lt_or_eq_of_le hj with hlt | rfl
      · exact List.mem_append_left _ (htried j hlt)
      · exact List.mem_append_right _ htrying

theorem runtimeSocketFamilyAndPort_cases {socket : RSocket} {os os' : Os σ}
    {reported : Option (RFamily × UInt16)}
    (h : runtimeSocketFamilyAndPort answer socket os = (reported, os')) :
    ∃ error, Grows os os' [.called (.getsockname socket.id) error] ∧
      (reported = none ∨ reported = some (socket.family, socket.port)) := by
  unfold runtimeSocketFamilyAndPort at h
  rcases hcall : os.call answer (.getsockname socket.id) with ⟨_ | error, os₁⟩
  · simp only [hcall] at h
    have hgrows := Grows.call hcall rfl
    cases hfamily : socket.family <;> simp only [hfamily] at h <;>
      obtain ⟨rfl, rfl⟩ := Prod.mk.inj h
    · exact ⟨_, hgrows, Or.inr rfl⟩
    · exact ⟨_, hgrows, Or.inr rfl⟩
    · exact ⟨_, hgrows, Or.inl rfl⟩
  · simp only [hcall] at h
    obtain ⟨rfl, rfl⟩ := Prod.mk.inj h
    exact ⟨_, Grows.call hcall rfl, Or.inl rfl⟩

/-- The sockets are closed one after the other and nothing else happens. -/
theorem closeSockets_grows (answer : σ → SysCall → Option Int × σ) (sockets : List RSocket)
    (os : Os σ) :
    ∃ events, Grows os (closeSockets answer sockets os) events ∧ opened events = [] ∧
      closed events = sockets.map RSocket.id := by
  induction sockets generalizing os with
  | nil => exact ⟨[], Grows.refl os, rfl, rfl⟩
  | cons socket sockets ih =>
    obtain ⟨events, hgrows, hopened, hclosed⟩ := ih (os.call answer (.close socket.id)).2
    have hfirst : Grows os (os.call answer (.close socket.id)).2 _ := Grows.call rfl rfl
    refine ⟨_, hfirst.trans hgrows, ?_, ?_⟩
    · rw [opened_append, hopened]
      rfl
    · rw [closed_append, hclosed]
      rfl

/-! ### The replacements -/

/-- `new` was bound in the place of `old`: it has the family of `old`, and all ports from
    the successor of `old`'s on have been tried, up to its own. -/
structure Replaces (events : List RuntimeEvent) (old new : RSocket) : Prop where
  family : new.family = old.family
  bound : .called (.bind new.id new.family new.port) none ∈ events
  walked : ∃ n, new.port = rClientNextSteeringPort^[n + 1] old.port ∧
    ∀ j ≤ n, .trying old.family (rClientNextSteeringPort^[j + 1] old.port) ∈ events

theorem Replaces.mono {a b : List RuntimeEvent} {old new : RSocket} (h : Replaces a old new)
    (hsub : a ⊆ b) : Replaces b old new := by
  obtain ⟨n, hport, htried⟩ := h.walked
  exact ⟨h.family, hsub h.bound, n, hport, fun j hj => hsub (htried j hj)⟩

/-- What the first loop makes is either among the replacements or closed again. -/
theorem acquireReplacements_cases {sockets replacements all : List RSocket} {os os' : Os σ}
    {completed : Bool}
    (h : acquireReplacements answer sockets replacements os = (completed, all, os')) :
    ∃ events new, all = replacements ++ new ∧ Grows os os' events ∧
      (opened events).Perm (new.map RSocket.id ++ closed events) ∧
      (completed = true → List.Forall₂ (Replaces events) sockets new) := by
  induction sockets generalizing replacements os with
  | nil =>
    obtain ⟨rfl, hrest⟩ := Prod.mk.inj h
    obtain ⟨rfl, rfl⟩ := Prod.mk.inj hrest
    exact ⟨[], [], (List.append_nil _).symm, Grows.refl os, List.Perm.refl _, fun _ => .nil⟩
  | cons socket sockets ih =>
    unfold acquireReplacements at h
    rcases hname : runtimeSocketFamilyAndPort answer socket os with ⟨reported, os₁⟩
    obtain ⟨error, hnamed, hreported⟩ := runtimeSocketFamilyAndPort_cases hname
    rw [hname] at h
    rcases hreported with rfl | rfl
    · obtain ⟨rfl, hrest⟩ := Prod.mk.inj h
      obtain ⟨rfl, rfl⟩ := Prod.mk.inj hrest
      exact ⟨_, [], (List.append_nil _).symm, hnamed, List.Perm.refl _, fun hc => nomatch hc⟩
    · simp only at h
      rcases hscan : rClientSelectSteeringPort (rClientNextSteeringPort socket.port)
        (runtimeTrySteeringPort answer socket.family) (os₁, none) ⟨0, 0⟩
        with ⟨status, cells, os₂, binding⟩
      obtain ⟨events, hgrows, hcases⟩ := steeringScan_cases hscan
      rw [hscan] at h
      rw [firstCandidate_of_dynamic (dynamic_rClientNextSteeringPort socket.port)] at hcases
      rcases hcases with ⟨hfailed, hsame⟩ | ⟨id, n, rfl, rfl, hopened, hbound, htried⟩
      · -- the scan found no port: the loop is left
        have hleft : (false, replacements, os₂) = (completed, all, os') := by
          cases status <;> first | exact absurd rfl hfailed | exact h
        obtain ⟨rfl, hrest⟩ := Prod.mk.inj hleft
        obtain ⟨rfl, rfl⟩ := Prod.mk.inj hrest
        refine ⟨_, [], (List.append_nil _).symm, hnamed.trans hgrows, ?_, fun hc => nomatch hc⟩
        rw [opened_append, closed_append, hsame]
        exact List.Perm.refl _
      · obtain ⟨events', new, hall, hgrows', hperm, hreplaced⟩ := ih h
        refine ⟨_, ⟨id, socket.family, rClientNextSteeringPort^[n + 1] socket.port⟩ :: new, ?_,
          (hnamed.trans hgrows).trans hgrows', ?_, fun hc => ?_⟩
        · rw [hall, List.append_assoc]
          rfl
        · -- the new socket is moved to the front, past the sockets that were closed
          rw [opened_append, opened_append, closed_append, closed_append, hopened]
          change ((closed events ++ [id]) ++ opened events').Perm
            (id :: new.map RSocket.id ++ (closed events ++ closed events'))
          refine (List.Perm.append_left _ hperm).trans ?_
          rw [List.append_assoc, List.singleton_append, List.cons_append]
          refine List.perm_middle.trans (List.Perm.cons id ?_)
          rw [← List.append_assoc, ← List.append_assoc]
          exact List.Perm.append_right _ List.perm_append_comm
        · refine List.Forall₂.cons ?_ ((hreplaced hc).imp fun _ _ hr =>
            hr.mono (List.subset_append_right _ _))
          refine Replaces.mono (a := events) ⟨rfl, hbound, n, rfl, htried⟩ ?_
          exact List.Subset.trans (List.subset_append_right _ _) (List.subset_append_left _ _)

/-! ### One rebind -/

/-- All sockets are replaced: the new ones are bound before the old ones are closed. -/
def SocketsReplaced (old new : List RSocket) (events : List RuntimeEvent) : Prop :=
  ∃ binding closing, events = binding ++ closing ∧ List.Forall₂ (Replaces binding) old new ∧
    (opened binding).Perm (new.map RSocket.id ++ closed binding) ∧
    opened closing = [] ∧ closed closing = old.map RSocket.id

/-- No socket is replaced: whatever was made is closed again. -/
def SocketsKept (old new : List RSocket) (events : List RuntimeEvent) : Prop :=
  new = old ∧ (opened events).Perm (closed events)

theorem runtimeOnSteeringFeedback_cases (answer : σ → SysCall → Option Int × σ)
    (runtime : RRuntimeClient σ) :
    ∃ events, Grows runtime.os (runtimeOnSteeringFeedback answer false runtime).os events ∧
      (SocketsReplaced runtime.sockets (runtimeOnSteeringFeedback answer false runtime).sockets
          events ∨
        SocketsKept runtime.sockets (runtimeOnSteeringFeedback answer false runtime).sockets
          events) := by
  unfold runtimeOnSteeringFeedback
  by_cases hempty : (false || runtime.sockets.isEmpty) = true
  · rw [if_pos hempty]
    exact ⟨[], Grows.refl _, Or.inr ⟨rfl, List.Perm.refl _⟩⟩
  rw [if_neg hempty]
  rcases hacquire : acquireReplacements answer runtime.sockets [] runtime.os
    with ⟨completed, all, os⟩
  obtain ⟨binding, new, hall, hgrows, hperm, hreplaced⟩ := acquireReplacements_cases hacquire
  rw [List.nil_append] at hall
  subst hall
  cases completed with
  | true =>
    obtain ⟨closing, hclose, hopened, hclosed⟩ := closeSockets_grows answer runtime.sockets os
    exact ⟨_, hgrows.trans hclose,
      Or.inl ⟨binding, closing, rfl, hreplaced rfl, hperm, hopened, hclosed⟩⟩
  | false =>
    obtain ⟨closing, hclose, hopened, hclosed⟩ := closeSockets_grows answer all os
    refine ⟨_, (hgrows.trans hclose).trans (Grows.note _ _ rfl), Or.inr ⟨rfl, ?_⟩⟩
    rw [opened_append, opened_append, closed_append, closed_append, hopened, hclosed]
    refine List.Perm.append_right _ ?_
    rw [List.append_nil]
    exact hperm.trans List.perm_append_comm

end Bookkeeping

/-- The sockets of the runtime are different ones, and no new socket will be one of them. -/
structure RRuntimeClient.Held (runtime : RRuntimeClient σ) : Prop where
  distinct : (runtime.sockets.map RSocket.id).Nodup
  used : ∀ socket ∈ runtime.sockets, socket.id < runtime.os.nextId

/-- A rebind as a whole. What was held before or made by it is, without repetition, what is
    held afterwards or was closed by it; and it replaced all sockets, after binding all the
    new ones, or none. -/
structure RebindAtomic (runtime runtime' : RRuntimeClient σ) (events : List RuntimeEvent) :
    Prop where
  trace : runtime'.os.trace = runtime.os.trace ++ events
  once : (runtime'.sockets.map RSocket.id ++ closed events).Nodup
  conserved : (runtime.sockets.map RSocket.id ++ opened events).Perm
    (runtime'.sockets.map RSocket.id ++ closed events)
  outcome :
    (∃ binding closing, events = binding ++ closing ∧
      List.Forall₂ (fun old new => new.family = old.family ∧ new.id ∈ opened binding ∧
        .called (.bind new.id new.family new.port) none ∈ binding)
        runtime.sockets runtime'.sockets ∧
      (∀ socket ∈ runtime.sockets, socket.id ∉ closed binding) ∧
      closed closing = runtime.sockets.map RSocket.id) ∨
    (runtime'.sockets = runtime.sockets ∧ ∀ socket ∈ runtime.sockets, socket.id ∉ closed events)
  held : runtime'.Held

/-- A name given out is not one that was used before. -/
theorem Grows.le_of_mem_opened {os os' : Os σ} {events : List RuntimeEvent}
    (h : Grows os os' events) {id : Nat} (hid : id ∈ opened events) :
    os.nextId ≤ id ∧ id < os'.nextId := by
  obtain ⟨k, hnext, hopened⟩ := h.names
  rw [hopened, List.mem_range'_1] at hid
  omega

theorem Grows.nextId_le {os os' : Os σ} {events : List RuntimeEvent} (h : Grows os os' events) :
    os.nextId ≤ os'.nextId := by
  obtain ⟨k, hnext, -⟩ := h.names
  omega

theorem RRuntimeClient.Held.nodup {runtime : RRuntimeClient σ} (h : runtime.Held) {os' : Os σ}
    {events : List RuntimeEvent} (hgrows : Grows runtime.os os' events) :
    (runtime.sockets.map RSocket.id ++ opened events).Nodup := by
  refine List.Nodup.append h.distinct ?_ ?_
  · obtain ⟨k, -, hopened⟩ := hgrows.names
    rw [hopened]
    exact List.nodup_range'
  · intro id hold hnew
    obtain ⟨socket, hsocket, rfl⟩ := List.mem_map.mp hold
    exact absurd (h.used socket hsocket) (Nat.not_lt.mpr (hgrows.le_of_mem_opened hnew).1)

theorem rebindAtomic (answer : σ → SysCall → Option Int × σ) {runtime : RRuntimeClient σ}
    (h : runtime.Held) :
    ∃ events, RebindAtomic runtime (runtimeOnSteeringFeedback answer false runtime) events := by
  obtain ⟨events, hgrows, hcases⟩ := runtimeOnSteeringFeedback_cases answer runtime
  have hnodup := h.nodup hgrows
  generalize runtimeOnSteeringFeedback answer false runtime = runtime' at hgrows hcases ⊢
  -- no old socket is closed by a list of events that closes only what it opened
  have hnotClosed : ∀ part, opened part ⊆ opened events → closed part ⊆ opened part →
      ∀ socket ∈ runtime.sockets, socket.id ∉ closed part := by
    intro part hpart hclosed socket hsocket hmem
    have hle := (hgrows.le_of_mem_opened (hpart (hclosed hmem))).1
    exact absurd (h.used socket hsocket) (Nat.not_lt.mpr hle)
  have hconserved : (runtime.sockets.map RSocket.id ++ opened events).Perm
      (runtime'.sockets.map RSocket.id ++ closed events) := by
    rcases hcases with ⟨binding, closing, rfl, -, hperm, hopened, hclosed⟩ | ⟨hkept, hperm⟩
    · rw [opened_append, closed_append, hopened, hclosed, List.append_nil, ← List.append_assoc]
      exact List.perm_append_comm.trans (List.Perm.append_right _ hperm)
    · rw [hkept]
      exact List.Perm.append_left _ hperm
  have honce := hconserved.nodup_iff.mp hnodup
  refine ⟨events, hgrows.trace, honce, hconserved, ?_, ?_⟩
  · rcases hcases with ⟨binding, closing, rfl, hreplaced, hperm, hopened, hclosed⟩ | ⟨hkept, hperm⟩
    · refine Or.inl ⟨binding, closing, rfl, ?_, ?_, hclosed⟩
      · obtain ⟨hlength, hzip⟩ := List.forall₂_iff_zip.mp hreplaced
        refine List.forall₂_iff_zip.mpr ⟨hlength, fun hmem => ?_⟩
        have hr := hzip hmem
        refine ⟨hr.family, hperm.mem_iff.mpr (List.mem_append_left _ ?_), hr.bound⟩
        exact List.mem_map_of_mem (List.of_mem_zip hmem).2
      · refine hnotClosed binding ?_ fun id hid => hperm.mem_iff.mpr (List.mem_append_right _ hid)
        rw [opened_append]
        exact List.subset_append_left _ _
    · exact Or.inr ⟨hkept, hnotClosed events (List.Subset.refl _) fun id hid =>
        hperm.mem_iff.mpr hid⟩
  · refine ⟨(List.nodup_append.mp honce).1, fun socket hsocket => ?_⟩
    have hmem : socket.id ∈ runtime.sockets.map RSocket.id ++ opened events :=
      hconserved.mem_iff.mpr (List.mem_append_left _ (List.mem_map_of_mem hsocket))
    rcases List.mem_append.mp hmem with hold | hnew
    · obtain ⟨old, hold, hsame⟩ := List.mem_map.mp hold
      rw [← hsame]
      exact Nat.lt_of_lt_of_le (h.used old hold) hgrows.nextId_le
    · exact (hgrows.le_of_mem_opened hnew).2

/-! ### Rebind after rebind -/

/-- The runtime after `n` rebinds. -/
def rebinds (answer : σ → SysCall → Option Int × σ) (n : Nat) (runtime : RRuntimeClient σ) :
    RRuntimeClient σ :=
  (runtimeOnSteeringFeedback answer false)^[n] runtime

theorem rebinds_succ (answer : σ → SysCall → Option Int × σ) (n : Nat)
    (runtime : RRuntimeClient σ) :
    rebinds answer (n + 1) runtime =
      runtimeOnSteeringFeedback answer false (rebinds answer n runtime) :=
  Function.iterate_succ_apply' _ _ _

/-- From `old`'s port to `new`'s the ports have been tried, for a number of steps on the
    circle. -/
structure Walked (events : List RuntimeEvent) (distance : Nat) (old new : RSocket) : Prop where
  family : new.family = old.family
  port : new.port = rClientNextSteeringPort^[distance] old.port
  tried : ∀ j < distance, .trying old.family (rClientNextSteeringPort^[j + 1] old.port) ∈ events

theorem Walked.refl (events : List RuntimeEvent) (socket : RSocket) :
    Walked events 0 socket socket :=
  ⟨rfl, rfl, fun j hj => absurd hj (Nat.not_lt_zero j)⟩

theorem Walked.mono {a b : List RuntimeEvent} {d : Nat} {old new : RSocket}
    (h : Walked a d old new) (hsub : a ⊆ b) : Walked b d old new :=
  ⟨h.family, h.port, fun j hj => hsub (h.tried j hj)⟩

theorem Walked.trans {events : List RuntimeEvent} {d d' : Nat} {old mid new : RSocket}
    (h : Walked events d old mid) (h' : Walked events d' mid new) :
    Walked events (d + d') old new := by
  refine ⟨h'.family.trans h.family, ?_, fun j hj => ?_⟩
  · rw [h'.port, h.port, ← Function.iterate_add_apply, Nat.add_comm]
  · rcases Nat.lt_or_ge j d with hlt | hge
    · exact h.tried j hlt
    · have hlater := h'.tried (j - d) (by omega)
      rw [h.family, h.port, ← Function.iterate_add_apply] at hlater
      rwa [show j - d + 1 + d = j + 1 by omega] at hlater

theorem Replaces.walked_pos {events : List RuntimeEvent} {old new : RSocket}
    (h : Replaces events old new) : ∃ d, Walked events (d + 1) old new := by
  obtain ⟨n, hport, htried⟩ := h.walked
  exact ⟨n, h.family, hport, fun j hj => htried j (Nat.le_of_lt_succ hj)⟩

/-- A socket at the same place of two lists that are related element by element. -/
theorem forall₂_slot {R : RSocket → RSocket → Prop} {old new : List RSocket}
    (h : List.Forall₂ R old new) {i : Nat} {s t : RSocket} (hs : old[i]? = some s)
    (ht : new[i]? = some t) : R s t := by
  obtain ⟨hi, rfl⟩ := List.getElem?_eq_some_iff.mp hs
  obtain ⟨hi', rfl⟩ := List.getElem?_eq_some_iff.mp ht
  exact List.Forall₂.get h hi hi'

/-- One rebind moves each socket on, by at least one step if it is a new socket. -/
theorem rebind_walked (answer : σ → SysCall → Option Int × σ) (runtime : RRuntimeClient σ) :
    ∃ events, (runtimeOnSteeringFeedback answer false runtime).os.trace =
        runtime.os.trace ++ events ∧
      (runtimeOnSteeringFeedback answer false runtime).sockets.length = runtime.sockets.length ∧
      ∀ (i : Nat) s t, runtime.sockets[i]? = some s →
        (runtimeOnSteeringFeedback answer false runtime).sockets[i]? = some t →
        (s = t ∧ Walked events 0 s t) ∨ ∃ d, Walked events (d + 1) s t := by
  obtain ⟨events, hgrows, hcases⟩ := runtimeOnSteeringFeedback_cases answer runtime
  refine ⟨events, hgrows.trace, ?_, fun i s t hs ht => ?_⟩
  · rcases hcases with ⟨binding, closing, -, hreplaced, -⟩ | ⟨hkept, -⟩
    · exact hreplaced.length_eq.symm
    · rw [hkept]
  · rcases hcases with ⟨binding, closing, rfl, hreplaced, -⟩ | ⟨hkept, -⟩
    · obtain ⟨d, hwalked⟩ := (forall₂_slot hreplaced hs ht).walked_pos
      exact Or.inr ⟨d, hwalked.mono (List.subset_append_left _ _)⟩
    · rw [hkept, hs] at ht
      obtain rfl := Option.some.inj ht
      exact Or.inl ⟨rfl, Walked.refl events s⟩

theorem rebinds_walked (answer : σ → SysCall → Option Int × σ) (n : Nat)
    (runtime : RRuntimeClient σ) :
    ∃ events, (rebinds answer n runtime).os.trace = runtime.os.trace ++ events ∧
      (rebinds answer n runtime).sockets.length = runtime.sockets.length ∧
      ∀ (i : Nat) s t, runtime.sockets[i]? = some s →
        (rebinds answer n runtime).sockets[i]? = some t → ∃ d, Walked events d s t := by
  induction n with
  | zero =>
    refine ⟨[], (List.append_nil _).symm, rfl, fun i s t hs ht => ?_⟩
    obtain rfl := Option.some.inj (hs.symm.trans ht)
    exact ⟨0, Walked.refl [] s⟩
  | succ n ih =>
    obtain ⟨before, htrace, hlength, hwalked⟩ := ih
    obtain ⟨events, htrace', hlength', hwalked'⟩ :=
      rebind_walked answer (rebinds answer n runtime)
    rw [rebinds_succ]
    refine ⟨before ++ events, ?_, hlength'.trans hlength, fun i s t hs ht => ?_⟩
    · rw [htrace', htrace, List.append_assoc]
    · obtain ⟨hi, -⟩ := List.getElem?_eq_some_iff.mp ht
      obtain ⟨d, hd⟩ := hwalked i s _ hs (List.getElem?_eq_getElem (hlength' ▸ hi))
      have hd := hd.mono (List.subset_append_left before events)
      rcases hwalked' i _ t (List.getElem?_eq_getElem (hlength' ▸ hi)) ht with
        ⟨hsame, -⟩ | ⟨d', hd'⟩
      · rw [← hsame]
        exact ⟨d, hd⟩
      · exact ⟨_, hd.trans (hd'.mono (List.subset_append_right _ _))⟩

/-- A walk of at least one step that comes back has passed every port. -/
theorem Walked.round {events : List RuntimeEvent} {d : Nat} {old new : RSocket}
    (h : Walked events (d + 1) old new) (hsame : new.port = old.port) (port : UInt16)
    (hport : Dynamic port) : .trying old.family port ∈ events := by
  have hdynamic : Dynamic old.port := by
    rw [← hsame, h.port, Function.iterate_succ_apply]
    exact dynamic_iterate_next (dynamic_rClientNextSteeringPort _) d
  -- the distance is a number of whole rounds, so at least one
  have hround : (d + 1) % 16384 = 0 := by
    have hback : rClientNextSteeringPort^[d + 1] old.port =
        rClientNextSteeringPort^[0] old.port := by
      rw [← h.port, hsame]
      rfl
    exact (iterate_next_eq_iff hdynamic _ _).mp hback
  obtain ⟨k, hk, rfl⟩ := exists_iterate_next (dynamic_rClientNextSteeringPort old.port) hport
  have htried := h.tried k (by omega)
  rwa [Function.iterate_succ_apply] at htried

theorem rebinds_held (answer : σ → SysCall → Option Int × σ) {runtime : RRuntimeClient σ}
    (h : runtime.Held) (n : Nat) : (rebinds answer n runtime).Held := by
  induction n with
  | zero => exact h
  | succ n ih =>
    rw [rebinds_succ]
    obtain ⟨events, hatomic⟩ := rebindAtomic answer ih
    exact hatomic.held

/-- **Rebinding.** For every runtime and every pattern of failing system calls, in a
    sequence of rebinds: each one is atomic and neither leaks a socket nor closes one twice;
    and a socket that is newly installed has the family of the one before it and a dynamic
    port, and if that is a port its place has had before, every other dynamic port has been
    tried for the family in between. -/
theorem socket_rebinds (answer : σ → SysCall → Option Int × σ) (runtime : RRuntimeClient σ)
    (hheld : runtime.Held) :
    (∀ n, ∃ events,
      RebindAtomic (rebinds answer n runtime) (rebinds answer (n + 1) runtime) events) ∧
    ∀ (n k i : Nat) s last new, (rebinds answer n runtime).sockets[i]? = some s →
      (rebinds answer (n + k) runtime).sockets[i]? = some last →
      (rebinds answer (n + k + 1) runtime).sockets[i]? = some new → last.id ≠ new.id →
      new.family = s.family ∧ 49152 ≤ new.port.toNat ∧
        ∃ events, (rebinds answer (n + k + 1) runtime).os.trace =
            (rebinds answer n runtime).os.trace ++ events ∧
          (new.port = s.port → ∀ port : UInt16, 49152 ≤ port.toNat → port ≠ s.port →
            .trying s.family port ∈ events) := by
  refine ⟨fun n => ?_, fun n k i s last new hs hlast hnew hinstalled => ?_⟩
  · rw [rebinds_succ]
    exact rebindAtomic answer (rebinds_held answer hheld n)
  · have hsplit : rebinds answer (n + k) runtime = rebinds answer k (rebinds answer n runtime) := by
      rw [Nat.add_comm]
      exact Function.iterate_add_apply _ _ _ _
    rw [rebinds_succ] at hnew ⊢
    rw [hsplit] at hlast hnew ⊢
    obtain ⟨before, htrace, -, hwalked⟩ := rebinds_walked answer k (rebinds answer n runtime)
    obtain ⟨events, htrace', -, hstep⟩ :=
      rebind_walked answer (rebinds answer k (rebinds answer n runtime))
    obtain ⟨d, hd⟩ := hwalked i s last hs hlast
    rcases hstep i last new hlast hnew with ⟨hsame, -⟩ | ⟨d', hd'⟩
    · exact absurd (congrArg RSocket.id hsame) hinstalled
    have hwhole : Walked (before ++ events) (d + d' + 1) s new :=
      (hd.mono (List.subset_append_left _ _)).trans (hd'.mono (List.subset_append_right _ _))
    refine ⟨hwhole.family, ?_, before ++ events, ?_, fun hsame port hport _ => ?_⟩
    · rw [hd'.port, Function.iterate_succ_apply]
      exact dynamic_iterate_next (dynamic_rClientNextSteeringPort _) d'
    · rw [htrace', htrace, List.append_assoc]
    · exact hwhole.round hsame port hport

/-- A runtime with a socket for each family, the second one at the last port. -/
def dualRuntime : RRuntimeClient Unit where
  os := { env := (), nextId := 2, trace := [] }
  sockets := [⟨0, .inet, 50000⟩, ⟨1, .inet6, 65535⟩]

def portTaken (env : Unit) (call : SysCall) : Option Int × Unit :=
  match call with
  | .bind _ _ 50001 => (some R_EADDRINUSE, env)
  | _ => (none, env)

/-- A taken port is skipped, and the last port is followed by the first one. -/
theorem socket_rebinds_dual :
    (rebinds portTaken 1 dualRuntime).sockets = [⟨3, .inet, 50002⟩, ⟨4, .inet6, 49152⟩] ∧
      closed (rebinds portTaken 1 dualRuntime).os.trace = [2, 0, 1] ∧
      ∃ events, RebindAtomic dualRuntime (rebinds portTaken 1 dualRuntime) events := by
  have hheld : dualRuntime.Held := ⟨by decide, by decide⟩
  exact ⟨by decide +kernel, by decide +kernel, (socket_rebinds portTaken dualRuntime hheld).1 0⟩

end RlClient
