import RlClient.AdmissionLifecycle
import RlClient.SocketCustody
import RlClient.Steering

/-!
# The sockets under a request in flight

A server answers to the port a request was sent from. A rebind takes the ports away, and it
is made inside the steps of the client, some of them in the callbacks of other requests. The
steps of the runtime are steps of a client from its creation on, so that what holds of the
runs of clients holds here: the steering hook is called only when nothing is in flight.
-/

namespace RlClient

variable {σ : Type} {sys : RuntimeSystem σ} {gcm : Gcm}

/-! ### What a step of the client leaves alone -/

/-- What is sent is sent through one of the sockets. -/
def SentThrough (sockets : List RSocket) (outputs : List RuntimeOutput) : Prop :=
  ∀ socket addr packet sent, .sendto socket addr packet sent ∈ outputs → socket ∈ sockets

theorem SentThrough.append {sockets : List RSocket} {a b : List RuntimeOutput}
    (ha : SentThrough sockets a) (hb : SentThrough sockets b) : SentThrough sockets (a ++ b) :=
  fun socket addr packet sent hmem => (List.mem_append.mp hmem).elim (ha socket addr packet sent)
    (hb socket addr packet sent)

/-- Nothing is sent where no socket is used. -/
theorem SentThrough.silent (sockets : List RSocket) {outputs : List RuntimeOutput}
    (h : outputs.filterMap RuntimeOutput.custody = []) : SentThrough sockets outputs := by
  intro socket addr packet sent hmem
  have hnone := List.filterMap_eq_nil_iff.mp h _ hmem
  cases hnone

theorem SentThrough.system (sockets : List RSocket) (os os' : Os σ) :
    SentThrough sockets (systemEvents os os') := by
  intro socket addr packet sent hmem
  obtain ⟨event, -, heq⟩ := List.mem_map.mp hmem
  cases heq

/-- A send leaves the sockets as they are and uses one of them. -/
theorem runtimeUdpSend_keeps (sys : RuntimeSystem σ) (r : RRuntimeClient σ) (addr : RAddr)
    (packet : Bytes) :
    (runtimeUdpSend sys r addr packet).2.1.sockets = r.sockets ∧
      SentThrough r.sockets (runtimeUdpSend sys r addr packet).2.2 := by
  unfold runtimeUdpSend
  split
  · exact ⟨rfl, .silent _ rfl⟩
  rcases hfind : findSocket sys addr.family r.sockets r.os with ⟨_ | found, os⟩
  · exact ⟨rfl, .system _ _ _⟩
  refine ⟨rfl, (SentThrough.append (.system _ _ _) fun socket _ _ _ hmem => ?_).append
    fun socket _ _ _ hmem => ?_⟩
  · obtain ⟨rfl, -⟩ := RuntimeOutput.sendto.inj (List.mem_replicate.mp hmem).2
    exact (findSocket_mem hfind).1
  · obtain ⟨rfl, -⟩ := RuntimeOutput.sendto.inj (List.mem_singleton.mp hmem)
    exact (findSocket_mem hfind).1

theorem perform_keeps {r r' : RRuntimeClient σ} {effect : Effect} {outputs : List RuntimeOutput}
    (h : perform sys r effect = some (r', outputs)) (hquiet : ∀ keep, effect ≠ .steering keep) :
    r'.sockets = r.sockets ∧ SentThrough r.sockets outputs := by
  unfold perform at h
  cases effect with
  | udpSend _ _ _ _ addr packet ok =>
    simp only at h
    split at h
    · obtain ⟨rfl, rfl⟩ := Prod.mk.inj (Option.some.inj h)
      obtain ⟨hkept, hsent⟩ := runtimeUdpSend_keeps sys r addr packet
      exact ⟨hkept, (show SentThrough r.sockets [_] from .silent _ rfl).append hsent⟩
    · cases h
  | steering keep => exact absurd rfl (hquiet keep)
  | _ =>
    obtain ⟨rfl, rfl⟩ := Prod.mk.inj (Option.some.inj h)
    exact ⟨rfl, .silent _ rfl⟩

theorem performed_keeps {r r' : RRuntimeClient σ} {effects : List Effect}
    {outputs : List RuntimeOutput}
    (h : Run.exec (perform sys) r effects = some (r', outputs))
    (hquiet : ∀ keep, Effect.steering keep ∉ effects) :
    r'.sockets = r.sockets ∧ SentThrough r.sockets outputs := by
  induction effects generalizing r outputs with
  | nil =>
    obtain ⟨rfl, rfl⟩ := Prod.mk.inj (Option.some.inj h)
    exact ⟨rfl, .silent _ rfl⟩
  | cons effect effects ih =>
    obtain ⟨r₁, first, rest, hperform, hexec, rfl⟩ := Run.exec_cons.mp h
    obtain ⟨hfirst, hsent⟩ := perform_keeps hperform fun keep heq =>
      hquiet keep (heq ▸ List.mem_cons_self)
    obtain ⟨hsockets, hsends⟩ :=
      ih hexec fun keep hmem => hquiet keep (List.mem_cons_of_mem _ hmem)
    rw [hfirst] at hsockets hsends
    exact ⟨hsockets, hsent.append hsends⟩

/-! ### The client inside the runtime -/

theorem afterDatagram_silent (r : RRuntimeClient σ) (d : Nat) (status : RClientError) :
    (afterDatagram sys r d status).2.filterMap RuntimeOutput.custody = [] := by
  unfold afterDatagram
  split
  · rfl
  · split
    · rfl
    · split <;> rfl

theorem follow_performed {s s' : RuntimeMachine σ} {drain : Drain} {m : Machine}
    {effects : List Effect} {outputs : List RuntimeOutput}
    (h : s.follow sys drain m effects = some (s', outputs)) :
    s'.handle = some m ∧ ∃ done more,
      Run.exec (perform sys) s.runtime effects = some (s'.runtime, done) ∧
      outputs = done ++ more ∧ more.filterMap RuntimeOutput.custody = [] := by
  obtain ⟨r, done, hexec, ⟨rfl, rfl, -⟩ | ⟨d, status, -, -, rfl, rfl⟩⟩ :=
    follow_cases h
  · exact ⟨rfl, outputs, [], hexec, (List.append_nil _).symm, rfl⟩
  · exact ⟨rfl, done, _, hexec, rfl, afterDatagram_silent r d status⟩

/-- What a step of the runtime other than its destruction does while there is a client: it
    makes a step of the client and follows it, or it leaves the client and the sockets. -/
theorem step_client {s s' : RuntimeMachine σ} {input : RuntimeInput}
    {outputs : List RuntimeOutput} {m : Machine} (hstep : s.step sys gcm input = some (s', outputs))
    (hhandle : s.handle = some m) (hinput : input ≠ .destroy) :
    (s'.handle = some m ∧ s'.runtime = s.runtime ∧ ∀ sockets, SentThrough sockets outputs) ∨
      ∃ m' call effects done, s'.handle = some m' ∧ step gcm m call = some (m', effects) ∧
        Run.exec (perform sys) s.runtime effects = some (s'.runtime, done) ∧
        ∀ sockets, SentThrough sockets done → SentThrough sockets outputs := by
  cases RuntimeMachine.moves_of_step hstep with
  | init _ _ _ _ hnone => exact nomatch hhandle.symm.trans hnone
  | host call hsome _ hclient hfollow =>
    obtain rfl := Option.some.inj (hhandle.symm.trans hsome)
    obtain ⟨hhandle', done, more, hexec, rfl, hmore⟩ := follow_performed hfollow
    exact .inr ⟨_, call, _, done, hhandle', hclient, hexec,
      fun sockets hdone => hdone.append (.silent _ hmore)⟩
  | readable => exact .inl ⟨hhandle, rfl, fun _ => .silent _ rfl⟩
  | interrupted => exact .inl ⟨hhandle, rfl, fun _ _ _ _ _ hmem => by simp at hmem⟩
  | ended => exact .inl ⟨hhandle, rfl, fun _ _ _ _ _ hmem => by simp at hmem⟩
  | datagram _ _ _ _ hsome hclient hfollow =>
    obtain rfl := Option.some.inj (hhandle.symm.trans hsome)
    obtain ⟨hhandle', done, more, hexec, rfl, hmore⟩ := follow_performed hfollow
    refine .inr ⟨_, _, _, done, hhandle', hclient, hexec, fun sockets hdone => ?_⟩
    intro socket addr packet sent hmem
    exact hdone.append (.silent _ hmore) socket addr packet sent
      ((List.mem_cons.mp hmem).resolve_left (by simp))
  | destroy => exact absurd rfl hinput

/-- The machine of the client is one that a run of a created client reaches. -/
def Reached (gcm : Gcm) (m : Machine) : Prop :=
  ∃ args c calls trace, rClientCreate args = .ok c ∧ run gcm c calls = some (m, trace)

theorem Reached.step {m m' : Machine} {call : Call} {effects : List Effect} (h : Reached gcm m)
    (hstep : step gcm m call = some (m', effects)) : Reached gcm m' := by
  obtain ⟨args, c, calls, trace, hcreate, hrun⟩ := h
  exact ⟨args, c, calls ++ [call], trace ++ effects, hcreate,
    Run.exec_snoc.mpr ⟨m, trace, effects, hrun, hstep, rfl⟩⟩

theorem rRuntimeClientInit_reached {alloc : DecodeAlloc} {options : RRuntimeOptions}
    {refresh : RefreshIo} {assigned : RFamily → UInt16} {os : Os σ} {m : Machine}
    (h : (rRuntimeClientInit sys alloc options refresh assigned os).2.2 = some m) :
    Reached gcm m := by
  unfold rRuntimeClientInit at h
  split at h
  · cases h
  · cases h
  · split at h
    · cases h
    · simp only at h
      split at h
      · cases h
      · split at h
        · cases h
        · rename_i client hcreate
          obtain rfl := Option.some.inj h
          exact ⟨_, client, [], [], hcreate, rfl⟩

/-- **The runtime drives a client.** The client of the runtime is in a state that a created
    client reaches by itself. -/
theorem handle_reached {env : σ} {inputs : List RuntimeInput} {s : RuntimeMachine σ}
    {outputs : List RuntimeOutput}
    (hrun : Run.exec (RuntimeMachine.step sys gcm) (.start env) inputs = some (s, outputs)) :
    ∀ m, s.handle = some m → Reached gcm m := by
  refine Run.exec_induction (P := fun _ s _ => ∀ m, s.handle = some m → Reached gcm m)
    (by simp [RuntimeMachine.start]) (fun _ s _ input s' outputs _ hbefore hstep m' hm' => ?_) hrun
  by_cases hinput : input = .destroy
  · subst hinput
    cases RuntimeMachine.moves_of_step hstep
    cases hm'
  cases hhandle : s.handle with
  | none =>
    -- without a client only an initialisation is possible
    cases RuntimeMachine.moves_of_step hstep with
    | init _ _ _ _ _ hinit => exact rRuntimeClientInit_reached (by rw [hinit]; exact hm')
    | interrupted => exact hbefore m' hm'
    | _ => simp_all
  | some m =>
    rcases step_client hstep hhandle hinput with
      ⟨hkept, -, -⟩ | ⟨m₁, call, effects, done, hnext, hclient, -, -⟩
    · obtain rfl := Option.some.inj (hkept.symm.trans hm')
      exact hbefore m hhandle
    · obtain rfl := Option.some.inj (hnext.symm.trans hm')
      exact (hbefore m hhandle).step hclient

/-! ### A request in flight keeps the sockets -/

def Born (m : Machine) (h : Handle) : Prop := m.view h ≠ .unborn

/-- A request that has left the list does not come back. -/
theorem born_step {m m' : Machine} {call : Call} {effects : List Effect} {h : Handle}
    (hreached : Reached gcm m) (hstep : step gcm m call = some (m', effects)) (hborn : Born m h) :
    Born m' h ∧ (m'.InFlight h → m.InFlight h) := by
  obtain ⟨args, c, calls, trace, hcreate, hrun⟩ := hreached
  have hwf := run_wf hcreate hrun
  obtain ⟨hwf', hlife⟩ := step_wf_life hwf hstep
  have hlife := hlife h
  have hlive : m.InFlight h ↔ ∃ req, m.view h = .live req := inflight_iff_live hwf
  have hlive' : m'.InFlight h ↔ ∃ req, m'.view h = .live req := inflight_iff_live hwf'
  rw [hlive, hlive']
  unfold Born at hborn ⊢
  generalize about h effects = own at hlife
  generalize m.view h = view at hlife hborn
  generalize m'.view h = view' at hlife
  cases hlife with
  | idle => exact ⟨hborn, id⟩
  | treated req call own view hreq =>
    refine ⟨?_, fun _ => ⟨req, rfl⟩⟩
    obtain ⟨trigger, sends, -, -, hshape⟩ := hreq.shape
    rcases hshape with ⟨req', rfl, -⟩ | ⟨req', status, result, rfl, -⟩ <;> simp
  | cancelled req => exact ⟨by simp, fun _ => ⟨req, rfl⟩⟩
  | returned req => exact ⟨by simp, by simp⟩
  | _ => exact absurd rfl hborn

theorem hook_idle {m m' : Machine} {call : Call} {effects : List Effect} {keep : Bool}
    (hreached : Reached gcm m) (hstep : step gcm m call = some (m', effects))
    (hmem : Effect.steering keep ∈ effects) : m'.client.inflight = [] := by
  obtain ⟨args, c, calls, trace, hcreate, hrun⟩ := hreached
  obtain ⟨front, back, rfl⟩ := List.append_of_mem hmem
  obtain ⟨-, -, hnil, -⟩ :=
    (step_steers (run_wf hcreate hrun) hstep).calls_hook (run_outermost hcreate hrun) rfl
  exact hnil

/-- What is known about the sockets since the request with handle `h` was in flight. -/
structure Anchored (gcm : Gcm) (sockets : List RSocket) (h : Handle) (s : RuntimeMachine σ)
    (outputs : List RuntimeOutput) : Prop where
  client : ∃ m, s.handle = some m ∧ Reached gcm m ∧ Born m h ∧
    (m.InFlight h → s.runtime.sockets = sockets ∧ SentThrough sockets outputs)

theorem Anchored.step {sockets : List RSocket} {h : Handle} {s s' : RuntimeMachine σ}
    {before outputs : List RuntimeOutput} {input : RuntimeInput}
    (hanchored : Anchored gcm sockets h s before) (hinput : input ≠ .destroy)
    (hstep : s.step sys gcm input = some (s', outputs)) :
    Anchored gcm sockets h s' (before ++ outputs) := by
  obtain ⟨m, hhandle, hreached, hborn, hkept⟩ := hanchored.client
  rcases step_client hstep hhandle hinput with
    ⟨hhandle', hruntime, hunsent⟩ | ⟨m', call, effects, done, hhandle', hclient, hexec, hdone⟩
  · refine ⟨m, hhandle', hreached, hborn, fun hin => ?_⟩
    obtain ⟨hsockets, hsends⟩ := hkept hin
    exact ⟨by rw [hruntime, hsockets], hsends.append (hunsent _)⟩
  · obtain ⟨hborn', hback⟩ := born_step hreached hclient hborn
    refine ⟨m', hhandle', hreached.step hclient, hborn', fun hin => ?_⟩
    obtain ⟨hsockets, hsends⟩ := hkept (hback hin)
    -- the request is in flight after the step, so the hook was not called in it
    have hquiet : ∀ keep, Effect.steering keep ∉ effects := by
      intro keep hmem
      obtain ⟨req, hreq, -⟩ := hin
      rw [hook_idle hreached hclient hmem] at hreq
      cases hreq
    obtain ⟨hstill, hthrough⟩ := performed_keeps hexec hquiet
    rw [hsockets] at hstill hthrough
    exact ⟨hstill, hsends.append (hdone _ hthrough)⟩

/-- **A request in flight keeps the sockets.** Whatever happens between two points of a run at
    which a request is in flight, responses that ask for a rebind, callbacks of other requests
    and their calls, drains and failures of the system included: unless the runtime is
    destroyed in between, it has the same sockets at both points, they are open, and everything
    that was sent from one point to the other was sent through them. A response to any attempt
    of the request thus arrives at a socket that is still read. -/
theorem sockets_kept_in_flight {gcm : Gcm} {sys : RuntimeSystem σ} {env : σ}
    {before after : List RuntimeInput} {s s' : RuntimeMachine σ}
    {outputs outputs' : List RuntimeOutput} {m m' : Machine} {h : Handle}
    (hbefore : Run.exec (RuntimeMachine.step sys gcm) (.start env) before = some (s, outputs))
    (hafter : Run.exec (RuntimeMachine.step sys gcm) s after = some (s', outputs'))
    (hkept : ∀ input ∈ after, input ≠ .destroy) (hhandle : s.handle = some m)
    (hhandle' : s'.handle = some m') (hin : m.InFlight h) (hin' : m'.InFlight h) :
    s'.runtime.sockets = s.runtime.sockets ∧
      (∀ socket ∈ s.runtime.sockets, socket.id ∈ opened s'.runtime.os.trace ∧
        socket.id ∉ closed s'.runtime.os.trace) ∧
      ∀ socket addr packet sent, .sendto socket addr packet sent ∈ outputs' →
        socket ∈ s.runtime.sockets := by
  have hstart : Anchored gcm s.runtime.sockets h s [] := by
    refine ⟨m, hhandle, handle_reached hbefore m hhandle, ?_, fun _ => ⟨rfl, ?_⟩⟩
    · obtain ⟨args, c, calls, trace, hcreate, hrun⟩ := handle_reached hbefore m hhandle
      obtain ⟨req, hview⟩ := (inflight_iff_live (run_wf hcreate hrun)).mp hin
      intro hunborn
      rw [hview] at hunborn
      cases hunborn
    · exact .silent _ rfl
  have hanchored : Anchored gcm s.runtime.sockets h s' outputs' :=
    Run.exec_induction
      (P := fun inputs s' outputs' => (∀ input ∈ inputs, input ≠ RuntimeInput.destroy) →
        Anchored gcm s.runtime.sockets h s' outputs')
      (fun _ => hstart)
      (fun inputs _ _ input _ _ _ hanchored hstep hinputs =>
        (hanchored fun input hmem => hinputs input (List.mem_append_left _ hmem)).step
          (hinputs input (List.mem_append_right _ (List.mem_singleton_self _))) hstep)
      hafter hkept
  obtain ⟨m₁, hhandle₁, -, -, hsame⟩ := hanchored.client
  obtain rfl := Option.some.inj (hhandle'.symm.trans hhandle₁)
  obtain ⟨hsockets, hsends⟩ := hsame hin'
  have hwf := RuntimeMachine.wf_of_run
    (Run.exec_append.mpr ⟨s, outputs, outputs', hbefore, hafter, rfl⟩)
  refine ⟨hsockets, fun socket hsocket => ?_, fun socket addr packet sent hmem => ?_⟩
  · rw [← hsockets] at hsocket
    exact (hwf.served.moves.mem_iff socket.id).mp (mem_socketIds.mpr ⟨socket, hsocket, rfl⟩)
  · exact hsends socket addr packet sent hmem

def pairInputs : List RuntimeInput :=
  [.init .granted meteredOptions sampleArgs.refresh (fun _ => 50000), .host (sampleSubmit 1 100),
    .host (sampleSubmit 2 101)]

/-- The first of them is completed by a response that asks for a rebind; the second is sent
    again after that. -/
def overlapInputs : List RuntimeInput :=
  [.readable 3, .received (sampleDatagram 1 3 0 105).arriving, .host .callbackReturn,
    .received .wouldBlock, .host (sampleTimeout 1 121)]

def inFlightCheck (h : Handle) (s : RuntimeMachine Unit) : Bool :=
  match s.handle with
  | some m => m.client.inflight.any (·.handle == h)
  | none => false

theorem inFlightCheck_sound {h : Handle} {s : RuntimeMachine Unit}
    (hcheck : inFlightCheck h s = true) : ∃ m, s.handle = some m ∧ m.InFlight h := by
  unfold inFlightCheck at hcheck
  split at hcheck
  · rename_i m hhandle
    obtain ⟨req, hmem, hreq⟩ := List.any_eq_true.mp hcheck
    exact ⟨m, hhandle, req, hmem, beq_iff_eq.mp hreq⟩
  · cases hcheck

theorem sockets_kept_in_flight_overlap :
    ∃ s s' outputs outputs', Run.exec (RuntimeMachine.step quietSystem noGcm) (.start ())
        pairInputs = some (s, outputs) ∧
      Run.exec (RuntimeMachine.step quietSystem noGcm) s overlapInputs = some (s', outputs') ∧
      s'.runtime.sockets = s.runtime.sockets := by
  obtain ⟨⟨s, outputs⟩, hbefore, hread⟩ := Option.map_eq_some_iff.mp
    (show (Run.exec (RuntimeMachine.step quietSystem noGcm) (.start ()) pairInputs).map
      (fun first => (inFlightCheck 1 first.1,
        (Run.exec (RuntimeMachine.step quietSystem noGcm) first.1 overlapInputs).map fun last =>
          inFlightCheck 1 last.1)) = some (true, some true) by decide +kernel)
  obtain ⟨hfirst, hread⟩ := Prod.mk.inj hread
  obtain ⟨⟨s', outputs'⟩, hafter, hlast⟩ := Option.map_eq_some_iff.mp hread
  obtain ⟨m, hhandle, hin⟩ := inFlightCheck_sound hfirst
  obtain ⟨m', hhandle', hin'⟩ := inFlightCheck_sound hlast
  have hinputs : ∀ input ∈ overlapInputs, input ≠ RuntimeInput.destroy := by
    simp [overlapInputs]
  exact ⟨s, s', outputs, outputs', hbefore, hafter,
    (sockets_kept_in_flight hbefore hafter hinputs hhandle hhandle' hin hin').1⟩

end RlClient
