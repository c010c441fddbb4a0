import Mathlib.Data.Finset.Lattice.Lemmas
import Mathlib.Data.Finset.SDiff
import RlClient.Conformance
import RlClient.Runtime

/-!
# The sockets are in the runtime's custody

Every system call of the runtime on a socket is made while that socket is open, whatever
the system answers and whatever the callbacks do: the log of the calls replays in the sense
of `Custody`, and the sockets that are open at any time are those the runtime holds.
-/

namespace RlClient

variable {σ : Type}

/-! ### The log of the system calls -/

/-- What an event does to a socket. A `close` that reports an error has closed all the same. -/
def RuntimeEvent.custody : RuntimeEvent → Option (Custody.Event Nat)
  | .trying _ _ => none
  | .warned _ => none
  | .called (.socket _ id) none => some (.opened id)
  | .called (.socket _ _) (some _) => none
  | .called (.setNonblocking id) _ => some (.used id)
  | .called (.setV6Only id) _ => some (.used id)
  | .called (.bind id _ _) _ => some (.used id)
  | .called (.getsockname id) _ => some (.used id)
  | .called (.close id) _ => some (.closed id)

def RuntimeOutput.custody : RuntimeOutput → Option (Custody.Event Nat)
  | .system event => event.custody
  | .sendto socket _ _ _ => some (.used socket.id)
  | .recvfrom _ (some id) => some (.used id)
  | _ => none

/-- The system goes from `os` to `os'`; what it logs replays from the sockets `live` to the
    sockets `live'`, none of which has a name that is still to be given out. -/
structure SocketMoves (os os' : Os σ) (live live' : Finset Nat) : Prop where
  logged : ∃ events, Grows os os' events ∧
    Custody.replay live (events.filterMap RuntimeEvent.custody) = some live'
  below : ∀ id ∈ live', id < os'.nextId

theorem SocketMoves.refl {os : Os σ} {live : Finset Nat} (hbelow : ∀ id ∈ live, id < os.nextId) :
    SocketMoves os os live live :=
  ⟨⟨[], Grows.refl os, rfl⟩, hbelow⟩

theorem SocketMoves.trans {os₁ os₂ os₃ : Os σ} {l₁ l₂ l₃ : Finset Nat}
    (h : SocketMoves os₁ os₂ l₁ l₂) (h' : SocketMoves os₂ os₃ l₂ l₃) :
    SocketMoves os₁ os₃ l₁ l₃ := by
  obtain ⟨a, hgrows, hreplay⟩ := h.logged
  obtain ⟨b, hgrows', hreplay'⟩ := h'.logged
  refine ⟨⟨a ++ b, hgrows.trans hgrows', ?_⟩, h'.below⟩
  rw [List.filterMap_append]
  exact Custody.replay_append.mpr ⟨l₂, hreplay, hreplay'⟩

theorem SocketMoves.note {os : Os σ} {live : Finset Nat} (hbelow : ∀ id ∈ live, id < os.nextId)
    {event : RuntimeEvent} (hopens : event.opens = none) (hcustody : event.custody = none) :
    SocketMoves os (os.note event) live live := by
  refine ⟨⟨[event], Grows.note os event hopens, ?_⟩, hbelow⟩
  rw [List.filterMap_cons_none hcustody]
  rfl

section Calls

variable {answer : σ → SysCall → Option Int × σ} {os os' : Os σ} {live : Finset Nat}

/-- A call that makes no socket: what it does to the socket it names has to be allowed. -/
theorem SocketMoves.call {live' : Finset Nat} {call : SysCall} {error : Option Int}
    (hbelow : ∀ id ∈ live', id < os.nextId) (hcall : os.call answer call = (error, os'))
    (hopens : (RuntimeEvent.called call error).opens = none)
    (hreplay : Custody.replay live
      ([RuntimeEvent.called call error].filterMap RuntimeEvent.custody) = some live') :
    SocketMoves os os' live live' := by
  refine ⟨⟨_, Grows.call hcall hopens, hreplay⟩, ?_⟩
  obtain ⟨-, rfl⟩ := Prod.mk.inj hcall
  exact hbelow

theorem SocketMoves.use {id : Nat} {call : SysCall} {error : Option Int}
    (hbelow : ∀ id ∈ live, id < os.nextId) (hcall : os.call answer call = (error, os'))
    (hopens : (RuntimeEvent.called call error).opens = none)
    (hcustody : (RuntimeEvent.called call error).custody = some (.used id)) (hid : id ∈ live) :
    SocketMoves os os' live live := by
  refine .call hbelow hcall hopens ?_
  rw [List.filterMap_cons_some hcustody]
  exact Custody.replay_used (by simpa using hid)

theorem SocketMoves.close {id : Nat} (answer : σ → SysCall → Option Int × σ)
    (hbelow : ∀ id ∈ live, id < os.nextId) (hid : id ∈ live) :
    SocketMoves os (os.call answer (.close id)).2 live (live.erase id) :=
  .call (fun k hk => hbelow k (Finset.mem_of_mem_erase hk)) rfl rfl (Custody.replay_closed hid)

theorem SocketMoves.socket {family : RFamily} (hbelow : ∀ id ∈ live, id < os.nextId)
    (hcall : os.call answer (.socket family os.nextId) = (none, os')) :
    SocketMoves os { os' with nextId := os.nextId + 1 } live (insert os.nextId live) := by
  refine ⟨⟨_, Grows.socket hcall, ?_⟩, ?_⟩
  · exact Custody.replay_opened fun hmem => Nat.lt_irrefl _ (hbelow _ hmem)
  · intro id hid
    rcases Finset.mem_insert.mp hid with rfl | hid
    · exact Nat.lt_succ_self _
    · exact Nat.lt_succ_of_lt (hbelow id hid)

def withOpened (live : Finset Nat) : Except Int RSocket → Finset Nat
  | .ok socket => insert socket.id live
  | .error _ => live

/-- `open_udp_socket` closes the socket it made unless it returns it. -/
theorem openUdpSocket_moves {family : RFamily} {port : UInt16} {result : Except Int RSocket}
    (hbelow : ∀ id ∈ live, id < os.nextId)
    (h : openUdpSocket answer family port os = (result, os')) :
    SocketMoves os os' live (withOpened live result) ∧
      ∀ socket, result = .ok socket → socket.id ∉ live := by
  have hfresh : os.nextId ∉ live := fun hmem => Nat.lt_irrefl _ (hbelow _ hmem)
  have hmem : os.nextId ∈ insert os.nextId live := Finset.mem_insert_self _ _
  have hclosed : (insert os.nextId live).erase os.nextId = live := Finset.erase_insert hfresh
  unfold openUdpSocket at h
  simp only at h
  rcases hsocket : os.call answer (.socket family os.nextId) with ⟨_ | error, os₁⟩
  swap
  · simp only [hsocket] at h
    obtain ⟨rfl, rfl⟩ := Prod.mk.inj h
    exact ⟨.call hbelow hsocket rfl rfl, fun _ hok => nomatch hok⟩
  have hmade := SocketMoves.socket hbelow hsocket
  simp only [hsocket] at h
  rcases hblocking : Os.call answer { os₁ with nextId := os.nextId + 1 }
    (.setNonblocking os.nextId) with ⟨error, os₂⟩
  have hready := hmade.trans (.use hmade.below hblocking rfl rfl hmem)
  simp only [hblocking] at h
  cases error with
  | some error =>
    obtain ⟨rfl, rfl⟩ := Prod.mk.inj h
    have hback := hready.trans (SocketMoves.close answer hready.below hmem)
    rw [hclosed] at hback
    exact ⟨hback, fun _ hok => nomatch hok⟩
  | none =>
    simp only at h
    -- the option of the second family is one more use
    obtain ⟨os₃, hos₃, hoption⟩ : ∃ os₃,
        (if family = .inet then os₂ else (os₂.call answer (.setV6Only os.nextId)).2) = os₃ ∧
          SocketMoves os os₃ live (insert os.nextId live) := by
      by_cases hfamily : family = .inet
      · exact ⟨os₂, if_pos hfamily, hready⟩
      · exact ⟨_, if_neg hfamily, hready.trans (.use hready.below rfl rfl rfl hmem)⟩
    rw [hos₃] at h
    rcases hbind : os₃.call answer (.bind os.nextId family port) with ⟨error, os₄⟩
    have hbound := hoption.trans (.use hoption.below hbind rfl rfl hmem)
    simp only [hbind] at h
    cases error with
    | some error =>
      obtain ⟨rfl, rfl⟩ := Prod.mk.inj h
      have hback := hbound.trans (SocketMoves.close answer hbound.below hmem)
      rw [hclosed] at hback
      exact ⟨hback, fun _ hok => nomatch hok⟩
    | none =>
      obtain ⟨rfl, rfl⟩ := Prod.mk.inj h
      refine ⟨hbound, fun socket hok => ?_⟩
      obtain rfl := Except.ok.inj hok
      exact hfresh

/-! ### A rebind -/

theorem runtimeTrySteeringPort_moves (answer : σ → SysCall → Option Int × σ) (family : RFamily)
    {binding : Os σ × Option RSocket} (hbelow : ∀ id ∈ live, id < binding.1.nextId)
    (port : UInt16) :
    ∃ result, SocketMoves binding.1 (runtimeTrySteeringPort answer family binding port).2.1 live
        (withOpened live result) ∧
      ((∃ error, result = .error error ∧
          (runtimeTrySteeringPort answer family binding port).1 ≠ .ok) ∨
        ∃ socket, result = .ok socket ∧ socket.id ∉ live ∧
          (runtimeTrySteeringPort answer family binding port).1 = .ok ∧
          (runtimeTrySteeringPort answer family binding port).2.2 = some socket) := by
  have hnoted : SocketMoves binding.1 (binding.1.note (.trying family port)) live live :=
    .note hbelow rfl rfl
  rcases hopen : openUdpSocket answer family port (binding.1.note (.trying family port))
    with ⟨result, os⟩
  obtain ⟨hopens, hfresh⟩ := openUdpSocket_moves hnoted.below hopen
  have hmoves := hnoted.trans hopens
  unfold runtimeTrySteeringPort
  rw [hopen]
  refine ⟨result, ?_, ?_⟩
  · cases result with
    | error error => exact hmoves
    | ok socket => exact hmoves
  · cases result with
    | error error =>
      refine .inl ⟨error, rfl, ?_⟩
      simp only
      split <;> simp
    | ok socket => exact .inr ⟨socket, rfl, hfresh socket rfl, rfl, rfl⟩

/-- The tries of a scan before its last one leave the sockets as they are. -/
theorem skipped_moves {family : RFamily} {candidate : UInt16} {n : Nat}
    (hbelow : ∀ id ∈ live, id < os.nextId)
    (hagain : ∀ j < n, Probe.answer (runtimeTrySteeringPort answer family) rClientNextSteeringPort j
      candidate (os, none) = .occupied) :
    SocketMoves os (Probe.after (runtimeTrySteeringPort answer family) rClientNextSteeringPort
      n candidate (os, none)).1 live live := by
  induction n with
  | zero => exact .refl hbelow
  | succ n ih =>
    have hbefore := ih fun j hj => hagain j (Nat.lt_succ_of_lt hj)
    have hlast := hagain n (Nat.lt_succ_self n)
    rw [Probe.answer] at hlast
    rw [Probe.after_succ]
    obtain ⟨result, hmoves, ⟨error, rfl, -⟩ | ⟨socket, -, -, hok, -⟩⟩ :=
      runtimeTrySteeringPort_moves answer family hbefore.below
        (rClientNextSteeringPort^[n] candidate)
    · exact hbefore.trans hmoves
    · rw [hlast] at hok
      cases hok

/-- A scan adds the socket it returns, if it succeeds. -/
theorem steeringScan_moves {family : RFamily} {firstPort : UInt16}
    {out cells : PortCells} {status : RClientError} {binding : Option RSocket}
    (hbelow : ∀ id ∈ live, id < os.nextId)
    (h : rClientSelectSteeringPort firstPort (runtimeTrySteeringPort answer family) (os, none) out =
      (status, cells, os', binding)) :
    (status ≠ .ok ∧ SocketMoves os os' live live) ∨
      ∃ socket, status = .ok ∧ binding = some socket ∧ socket.id ∉ live ∧
        SocketMoves os os' live (insert socket.id live) := by
  obtain ⟨n, -, hagain, -, hresult⟩ :=
    rClientSelectSteeringPort_cases firstPort (runtimeTrySteeringPort answer family) (os, none) out
  have hbefore := skipped_moves hbelow hagain
  rw [h, Probe.after_succ, Probe.answer] at hresult
  obtain ⟨hstatus, -, hlast⟩ : status = _ ∧ cells = _ ∧ (os', binding) = _ := by
    simpa only [Prod.mk.injEq, and_assoc] using hresult
  obtain ⟨result, hmoves, hcases⟩ := runtimeTrySteeringPort_moves answer family hbefore.below
    (rClientNextSteeringPort^[n] (firstCandidate firstPort))
  rw [← hlast] at hmoves hcases
  rcases hcases with ⟨error, rfl, hfailed⟩ | ⟨socket, rfl, hfresh, hok, hbinding⟩
  · refine .inl ⟨?_, hbefore.trans hmoves⟩
    rw [hstatus]
    exact scanOutcome_ne_ok hfailed out
  · refine .inr ⟨socket, ?_, hbinding, hfresh, hbefore.trans hmoves⟩
    rw [hstatus, hok]
    rfl

def socketIds (sockets : List RSocket) : Finset Nat := (sockets.map RSocket.id).toFinset

theorem mem_socketIds {sockets : List RSocket} {id : Nat} :
    id ∈ socketIds sockets ↔ ∃ socket ∈ sockets, socket.id = id := by
  rw [socketIds, List.mem_toFinset, List.mem_map]

theorem socketIds_cons (socket : RSocket) (sockets : List RSocket) :
    socketIds (socket :: sockets) = insert socket.id (socketIds sockets) := by
  rw [socketIds, List.map_cons, List.toFinset_cons]
  rfl

theorem socketIds_concat (sockets : List RSocket) (socket : RSocket) :
    socketIds (sockets ++ [socket]) = insert socket.id (socketIds sockets) := by
  rw [socketIds, List.map_append, List.toFinset_append, Finset.union_comm, List.map_singleton,
    List.toFinset_cons, List.toFinset_nil, Finset.insert_union, Finset.empty_union, socketIds]

/-- Open sockets, all different, are closed one after the other. -/
theorem closeSockets_moves (answer : σ → SysCall → Option Int × σ) {sockets : List RSocket}
    (hbelow : ∀ id ∈ live, id < os.nextId) (hsub : socketIds sockets ⊆ live)
    (hnodup : (sockets.map RSocket.id).Nodup) :
    SocketMoves os (closeSockets answer sockets os) live (live \ socketIds sockets) := by
  induction sockets generalizing os live with
  | nil =>
    rw [show live \ socketIds [] = live from Finset.sdiff_empty]
    exact .refl hbelow
  | cons socket sockets ih =>
    rw [socketIds_cons] at hsub ⊢
    rw [List.map_cons, List.nodup_cons] at hnodup
    have hfirst := SocketMoves.close answer hbelow (hsub (Finset.mem_insert_self _ _))
    have hrest := ih hfirst.below (fun id hid => ?_) hnodup.2
    · have hall := hfirst.trans hrest
      rwa [Finset.erase_sdiff_comm, ← Finset.sdiff_insert] at hall
    · refine Finset.mem_erase.mpr ⟨?_, hsub (Finset.mem_insert_of_mem hid)⟩
      rintro rfl
      exact hnodup.1 (List.mem_toFinset.mp hid)

theorem runtimeSocketFamilyAndPort_moves {socket : RSocket}
    {reported : Option (RFamily × UInt16)} (hbelow : ∀ id ∈ live, id < os.nextId)
    (hid : socket.id ∈ live) (h : runtimeSocketFamilyAndPort answer socket os = (reported, os')) :
    SocketMoves os os' live live := by
  unfold runtimeSocketFamilyAndPort at h
  rcases hcall : os.call answer (.getsockname socket.id) with ⟨error, os₁⟩
  have hused : SocketMoves os os₁ live live := .use hbelow hcall rfl rfl hid
  suffices hos : os' = os₁ by rwa [hos]
  rw [hcall] at h
  cases error with
  | some error => exact (Prod.mk.inj h).2.symm
  | none =>
    cases hfamily : socket.family <;> simp only [hfamily] at h <;> exact (Prod.mk.inj h).2.symm

theorem acquired_none {replacements : List RSocket} (h : SocketMoves os os' live live) :
    ∃ new, replacements = replacements ++ new ∧ SocketMoves os os' live (live ∪ socketIds new) ∧
      (new.map RSocket.id).Nodup ∧ Disjoint live (socketIds new) := by
  refine ⟨[], (List.append_nil _).symm, ?_, List.nodup_nil, Finset.disjoint_empty_right _⟩
  rwa [show live ∪ socketIds [] = live from Finset.union_empty live]

/-- The first loop of a rebind adds the sockets it has bound, which are new. -/
theorem acquireReplacements_moves {sockets replacements all : List RSocket} {completed : Bool}
    (hbelow : ∀ id ∈ live, id < os.nextId) (hsub : socketIds sockets ⊆ live)
    (h : acquireReplacements answer sockets replacements os = (completed, all, os')) :
    ∃ new, all = replacements ++ new ∧ SocketMoves os os' live (live ∪ socketIds new) ∧
      (new.map RSocket.id).Nodup ∧ Disjoint live (socketIds new) := by
  induction sockets generalizing replacements os live with
  | nil =>
    obtain ⟨rfl, hrest⟩ := Prod.mk.inj h
    obtain ⟨rfl, rfl⟩ := Prod.mk.inj hrest
    exact acquired_none (.refl hbelow)
  | cons socket sockets ih =>
    rw [socketIds_cons] at hsub
    unfold acquireReplacements at h
    rcases hname : runtimeSocketFamilyAndPort answer socket os with ⟨reported, os₁⟩
    have hnamed := runtimeSocketFamilyAndPort_moves hbelow (hsub (Finset.mem_insert_self _ _)) hname
    rw [hname] at h
    rcases reported with _ | ⟨family, currentPort⟩
    · obtain ⟨rfl, hrest⟩ := Prod.mk.inj h
      obtain ⟨rfl, rfl⟩ := Prod.mk.inj hrest
      exact acquired_none hnamed
    simp only at h
    rcases hscan : rClientSelectSteeringPort (rClientNextSteeringPort currentPort)
      (runtimeTrySteeringPort answer family) (os₁, none) ⟨0, 0⟩
      with ⟨status, cells, os₂, binding⟩
    rw [hscan] at h
    rcases steeringScan_moves hnamed.below hscan with
      ⟨hfailed, hscanned⟩ | ⟨replacement, rfl, rfl, hfresh, hscanned⟩
    · -- the scan found no port: the loop is left
      have hleft : (false, replacements, os₂) = (completed, all, os') := by
        cases status <;> first | exact absurd rfl hfailed | exact h
      obtain ⟨rfl, hrest⟩ := Prod.mk.inj hleft
      obtain ⟨rfl, rfl⟩ := Prod.mk.inj hrest
      exact acquired_none (hnamed.trans hscanned)
    · have hstill : socketIds sockets ⊆ insert replacement.id live := fun id hid =>
        Finset.mem_insert_of_mem (hsub (Finset.mem_insert_of_mem hid))
      obtain ⟨new, hall, hmoves, hnodup, hdisjoint⟩ := ih hscanned.below hstill h
      rw [Finset.disjoint_insert_left] at hdisjoint
      refine ⟨replacement :: new, by rw [hall, List.append_assoc]; rfl, ?_, ?_, ?_⟩
      · rw [socketIds_cons, ← Finset.insert_union_comm]
        exact (hnamed.trans hscanned).trans hmoves
      · rw [List.map_cons, List.nodup_cons]
        exact ⟨fun hmem => hdisjoint.1 (List.mem_toFinset.mpr hmem), hnodup⟩
      · rw [socketIds_cons, Finset.disjoint_insert_right]
        exact ⟨hfresh, hdisjoint.2⟩

/-- A rebind leaves open exactly the sockets the runtime has afterwards. -/
theorem runtimeOnSteeringFeedback_moves (answer : σ → SysCall → Option Int × σ) (keepPort : Bool)
    {runtime : RRuntimeClient σ} (h : runtime.Held) :
    SocketMoves runtime.os (runtimeOnSteeringFeedback answer keepPort runtime).os
        (socketIds runtime.sockets)
        (socketIds (runtimeOnSteeringFeedback answer keepPort runtime).sockets) ∧
      (runtimeOnSteeringFeedback answer keepPort runtime).Held := by
  have hbelow : ∀ id ∈ socketIds runtime.sockets, id < runtime.os.nextId := by
    intro id hid
    obtain ⟨socket, hsocket, rfl⟩ := mem_socketIds.mp hid
    exact h.used socket hsocket
  unfold runtimeOnSteeringFeedback
  by_cases hskip : (keepPort || runtime.sockets.isEmpty) = true
  · rw [if_pos hskip]
    exact ⟨.refl hbelow, h⟩
  rw [if_neg hskip]
  rcases hacquire : acquireReplacements answer runtime.sockets [] runtime.os
    with ⟨completed, all, os⟩
  obtain ⟨new, hall, hmoves, hnodup, hdisjoint⟩ :=
    acquireReplacements_moves hbelow (Finset.Subset.refl _) hacquire
  rw [List.nil_append] at hall
  subst hall
  cases completed with
  | true =>
    have hclosed := closeSockets_moves answer hmoves.below Finset.subset_union_left h.distinct
    rw [Finset.union_sdiff_cancel_left hdisjoint] at hclosed
    refine ⟨hmoves.trans hclosed, hnodup, fun socket hsocket => ?_⟩
    exact hclosed.below _ (mem_socketIds.mpr ⟨socket, hsocket, rfl⟩)
  | false =>
    have hclosed := closeSockets_moves answer hmoves.below Finset.subset_union_right hnodup
    rw [Finset.union_sdiff_cancel_right hdisjoint] at hclosed
    have hwarned : SocketMoves _ (Os.note _ (.warned
        "source-port steering could not acquire replacement sockets")) _ _ :=
      .note hclosed.below rfl rfl
    have hlogged := (hmoves.trans hclosed).trans hwarned
    refine ⟨hlogged, h.distinct, fun socket hsocket => ?_⟩
    exact hlogged.below _ (mem_socketIds.mpr ⟨socket, hsocket, rfl⟩)

end Calls

/-! ### The system's view -/

theorem openings_eq (id : Nat) (events : List RuntimeEvent) :
    Custody.openings id (events.filterMap RuntimeEvent.custody) = (opened events).count id := by
  unfold Custody.openings opened
  induction events with
  | nil => rfl
  | cons event events ih =>
    rcases event with _ | ⟨call, error⟩ | _
    · exact ih
    · cases call <;> cases error <;>
        simp [List.filterMap_cons, RuntimeEvent.custody, RuntimeEvent.opens, List.count_cons, ih]
    · exact ih

theorem closings_eq (id : Nat) (events : List RuntimeEvent) :
    Custody.closings id (events.filterMap RuntimeEvent.custody) = (closed events).count id := by
  unfold Custody.closings closed
  induction events with
  | nil => rfl
  | cons event events ih =>
    rcases event with _ | ⟨call, error⟩ | _
    · exact ih
    · cases call <;> cases error <;>
        simp [List.filterMap_cons, RuntimeEvent.custody, RuntimeEvent.closes, List.count_cons, ih]
    · exact ih

def Os.fresh (env : σ) : Os σ := ⟨env, 0, []⟩

/-- The sockets that are open are those that have been made and not been closed. -/
theorem SocketMoves.mem_iff {env : σ} {os : Os σ} {live : Finset Nat}
    (h : SocketMoves (.fresh env) os ∅ live) (id : Nat) :
    id ∈ live ↔ id ∈ opened os.trace ∧ id ∉ closed os.trace := by
  obtain ⟨events, hgrows, hreplay⟩ := h.logged
  have hbalance := Custody.replay_balance hreplay id
  rw [openings_eq, closings_eq] at hbalance
  have htrace : os.trace = events := hgrows.trace
  have hnodup : (opened events).Nodup := by
    obtain ⟨k, -, hopened⟩ := hgrows.names
    rw [hopened]
    exact List.nodup_range'
  have hle := List.nodup_iff_count_le_one.mp hnodup id
  rw [htrace, ← List.count_pos_iff, ← List.count_eq_zero]
  unfold Custody.held at hbalance
  rw [if_neg (Finset.notMem_empty id)] at hbalance
  split at hbalance
  · rename_i hmem
    exact iff_of_true hmem (by omega)
  · rename_i hmem
    exact iff_of_false hmem (by omega)

theorem SocketMoves.lookup {env : σ} {os : Os σ} {live : Finset Nat} (sys : RuntimeSystem σ)
    (h : SocketMoves (.fresh env) os ∅ live) {id : Nat} (hid : id ∈ live) :
    ∃ found ∈ live, os.lookup sys (sys.descriptor id) = some found := by
  cases hfind : os.lookup sys (sys.descriptor id) with
  | none =>
    obtain ⟨hopened, hclosed⟩ := (h.mem_iff id).mp hid
    have hnone := List.find?_eq_none.mp hfind id hopened
    simp [hclosed] at hnone
  | some found =>
    have hsome := List.find?_some hfind
    rw [decide_eq_true_iff] at hsome
    exact ⟨found, (h.mem_iff found).mpr ⟨List.mem_of_find?_eq_some hfind, hsome.1⟩, rfl⟩

/-! ### What the runtime does for the client -/

/-- An output that is as it should be: a datagram leaves through a socket of its
    destination's family, `recvfrom` is called on an open socket, and a drain is not ended by
    a datagram that is noise. -/
def RuntimeOutput.Sound : RuntimeOutput → Prop
  | .sendto socket addr _ _ => socket.family.code = some addr.family
  | .recvfrom _ found => found.isSome = true
  | .drained status => status ≠ .errProtocol ∧ status ≠ .errAuth
  | _ => True

/-- The runtime goes from `r` to `r'` in the custody of its sockets. -/
structure Serves (r r' : RRuntimeClient σ) (outputs : List RuntimeOutput) : Prop where
  moves : SocketMoves r.os r'.os (socketIds r.sockets) (socketIds r'.sockets)
  held : r'.Held
  replayed : Custody.replay (socketIds r.sockets) (outputs.filterMap RuntimeOutput.custody) =
    some (socketIds r'.sockets)
  sound : ∀ output ∈ outputs, output.Sound

theorem RRuntimeClient.Held.below {r : RRuntimeClient σ} (h : r.Held) :
    ∀ id ∈ socketIds r.sockets, id < r.os.nextId := by
  intro id hid
  obtain ⟨socket, hsocket, rfl⟩ := mem_socketIds.mp hid
  exact h.used socket hsocket

theorem Serves.refl {r : RRuntimeClient σ} (h : r.Held) : Serves r r [] :=
  ⟨.refl h.below, h, rfl, fun _ hmem => nomatch hmem⟩

theorem Serves.trans {r₁ r₂ r₃ : RRuntimeClient σ} {a b : List RuntimeOutput}
    (h : Serves r₁ r₂ a) (h' : Serves r₂ r₃ b) : Serves r₁ r₃ (a ++ b) := by
  refine ⟨h.moves.trans h'.moves, h'.held, ?_, fun output hmem => ?_⟩
  · rw [List.filterMap_append]
    exact Custody.replay_append.mpr ⟨_, h.replayed, h'.replayed⟩
  · exact (List.mem_append.mp hmem).elim (h.sound output) (h'.sound output)

theorem Serves.silent {r r' : RRuntimeClient σ} {a b : List RuntimeOutput} (h : Serves r r' a)
    (hcustody : b.filterMap RuntimeOutput.custody = []) (hsound : ∀ output ∈ b, output.Sound) :
    Serves r r' (a ++ b) := by
  refine h.trans ⟨.refl h.held.below, h.held, ?_, hsound⟩
  rw [hcustody]
  rfl

theorem systemEvents_custody {os os' : Os σ} {live live' : Finset Nat}
    (h : SocketMoves os os' live live') :
    Custody.replay live ((systemEvents os os').filterMap RuntimeOutput.custody) = some live' := by
  obtain ⟨events, hgrows, hreplay⟩ := h.logged
  rw [systemEvents, hgrows.trace, List.drop_left, List.filterMap_map]
  exact hreplay

theorem systemEvents_sound {os os' : Os σ} : ∀ output ∈ systemEvents os os', output.Sound := by
  intro output hmem
  obtain ⟨event, -, rfl⟩ := List.mem_map.mp hmem
  trivial

theorem Serves.system {r r' : RRuntimeClient σ}
    (h : SocketMoves r.os r'.os (socketIds r.sockets) (socketIds r'.sockets)) (hheld : r'.Held) :
    Serves r r' (systemEvents r.os r'.os) :=
  ⟨h, hheld, systemEvents_custody h, systemEvents_sound⟩

variable {sys : RuntimeSystem σ}

/-- The loop of `runtime_udp_send` finds a socket of the runtime of the family it looks for. -/
theorem findSocket_mem {family : Nat} {sockets : List RSocket} {os os' : Os σ} {socket : RSocket}
    (h : findSocket sys family sockets os = (some socket, os')) :
    socket ∈ sockets ∧ socket.family.code = some family := by
  induction sockets generalizing os with
  | nil => exact absurd (Prod.mk.inj h).1 (by simp)
  | cons first sockets ih =>
    unfold findSocket at h
    rcases hcall : os.call sys.answer (.getsockname first.id) with ⟨error, os₁⟩
    have hlater : findSocket sys family sockets os₁ = (some socket, os') →
        socket ∈ first :: sockets ∧ socket.family.code = some family := fun hrest =>
      ⟨List.mem_cons_of_mem _ (ih hrest).1, (ih hrest).2⟩
    rw [hcall] at h
    cases error with
    | some error => exact hlater h
    | none =>
      simp only at h
      split at h
      · rename_i hfamily
        obtain rfl := Option.some.inj (Prod.mk.inj h).1
        exact ⟨List.mem_cons_self, hfamily⟩
      · exact hlater h

theorem findSocket_moves {family : Nat} {sockets : List RSocket} {os os' : Os σ}
    {live : Finset Nat} {found : Option RSocket} (hbelow : ∀ id ∈ live, id < os.nextId)
    (hsub : socketIds sockets ⊆ live) (h : findSocket sys family sockets os = (found, os')) :
    SocketMoves os os' live live := by
  induction sockets generalizing os with
  | nil =>
    obtain ⟨rfl, rfl⟩ := Prod.mk.inj h
    exact .refl hbelow
  | cons socket sockets ih =>
    rw [socketIds_cons] at hsub
    unfold findSocket at h
    rcases hcall : os.call sys.answer (.getsockname socket.id) with ⟨error, os₁⟩
    have hused : SocketMoves os os₁ live live :=
      .use hbelow hcall rfl rfl (hsub (Finset.mem_insert_self _ _))
    have hlater : findSocket sys family sockets os₁ = (found, os') → SocketMoves os os' live live :=
      fun hrest => hused.trans
        (ih hused.below (fun id hid => hsub (Finset.mem_insert_of_mem hid)) hrest)
    rw [hcall] at h
    cases error with
    | some error => exact hlater h
    | none =>
      simp only at h
      split at h
      · obtain ⟨-, rfl⟩ := Prod.mk.inj h
        exact hused
      · exact hlater h

/-- Datagrams leave through a socket of the runtime that fits; the memory of the system may
    change. -/
theorem Serves.transmit {r r' : RRuntimeClient σ} {outputs sends : List RuntimeOutput}
    {socket : RSocket} {addr : RAddr} (h : Serves r r' outputs) (hmem : socket ∈ r'.sockets)
    (hfamily : socket.family.code = some addr.family)
    (hsends : ∀ output ∈ sends, ∃ packet sent, output = .sendto socket addr packet sent)
    (env : σ) :
    Serves r { r' with os := { r'.os with env := env } } (outputs ++ sends) := by
  obtain ⟨events, hgrows, hreplay⟩ := h.moves.logged
  refine ⟨⟨⟨events, ⟨hgrows.trace, hgrows.names⟩, hreplay⟩, h.moves.below⟩,
    ⟨h.held.distinct, h.held.used⟩, ?_, fun output houtput => ?_⟩
  · rw [List.filterMap_append]
    refine Custody.replay_append.mpr ⟨_, h.replayed, Custody.replay_used fun e he => ?_⟩
    obtain ⟨output, houtput, hcustody⟩ := List.mem_filterMap.mp he
    obtain ⟨packet, sent, rfl⟩ := hsends output houtput
    exact ⟨socket.id, mem_socketIds.mpr ⟨socket, hmem, rfl⟩, (Option.some.inj hcustody).symm⟩
  · rcases List.mem_append.mp houtput with hbefore | hsent
    · exact h.sound output hbefore
    · obtain ⟨packet, sent, rfl⟩ := hsends output hsent
      exact hfamily

theorem runtimeUdpSend_serves {r : RRuntimeClient σ} (hheld : r.Held) (addr : RAddr)
    (packet : Bytes) :
    Serves r (runtimeUdpSend sys r addr packet).2.1 (runtimeUdpSend sys r addr packet).2.2 := by
  unfold runtimeUdpSend
  split
  · exact .refl hheld
  rcases hfind : findSocket sys addr.family r.sockets r.os with ⟨found, os⟩
  have hmoves := findSocket_moves hheld.below (Finset.Subset.refl _) hfind
  have hsearched : Serves r { r with os := os } (systemEvents r.os os) :=
    Serves.system hmoves
      ⟨hheld.distinct, fun s hs => hmoves.below _ (mem_socketIds.mpr ⟨s, hs, rfl⟩)⟩
  cases found with
  | none => exact hsearched
  | some socket =>
    obtain ⟨hmem, hfamily⟩ := findSocket_mem hfind
    simp only [List.append_assoc]
    refine hsearched.transmit hmem hfamily (fun output houtput => ?_) _
    rcases List.mem_append.mp houtput with hretry | hlast
    · exact ⟨packet, none, (List.mem_replicate.mp hretry).2⟩
    · exact ⟨packet, _, List.mem_singleton.mp hlast⟩

theorem perform_serves {r r' : RRuntimeClient σ} {effect : Effect} {outputs : List RuntimeOutput}
    (hheld : r.Held) (h : perform sys r effect = some (r', outputs)) : Serves r r' outputs := by
  have hnoted : Serves r r [.client effect] :=
    (Serves.refl hheld).silent rfl fun output hmem => by
      rw [List.mem_singleton.mp hmem]
      trivial
  unfold perform at h
  cases effect with
  | udpSend _ _ _ _ addr packet ok =>
    simp only at h
    split at h
    · obtain ⟨rfl, rfl⟩ := Prod.mk.inj (Option.some.inj h)
      exact hnoted.trans (runtimeUdpSend_serves hheld addr packet)
    · exact absurd h (by simp)
  | steering keepPort =>
    obtain ⟨rfl, rfl⟩ := Prod.mk.inj (Option.some.inj h)
    obtain ⟨hmoves, hheld'⟩ := runtimeOnSteeringFeedback_moves sys.answer keepPort hheld
    exact hnoted.trans (.system hmoves hheld')
  | _ =>
    obtain ⟨rfl, rfl⟩ := Prod.mk.inj (Option.some.inj h)
    exact hnoted

theorem performed_serves {r r' : RRuntimeClient σ} {effects : List Effect}
    {outputs : List RuntimeOutput} (hheld : r.Held)
    (h : Run.exec (perform sys) r effects = some (r', outputs)) : Serves r r' outputs :=
  Run.exec_induction (P := fun _ r' outputs => Serves r r' outputs) (.refl hheld)
    (fun _ _ _ _ _ _ _ hbefore hstep => hbefore.trans (perform_serves hbefore.held hstep)) h

/-! ### Initialisation and destruction -/

theorem rRuntimeClientDestroy_serves (sys : RuntimeSystem σ) {r : RRuntimeClient σ}
    (hheld : r.Held) :
    Serves r (rRuntimeClientDestroy sys r)
      (systemEvents r.os (rRuntimeClientDestroy sys r).os) := by
  have hclosed := closeSockets_moves sys.answer hheld.below (Finset.Subset.refl _) hheld.distinct
  rw [Finset.sdiff_self] at hclosed
  exact .system hclosed ⟨List.nodup_nil, fun _ hmem => nomatch hmem⟩

/-- The sockets of a runtime with those of one more `open_udp_socket`. -/
theorem openAnyPort_moves {family : RFamily} {assigned : UInt16} {r : RRuntimeClient σ}
    {opened : List RSocket} {os : Os σ} (hheld : r.Held)
    (h : openAnyPort sys family assigned r.os = (opened, os)) :
    SocketMoves r.os os (socketIds r.sockets) (socketIds (r.sockets ++ opened)) ∧
      RRuntimeClient.Held ⟨os, r.sockets ++ opened⟩ := by
  unfold openAnyPort at h
  rcases hopen : openUdpSocket sys.answer family 0 r.os with ⟨result, os₁⟩
  obtain ⟨hmoves, hfresh⟩ := openUdpSocket_moves hheld.below hopen
  rw [hopen] at h
  have hids : withOpened (socketIds r.sockets) result = socketIds (r.sockets ++ opened) ∧
      ((r.sockets ++ opened).map RSocket.id).Nodup ∧ os = os₁ := by
    cases result with
    | error error =>
      obtain ⟨rfl, rfl⟩ := Prod.mk.inj h
      rw [List.append_nil]
      exact ⟨rfl, hheld.distinct, rfl⟩
    | ok socket =>
      obtain ⟨rfl, rfl⟩ := Prod.mk.inj h
      have hnew : socket.id ∉ r.sockets.map RSocket.id := fun hmem =>
        hfresh socket rfl (List.mem_toFinset.mpr hmem)
      refine ⟨?_, ?_, rfl⟩
      · rw [socketIds_concat]
        rfl
      · rw [List.map_append]
        exact List.nodup_append.mpr ⟨hheld.distinct, List.nodup_singleton _, by
          intro a ha b hb
          rw [List.mem_singleton.mp hb]
          rintro rfl
          exact hnew ha⟩
  obtain ⟨hids, hnodup, rfl⟩ := hids
  rw [hids] at hmoves
  exact ⟨hmoves, hnodup, fun s hs => hmoves.below _ (mem_socketIds.mpr ⟨s, hs, rfl⟩)⟩

/-- `r_runtime_client_init` ends with a client and sockets, or with neither. -/
theorem rRuntimeClientInit_serves (sys : RuntimeSystem σ) (alloc : DecodeAlloc)
    (options : RRuntimeOptions) (refresh : RefreshIo) (assigned : RFamily → UInt16)
    (os : Os σ) :
    let result := rRuntimeClientInit sys alloc options refresh assigned os
    Serves ⟨os, []⟩ result.2.1 (systemEvents os result.2.1.os) ∧
      (result.2.2 = none → result.2.1.sockets = []) := by
  let blank : RRuntimeClient σ := ⟨os, []⟩
  have hempty : blank.Held := ⟨List.nodup_nil, fun _ hmem => nomatch hmem⟩
  have hrefused : Serves blank blank (systemEvents os os) := .system (.refl hempty.below) hempty
  unfold rRuntimeClientInit
  split
  · exact ⟨hrefused, fun _ => rfl⟩
  · exact ⟨hrefused, fun _ => rfl⟩
  split
  · exact ⟨rRuntimeClientDestroy_serves sys hempty, fun _ => rfl⟩
  rcases hipv4 : openAnyPort sys .inet (assigned .inet) os with ⟨ipv4, os₁⟩
  rcases hipv6 : openAnyPort sys .inet6 (assigned .inet6) os₁ with ⟨ipv6, os₂⟩
  simp only [hipv6]
  obtain ⟨hmoves, hheld⟩ := openAnyPort_moves hempty hipv4
  obtain ⟨hmoves', hheld'⟩ := openAnyPort_moves hheld hipv6
  have hopened := hmoves.trans hmoves'
  -- whatever was opened is closed again when there is no client in the end
  have hdestroyed := rRuntimeClientDestroy_serves sys hheld'
  have hclosed := Serves.system (r := blank) (hopened.trans hdestroyed.moves) hdestroyed.held
  split
  · exact ⟨hclosed, fun _ => rfl⟩
  split
  · exact ⟨hclosed, fun _ => rfl⟩
  · exact ⟨.system (r := blank) hopened hheld', fun hm => nomatch hm⟩

/-! ### The machine -/

/-- What holds of the runtime between two steps. -/
structure RuntimeMachine.Wf (sys : RuntimeSystem σ) (env : σ) (s : RuntimeMachine σ)
    (outputs : List RuntimeOutput) : Prop where
  served : Serves ⟨.fresh env, []⟩ s.runtime outputs
  gone : s.handle = none → s.runtime.sockets = [] ∧ s.drain = .outside
  current : ∀ descriptor, s.drain = .receiving descriptor →
    socketIsCurrent sys s.runtime descriptor = true
  idle : ∀ descriptor m, s.drain = .receiving descriptor → s.handle = some m → m.frames = []
  waiting : ∀ descriptor status, s.drain = .delivering descriptor status →
    status ≠ .errProtocol ∧ status ≠ .errAuth

/-- The drain is where it may be between two steps. -/
structure Resumes (sys : RuntimeSystem σ) (r : RRuntimeClient σ)
    (next : Drain × List RuntimeOutput) : Prop where
  current : ∀ descriptor, next.1 = .receiving descriptor →
    socketIsCurrent sys r descriptor = true
  settled : ∀ descriptor status, next.1 ≠ .delivering descriptor status
  silent : next.2.filterMap RuntimeOutput.custody = []
  sound : ∀ output ∈ next.2, output.Sound

theorem Resumes.receiving {r : RRuntimeClient σ} {descriptor : Nat}
    (hcurrent : socketIsCurrent sys r descriptor = true) :
    Resumes sys r (.receiving descriptor, []) where
  current d hd := by
    obtain rfl := Drain.receiving.inj hd
    exact hcurrent
  settled d st hd := by cases hd
  silent := rfl
  sound output hmem := by cases hmem

theorem Resumes.outside {r : RRuntimeClient σ} {status : RClientError}
    (hstatus : ¬ (status = .errProtocol ∨ status = .errAuth)) :
    Resumes sys r (.outside, [.drained status]) where
  current d hd := by cases hd
  settled d st hd := by cases hd
  silent := rfl
  sound output hmem := by
    rw [List.mem_singleton.mp hmem]
    exact not_or.mp hstatus

/-- The drain goes on with a socket the runtime still has: that is checked, unless the
    datagram was noise. -/
theorem afterDatagram_resumes {r : RRuntimeClient σ} {descriptor : Nat} {status : RClientError}
    (hnoisy : status = .errProtocol ∨ status = .errAuth →
      socketIsCurrent sys r descriptor = true) :
    Resumes sys r (afterDatagram sys r descriptor status) := by
  unfold afterDatagram
  split
  · rename_i hnoise
    exact .receiving (hnoisy hnoise)
  · rename_i hnoise
    split
    · exact .outside hnoise
    · split
      · rename_i hcurrent
        exact .receiving hcurrent
      · exact .outside (by simp)

/-- A datagram the client takes for noise has no effect at all. -/
theorem noise_ineffective {gcm : Gcm} {c : RClient} {buf : Bytes} {sender : RAddr}
    {io : DatagramIo}
    (h : (rClientOnDatagram gcm c buf sender io).status = .errProtocol ∨
      (rClientOnDatagram gcm c buf sender io).status = .errAuth) :
    ∃ rc, rClientOnDatagram gcm c buf sender io = .done rc c [] := by
  unfold rClientOnDatagram at h ⊢
  split
  · exact ⟨_, rfl⟩
  · rename_i req response hgate
    rw [hgate] at h
    unfold acceptResponse at h
    simp only at h
    split at h <;> exact absurd h (by simp [Reply.complete, Reply.done])

theorem follow_serves {s s' : RuntimeMachine σ} {drain : Drain} {m : Machine}
    {effects : List Effect} {outputs : List RuntimeOutput} (hheld : s.runtime.Held)
    (hwaiting : ∀ d, drain ≠ .receiving d)
    (hnoise : ∀ d status, drain = .delivering d status →
      status = .errProtocol ∨ status = .errAuth →
        m.frames = [] ∧ effects = [] ∧ socketIsCurrent sys s.runtime d = true)
    (h : s.follow sys drain m effects = some (s', outputs)) :
    Serves s.runtime s'.runtime outputs ∧ s'.handle = some m ∧
      (∀ d, s'.drain = .receiving d →
        socketIsCurrent sys s'.runtime d = true ∧ m.frames = []) ∧
      ∀ d status, s'.drain = .delivering d status →
        status ≠ .errProtocol ∧ status ≠ .errAuth := by
  obtain ⟨r, done, hexec, ⟨rfl, rfl, hframes⟩ | ⟨d, status, rfl, hframes, rfl, rfl⟩⟩ :=
    follow_cases h
  · refine ⟨performed_serves hheld hexec, rfl, fun d hd => absurd hd (hwaiting d), ?_⟩
    intro d status hd
    exact not_or.mp fun hstatus => hframes d status hd (hnoise d status hd hstatus).1
  · have hresumes : Resumes sys r (afterDatagram sys r d status) := by
      refine afterDatagram_resumes fun hstatus => ?_
      obtain ⟨-, rfl, hcurrent⟩ := hnoise d status rfl hstatus
      obtain ⟨rfl, -⟩ := Prod.mk.inj (Option.some.inj hexec)
      exact hcurrent
    exact ⟨(performed_serves hheld hexec).silent hresumes.silent hresumes.sound, rfl,
      fun d' hd => ⟨hresumes.current d' hd, hframes⟩,
      fun d' status' hd => absurd hd (hresumes.settled d' status')⟩

/-- What a datagram that is noise leaves behind: the client as it was. -/
theorem step_noise {gcm : Gcm} {m m' : Machine} {buf : Bytes} {sender : RAddr} {io : DatagramIo}
    {effects : List Effect}
    (hstatus : (rClientOnDatagram gcm m.client buf sender io).status = .errProtocol ∨
      (rClientOnDatagram gcm m.client buf sender io).status = .errAuth)
    (hstep : step gcm m (.datagram buf sender io) = some (m', effects)) :
    m' = m ∧ m.frames = [] ∧ effects = [] := by
  obtain ⟨rc, hreply⟩ := noise_ineffective hstatus
  simp only [step, hreply] at hstep
  split at hstep
  · rename_i hframes
    obtain ⟨rfl, rfl⟩ := Prod.mk.inj (Option.some.inj hstep)
    exact ⟨rfl, List.isEmpty_iff.mp hframes, rfl⟩
  · exact absurd hstep (by simp)

/-- Outside of the loop there is nothing to say about the drain. -/
theorem RuntimeMachine.Wf.outside {env : σ} {r : RRuntimeClient σ} {handle : Option Machine}
    {outputs : List RuntimeOutput} (hserved : Serves ⟨.fresh env, []⟩ r outputs)
    (hgone : handle = none → r.sockets = []) :
    RuntimeMachine.Wf sys env ⟨r, handle, .outside⟩ outputs where
  served := hserved
  gone hnone := ⟨hgone hnone, rfl⟩
  current _ hd := by cases hd
  idle _ _ hd := by cases hd
  waiting _ _ hd := by cases hd

theorem RuntimeMachine.Wf.read {env : σ} {s : RuntimeMachine σ} {outputs : List RuntimeOutput}
    (h : s.Wf sys env outputs) {descriptor : Nat} (hdrain : s.drain = .receiving descriptor) :
    Serves s.runtime s.runtime [.recvfrom descriptor (s.runtime.os.lookup sys descriptor)] := by
  obtain ⟨socket, hsocket, hdescriptor⟩ := List.any_eq_true.mp (h.current descriptor hdrain)
  rw [decide_eq_true_iff] at hdescriptor
  obtain ⟨found, hfound, hlookup⟩ :=
    h.served.moves.lookup sys (mem_socketIds.mpr ⟨socket, hsocket, rfl⟩)
  rw [hdescriptor] at hlookup
  rw [hlookup]
  have hheld := h.served.held
  refine ⟨.refl hheld.below, hheld, Custody.replay_used ?_, ?_⟩
  · intro e he
    rw [List.mem_singleton.mp he]
    exact ⟨found, hfound, rfl⟩
  · intro output hmem
    rw [List.mem_singleton.mp hmem]
    rfl

theorem RuntimeMachine.Wf.step {gcm : Gcm} {env : σ} {s s' : RuntimeMachine σ}
    {before outputs : List RuntimeOutput} {input : RuntimeInput} (h : s.Wf sys env before)
    (hstep : s.step sys gcm input = some (s', outputs)) : s'.Wf sys env (before ++ outputs) := by
  have hheld := h.served.held
  cases moves_of_step hstep with
  | init alloc options refresh assigned hhandle hinit =>
    obtain ⟨hserves, hgone⟩ := rRuntimeClientInit_serves sys alloc options refresh
      assigned s.runtime.os
    -- the runtime that is initialised has no sockets
    rw [hinit] at hserves hgone
    rw [← (h.gone hhandle).1] at hserves
    refine .outside (h.served.trans (hserves.silent rfl fun output hmem => ?_)) hgone
    rw [List.mem_singleton.mp hmem]
    trivial
  | host call hhandle hdrain hclient hfollow =>
    obtain ⟨hserves, hhandle', hcurrent, hwaiting⟩ := follow_serves hheld hdrain
      (fun d status hd hstatus => absurd hstatus (not_or.mpr (h.waiting d status hd))) hfollow
    exact ⟨h.served.trans hserves, fun hnone => (nomatch hhandle'.symm.trans hnone),
      fun d hd => (hcurrent d hd).1,
      fun d m hd hm => Option.some.inj (hhandle'.symm.trans hm) ▸ (hcurrent d hd).2, hwaiting⟩
  | readable d hhandle hframes hcurrent =>
    rw [List.append_nil]
    refine ⟨h.served, fun hnone => (nomatch hhandle.symm.trans hnone), fun d' hd => ?_,
      fun d' m' hd hm => Option.some.inj (hhandle.symm.trans hm) ▸ hframes,
      fun d' status hd => (nomatch hd)⟩
    obtain rfl := Drain.receiving.inj hd
    exact hcurrent
  | interrupted hdrain => exact { h with served := h.served.trans (h.read hdrain) }
  | ended received hdrain hhandle hstatus =>
    have hresumes : Resumes sys s.runtime (.outside, [.drained _]) := .outside hstatus
    exact .outside (h.served.trans ((h.read hdrain).silent hresumes.silent hresumes.sound))
      fun hnone => nomatch hhandle.symm.trans hnone
  | datagram buf sender io hdrain hhandle hclient hfollow =>
    obtain ⟨hserves, hhandle', hcurrent, hwaiting⟩ := follow_serves hheld (fun d' => by simp)
      (fun d' status hd hstatus => by
        obtain ⟨rfl, rfl⟩ := Drain.delivering.inj hd
        obtain ⟨rfl, hframes, heffects⟩ := step_noise hstatus hclient
        exact ⟨hframes, heffects, h.current _ hdrain⟩) hfollow
    exact ⟨h.served.trans ((h.read hdrain).trans hserves),
      fun hnone => (nomatch hhandle'.symm.trans hnone), fun d hd => (hcurrent d hd).1,
      fun d m hd hm => Option.some.inj (hhandle'.symm.trans hm) ▸ (hcurrent d hd).2, hwaiting⟩
  | destroy hhandle =>
    exact .outside (h.served.trans (rRuntimeClientDestroy_serves sys hheld)) fun _ => rfl

theorem RuntimeMachine.wf_of_run {gcm : Gcm} {env : σ} {inputs : List RuntimeInput}
    {s : RuntimeMachine σ} {outputs : List RuntimeOutput}
    (hrun : Run.exec (RuntimeMachine.step sys gcm) (.start env) inputs = some (s, outputs)) :
    s.Wf sys env outputs :=
  Run.exec_induction (P := fun _ s outputs => s.Wf sys env outputs)
    (.outside (.refl ⟨List.nodup_nil, fun _ hmem => nomatch hmem⟩) fun _ => rfl)
    (fun _ _ _ _ _ _ _ hbefore hstep => hbefore.step hstep) hrun

/-- Noise leaves the runtime as it was, with the drain about to receive again. -/
theorem received_noise {gcm : Gcm} {s : RuntimeMachine σ} {d : Nat} {m : Machine} {buf : Bytes}
    {sender : RAddr} {io : DatagramIo} (hdrain : s.drain = .receiving d)
    (hhandle : s.handle = some m) (hframes : m.frames = [])
    (hnoise : (rClientOnDatagram gcm m.client buf sender io).status = .errProtocol ∨
      (rClientOnDatagram gcm m.client buf sender io).status = .errAuth) :
    s.step sys gcm (.received (.datagram buf sender io)) =
      some (s, [.recvfrom d (s.runtime.os.lookup sys d)]) := by
  obtain ⟨rc, hreply⟩ := noise_ineffective hnoise
  have hclient : step gcm m (.datagram buf sender io) = some (m, []) := by
    simp only [step, hframes, hreply, List.isEmpty_nil, if_true, Machine.afterReply, Reply.done,
      Option.toList_none, List.nil_append]
    rw [← hframes]
  have hresumed :
      afterDatagram sys s.runtime d (rClientOnDatagram gcm m.client buf sender io).status =
      (.receiving d, []) := if_pos hnoise
  obtain ⟨runtime, handle, drain⟩ := s
  obtain rfl : drain = .receiving d := hdrain
  obtain rfl : handle = some m := hhandle
  simp only [RuntimeMachine.step, hclient, RuntimeMachine.follow, Run.exec_nil, hframes,
    List.isEmpty_nil, if_true, hresumed, Option.map_some, List.append_nil]

/-- **The sockets are in the runtime's custody.** Over any number of initialisations, of any
    outcome and each while the runtime has no client, and destructions, with any failures of the
    system and anything the host does in callbacks: every call on a socket is made while that
    socket is open, no socket is closed twice, and the sockets that are open are those of the
    runtime, none of them when it has no client. Datagrams leave through a socket of their
    destination's family, the drain reads from open sockets only, also after its own socket has
    been replaced under it, and a datagram that is malformed or not authentic leaves the runtime as
    it was, about to receive again. -/
theorem sockets_in_custody {gcm : Gcm} {sys : RuntimeSystem σ} {env : σ}
    {inputs : List RuntimeInput} {s : RuntimeMachine σ} {outputs : List RuntimeOutput}
    (hrun : Run.exec (RuntimeMachine.step sys gcm) (.start env) inputs = some (s, outputs)) :
    Custody.replay ∅ (outputs.filterMap RuntimeOutput.custody) =
        some (socketIds s.runtime.sockets) ∧
      (s.handle = none → s.runtime.sockets = []) ∧
      (∀ output ∈ outputs, output.Sound) ∧
      ∀ d m buf sender io, s.drain = .receiving d → s.handle = some m →
        ((rClientOnDatagram gcm m.client buf sender io).status = .errProtocol ∨
          (rClientOnDatagram gcm m.client buf sender io).status = .errAuth) →
        s.step sys gcm (.received (.datagram buf sender io)) =
          some (s, [.recvfrom d (s.runtime.os.lookup sys d)]) := by
  have hwf := RuntimeMachine.wf_of_run hrun
  refine ⟨hwf.served.replayed, fun hgone => (hwf.gone hgone).1, hwf.served.sound, ?_⟩
  intro d m buf sender io hdrain hhandle hnoise
  exact received_noise hdrain hhandle (hwf.idle d m hdrain hhandle) hnoise

/-- A system without failures; the number of a descriptor comes back with the fourth socket
    after the one that had it. -/
def quietSystem : RuntimeSystem Unit where
  answer env _ := (none, env)
  transmit env _ _ packet := (⟨0, some packet.length⟩, env)
  descriptor id := 3 + id % 4

def meteredOptions : RRuntimeOptions where
  tenantDnsName := some [120]
  authKey := some meteredKey.encode
  serverHost := none
  serverPort := 0
  requestPolicy := none
  profileRequests := false

def Call.arriving : Call → Received
  | .datagram buf sender io => .datagram buf sender io
  | _ => .wouldBlock

/-- One request; its response, behind some noise, asks for a rebind, which replaces the
    socket that is being drained when the callback has returned. The drain of one of the new
    sockets finds nothing. -/
def rebindInputs : List RuntimeInput :=
  [.init .granted meteredOptions sampleArgs.refresh (fun _ => 50000), .host (sampleSubmit 1 100),
    .readable 3, .received (.datagram [] { sa := [], len := 0 } sampleDatagramIo),
    .received .interrupted, .received (sampleDatagram 1 3 0 105).arriving, .host .callbackReturn,
    .readable 5, .received .wouldBlock]

theorem sockets_in_custody_rebound :
    (∃ s outputs, Run.exec (RuntimeMachine.step quietSystem noGcm) (.start ()) rebindInputs =
        some (s, outputs) ∧
      s.runtime.sockets = [⟨2, .inet, 50001⟩, ⟨3, .inet6, 50001⟩] ∧
      Custody.replay ∅ (outputs.filterMap RuntimeOutput.custody) =
        some (socketIds [⟨2, .inet, 50001⟩, ⟨3, .inet6, 50001⟩])) ∧
    ∃ s outputs found, Run.exec (RuntimeMachine.step quietSystem noGcm) (.start ())
        (rebindInputs.take 3) = some (s, outputs) ∧ s.drain = .receiving 3 ∧
      s.step quietSystem noGcm (.received (.datagram [] { sa := [], len := 0 } sampleDatagramIo)) =
        some (s, [.recvfrom 3 found]) := by
  refine ⟨?_, ?_⟩
  · obtain ⟨⟨s, outputs⟩, hrun, hsockets⟩ := Option.map_eq_some_iff.mp
      (show (Run.exec (RuntimeMachine.step quietSystem noGcm) (.start ()) rebindInputs).map
        (fun last => last.1.runtime.sockets) =
          some [⟨2, .inet, 50001⟩, ⟨3, .inet6, 50001⟩] by decide +kernel)
    have hcustody := (sockets_in_custody hrun).1
    rw [show s.runtime.sockets = _ from hsockets] at hcustody
    exact ⟨s, outputs, hrun, hsockets, hcustody⟩
  · obtain ⟨⟨s, outputs⟩, hrun, hread⟩ := Option.map_eq_some_iff.mp
      (show (Run.exec (RuntimeMachine.step quietSystem noGcm) (.start ())
        (rebindInputs.take 3)).map (fun last => (last.1.drain, last.1.handle.isSome)) =
          some (.receiving 3, true) by decide +kernel)
    obtain ⟨hdrain, hhandle⟩ := Prod.mk.inj hread
    obtain ⟨m, hm⟩ := Option.isSome_iff_exists.mp hhandle
    exact ⟨s, outputs, _, hrun, hdrain,
      (sockets_in_custody hrun).2.2.2 3 m [] _ sampleDatagramIo hdrain hm (.inl rfl)⟩

end RlClient
