import RlClient.Since
import RlClient.Steering

/-!
# No steering request is lost or invented

A response may ask the client to change its source port. The request remembers
it, completion moves it to the client, and the notifier hands it to the hook
when the last request has left. Along every run the pending flag is the trace's
own account of what is owed: some request that was asked to rebind has completed
since the list was last found empty.
-/

namespace RlClient

/-! ### The flag of a request -/

def AskedToRebind (h : Handle) (trace : List Effect) : Prop :=
  ∃ response ∈ acceptedBy h trace, response.steeringByte = 0

theorem recordResponse_steeringRebind (req : RClientReq) (response : RResponse) (sender : RAddr)
    (alloc : SeenAlloc) : (recordResponse req response sender alloc).steeringRebind =
      (response.steeringByte == 0 || req.steeringRebind) := by
  obtain ⟨addrs, addrCap, heq⟩ := recordResponse_eq req response sender alloc
  rw [heq]

/-- A request carries the flag exactly if it was asked to rebind. -/
theorem run_steeringRebind {gcm : Gcm} {args : CreateArgs} {c : RClient}
    (hcreate : rClientCreate args = .ok c) {calls : List Call} {m : Machine}
    {trace : List Effect} (hrun : run gcm c calls = some (m, trace)) {h : Handle}
    {req : RClientReq} (hview : (m.view h).request? = some req) :
    req.steeringRebind = true ↔ AskedToRebind h trace := by
  have hinv := request_induction (h := h) hcreate
    (P := fun _ req trace => req.steeringRebind = true ↔ AskedToRebind h trace)
    (fun _ _ _ _ hasked => hasked) ?_ ?_ hrun hview
  · unfold AskedToRebind at hinv
    rw [acceptedBy_about] at hinv
    exact hinv
  · intro calls args io req gapUnits built _
    have hflag : (firstRound c req gapUnits).steeringRebind = false :=
      congrArg RClientReq.steeringRebind built.eq
    unfold AskedToRebind
    rw [hflag, acceptedBy_append, acceptedBy_sends sendEffects_isSend]
    simp [acceptedBy, Effect.accepted?]
  · intro calls call req req' trace effects view hasked hstep hheld
    unfold AskedToRebind at hasked ⊢
    rw [acceptedBy_append]
    rcases hstep.memory hheld with ⟨hnone, hsame⟩ | ⟨buf, sender, io, response, -, hone, hsame⟩
    · rw [hnone, List.append_nil, hsame.steeringRebind]
      exact hasked
    · rw [hone, hsame.steeringRebind, recordResponse_steeringRebind, Bool.or_eq_true, hasked,
        beq_iff_eq]
      simp only [List.mem_append, List.mem_singleton]
      constructor
      · rintro (hzero | ⟨r, hr, hzero⟩)
        · exact ⟨response, .inr rfl, hzero⟩
        · exact ⟨r, .inl hr, hzero⟩
      · rintro ⟨r, hr | rfl, hzero⟩
        · exact .inr ⟨r, hr, hzero⟩
        · exact .inl hzero

/-! ### What is owed -/

def RebindCompletion (before : List Effect) (e : Effect) : Prop :=
  ∃ h status result, e = .callback (some h) status result ∧ AskedToRebind h before

def Drained (e : Effect) : Prop := e = .drained

def HookCalled (e : Effect) : Prop := ∃ keep, e = .steering keep

/-- What settles a debt: a mark that every call of the hook leaves in the trace, and
    no other step. -/
structure Settles (stop : Effect → Prop) : Prop where
  quiet : ∀ e, e.steers = false → ¬ stop e
  completion : ∀ h status result, ¬ stop (.callback (some h) status result)
  signal : stop .drained ∨ stop (.steering false)

theorem settles_drained : Settles Drained := by
  refine ⟨?_, ?_, .inl rfl⟩
  · rintro e he rfl
    exact absurd he (by simp [Effect.steers])
  · intro h status result hstop
    exact absurd hstop (by simp [Drained])

theorem settles_hookCalled : Settles HookCalled := by
  refine ⟨?_, ?_, .inr ⟨false, rfl⟩⟩
  · rintro e he ⟨keep, rfl⟩
    exact absurd he (by simp [Effect.steers])
  · rintro h status result ⟨keep, hstop⟩
    exact absurd hstop (by simp)

theorem not_rebindCompletion {e : Effect}
    (he : ∀ h status result, e ≠ .callback (some h) status result) (before : List Effect) :
    ¬ RebindCompletion before e := by
  rintro ⟨h, status, result, rfl, -⟩
  exact he h status result rfl

section

variable {stop : Effect → Prop} {trace : List Effect}

theorem Settles.append_quiet (hsettles : Settles stop) {effects : List Effect}
    (heffects : ∀ e ∈ effects, e.steers = false) :
    Since RebindCompletion stop (trace ++ effects) ↔ Since RebindCompletion stop trace := by
  apply Since.append_quiet
  intro e he
  refine ⟨not_rebindCompletion ?_, hsettles.quiet e (heffects e he)⟩
  rintro h status result rfl
  exact absurd (heffects _ he) (by simp [Effect.steers])

/-- A drain alone changes nothing when nothing is owed. -/
theorem not_owed_drained (h : ¬ Since RebindCompletion stop trace) :
    ¬ Since RebindCompletion stop (trace ++ [.drained]) := by
  rw [Since.snoc]
  rintro (hevent | ⟨howed, -⟩)
  · exact not_rebindCompletion (by simp) _ hevent
  · exact h howed

/-- After a drain with a call of the hook nothing is owed. -/
theorem Settles.not_owed_signalled (hsettles : Settles stop) :
    ¬ Since RebindCompletion stop (trace ++ [.drained, .steering false]) := by
  rw [show trace ++ [.drained, .steering false] =
      (trace ++ [.drained]) ++ [.steering false] by simp,
    Since.snoc, Since.snoc]
  rintro (hevent | ⟨hevent | ⟨-, hdrained⟩, hsteering⟩)
  · exact not_rebindCompletion (by simp) _ hevent
  · exact not_rebindCompletion (by simp) _ hevent
  · rcases hsettles.signal with hstop | hstop
    · exact hdrained hstop
    · exact hsteering hstop

/-- The notifier pays what is owed. -/
theorem Settles.notified (hsettles : Settles stop) {c : RClient}
    (hhook : c.onSteeringFeedback = true)
    (howed : c.steeringRebindPending = true ↔ Since RebindCompletion stop trace) :
    (rNotifySteeringWhenDrained c).1.steeringRebindPending = true ↔
      Since RebindCompletion stop (trace ++ (rNotifySteeringWhenDrained c).2) := by
  rcases rNotifySteeringWhenDrained_cases c with
    ⟨-, heq⟩ | ⟨-, -, -, heq⟩ | ⟨-, hnot, heq⟩
  · rw [heq, List.append_nil]
    exact howed
  · rw [heq]
    exact iff_of_false Bool.false_ne_true hsettles.not_owed_signalled
  · have hpending : ¬ c.steeringRebindPending = true := fun hpending => hnot ⟨hpending, hhook⟩
    rw [heq]
    exact iff_of_false hpending (not_owed_drained (mt howed.mpr hpending))

/-- One step keeps the account: the pending flag says whether anything is owed. -/
theorem SteerStep.owed (hsettles : Settles stop) {m m' : Machine} {call : Call}
    {effects : List Effect} (hstep : SteerStep m call m' effects)
    (hhook : m.client.onSteeringFeedback = true)
    (hasked : ∀ req front status result, m'.frames = [.completing req] →
      effects = front ++ [.callback (some req.handle) status result] →
      (req.steeringRebind = true ↔ AskedToRebind req.handle (trace ++ front)))
    (howed : m.client.steeringRebindPending = true ↔ Since RebindCompletion stop trace) :
    m'.client.steeringRebindPending = true ↔ Since RebindCompletion stop (trace ++ effects) := by
  cases hstep with
  | quiet _ _ hpending hinflight hframes heffects =>
    rw [hpending, hsettles.append_quiet heffects]
    exact howed
  | completed _ req front status result hframes hrunning hpending hfront =>
    rw [hpending, Bool.or_eq_true, howed, hasked req front status result hrunning rfl,
      ← List.append_assoc, Since.snoc, hsettles.append_quiet hfront]
    constructor
    · rintro (hbefore | hnow)
      · exact .inr ⟨hbefore, hsettles.completion _ _ _⟩
      · exact .inl ⟨req.handle, status, result, rfl, hnow⟩
    · rintro (⟨h, status', result', heq, hnow⟩ | ⟨hbefore, -⟩)
      · obtain ⟨hhandle, -, -⟩ := Effect.callback.inj heq
        obtain rfl := Option.some.inj hhandle
        exact .inr hnow
      · exact .inl hbefore
  | cancelled h hcall hmem =>
    have hquiet : ∀ e ∈ [Effect.cancelled h], e.steers = false := by simp [Effect.steers]
    rw [List.append_cons]
    refine hsettles.notified hhook ?_
    rw [hsettles.append_quiet hquiet]
    exact howed
  | returned req frames hframes => exact hsettles.notified hhook howed

end

theorem run_owed {gcm : Gcm} {args : CreateArgs} {c : RClient}
    (hcreate : rClientCreate args = .ok c) (hhook : c.onSteeringFeedback = true)
    {stop : Effect → Prop} (hsettles : Settles stop) {calls : List Call} {m : Machine}
    {trace : List Effect} (hrun : run gcm c calls = some (m, trace)) :
    m.client.steeringRebindPending = true ↔ Since RebindCompletion stop trace := by
  refine Run.exec_induction (P := fun _ m trace =>
    m.client.steeringRebindPending = true ↔ Since RebindCompletion stop trace) ?_ ?_ hrun
  · have hclear : (Machine.init c).client.steeringRebindPending = false :=
      (rClientCreate_spec hcreate).2.1
    rw [hclear]
    exact iff_of_false Bool.false_ne_true Since.not_nil
  · intro calls m trace call m' effects hrun howed hstep
    have hwf := run_wf hcreate hrun
    refine (step_steers hwf hstep).owed hsettles
      ((onSteeringFeedback_of_static hwf.static).trans hhook) ?_ howed
    rintro req front status result hframes rfl
    have hrun' : run gcm c (calls ++ [call]) =
        some (m', trace ++ (front ++ [.callback (some req.handle) status result])) :=
      Run.exec_snoc.mpr ⟨m, trace, _, hrun, hstep, rfl⟩
    have hview : (m'.view req.handle).request? = some req := by
      rw [view_of_running (run_wf hcreate hrun') (by rw [hframes]; exact List.mem_cons_self)]
      rfl
    -- the callback accepts nothing itself
    have haccepted : acceptedBy req.handle (trace ++ front) = acceptedBy req.handle
        (trace ++ (front ++ [.callback (some req.handle) status result])) := by
      simp [acceptedBy, Effect.accepted?]
    unfold AskedToRebind
    rw [haccepted]
    exact run_steeringRebind hcreate hrun' hview

/-! ### Nothing is left behind -/

theorem notified_waits {c : RClient} (hhook : c.onSteeringFeedback = true)
    (hpending : (rNotifySteeringWhenDrained c).1.steeringRebindPending = true) :
    (rNotifySteeringWhenDrained c).1.inflight ≠ [] := by
  rcases rNotifySteeringWhenDrained_cases c with
    ⟨hinflight, heq⟩ | ⟨-, -, -, heq⟩ | ⟨-, hnot, heq⟩
  · rw [heq]
    exact hinflight
  · rw [heq] at hpending
    exact absurd hpending (by simp)
  · rw [heq] at hpending
    exact absurd ⟨hpending, hhook⟩ hnot

/-- Unless the callback of a request is running, a pending rebind waits for a
    request in flight. -/
def Waits (m : Machine) : Prop :=
  (∀ req, Frame.completing req ∉ m.frames) → m.client.steeringRebindPending = true →
    m.client.inflight ≠ []

theorem SteerStep.waits {m m' : Machine} {call : Call} {effects : List Effect}
    (hstep : SteerStep m call m' effects) (hhook : m.client.onSteeringFeedback = true)
    (h : Waits m) : Waits m' := by
  intro hframes' hpending'
  cases hstep with
  | quiet _ _ hpending hinflight hframes heffects =>
    have hnone : ∀ req, Frame.completing req ∉ m.frames := by
      intro req hmem
      rcases hframes with hframes | hframes | hframes
      · exact hframes' req (by rw [hframes]; exact hmem)
      · exact hframes' req (by rw [hframes]; exact List.mem_cons_of_mem _ hmem)
      · rw [hframes] at hmem
        rcases List.mem_cons.mp hmem with hempty | hmem
        · exact absurd hempty (by simp)
        · exact hframes' req hmem
    intro hnil
    exact h hnone (hpending ▸ hpending') (hinflight hnil)
  | completed _ req front status result hframes hrunning =>
    exact absurd (by rw [hrunning]; exact List.mem_cons_self) (hframes' req)
  | cancelled h hcall hmem => exact notified_waits hhook hpending'
  | returned req frames hframes => exact notified_waits hhook hpending'

theorem run_waits {gcm : Gcm} {args : CreateArgs} {c : RClient}
    (hcreate : rClientCreate args = .ok c) (hhook : c.onSteeringFeedback = true)
    {calls : List Call} {m : Machine} {trace : List Effect}
    (hrun : run gcm c calls = some (m, trace)) : Waits m := by
  refine Run.exec_induction (P := fun _ m _ => Waits m) ?_ ?_ hrun
  · intro _ hpending
    have hclear : (Machine.init c).client.steeringRebindPending = false :=
      (rClientCreate_spec hcreate).2.1
    rw [hclear] at hpending
    exact absurd hpending (by simp)
  · intro calls m trace call m' effects hrun hwaits hstep
    have hwf := run_wf hcreate hrun
    exact (step_steers hwf hstep).waits ((onSteeringFeedback_of_static hwf.static).trans hhook)
      hwaits

/-! ### Drains -/

theorem rNotifySteeringWhenDrained_drains {c : RClient} (hhook : c.onSteeringFeedback = true)
    {left right : List Effect}
    (h : (rNotifySteeringWhenDrained c).2 = left ++ .drained :: right) :
    left = [] ∧ ((c.steeringRebindPending = true ∧ right = [.steering false]) ∨
      (¬ c.steeringRebindPending = true ∧ right = [])) := by
  rcases rNotifySteeringWhenDrained_cases c with
    ⟨-, heq⟩ | ⟨-, hpending, -, heq⟩ | ⟨-, hnot, heq⟩
  · rw [heq] at h
    exact absurd h (by simp)
  · rw [heq] at h
    cases left with
    | nil => exact ⟨rfl, .inl ⟨hpending, (List.cons.inj h).2.symm⟩⟩
    | cons e left =>
      have hmem : Effect.drained ∈ [Effect.steering false] := by
        rw [(List.cons.inj h).2]
        simp
      exact absurd hmem (by simp)
  · rw [heq] at h
    have hpending : ¬ c.steeringRebindPending = true := fun hpending => hnot ⟨hpending, hhook⟩
    cases left with
    | nil => exact ⟨rfl, .inr ⟨hpending, (List.cons.inj h).2.symm⟩⟩
    | cons e left => exact absurd (List.cons.inj h).2 (by simp)

/-- A drain inside a step is followed by a call of the hook exactly if a rebind was
    pending. -/
theorem SteerStep.drains {m m' : Machine} {call : Call} {effects left right : List Effect}
    (hstep : SteerStep m call m' effects) (hhook : m.client.onSteeringFeedback = true)
    (heffects : effects = left ++ .drained :: right) :
    (∀ e ∈ left, e.steers = false) ∧
      ((m.client.steeringRebindPending = true ∧ right = [.steering false]) ∨
        (¬ m.client.steeringRebindPending = true ∧ right = [])) := by
  have hmem : Effect.drained ∈ effects := by
    rw [heffects]
    simp
  cases hstep with
  | quiet _ _ hpending hinflight hframes hquiet =>
    exact absurd (hquiet _ hmem) (by simp [Effect.steers])
  | completed _ req front' status result hframes hrunning hpending hfront =>
    rcases List.mem_append.mp hmem with hmem | hmem
    · exact absurd (hfront _ hmem) (by simp [Effect.steers])
    · exact absurd hmem (by simp)
  | cancelled h hcall hany =>
    cases left with
    | nil => exact absurd (List.cons.inj heffects).1 (by simp)
    | cons e left =>
      obtain ⟨rfl, hnotified⟩ := List.cons.inj heffects
      have hhook' : (rRequestRemove m.client h).onSteeringFeedback = true := hhook
      obtain ⟨rfl, hright⟩ := rNotifySteeringWhenDrained_drains hhook' hnotified
      exact ⟨by simp [Effect.steers], hright⟩
  | returned req frames hframes =>
    obtain ⟨rfl, hright⟩ := rNotifySteeringWhenDrained_drains hhook heffects
    exact ⟨fun e he => absurd he List.not_mem_nil, hright⟩

section

variable {gcm : Gcm} {args : CreateArgs} {c : RClient} (hcreate : rClientCreate args = .ok c)
  (hhook : c.onSteeringFeedback = true)
include hcreate hhook

/-- Every call of the hook answers the drain right before it, and something was
    owed since the previous call. -/
theorem hook_owed {calls : List Call} {m : Machine} {pre post : List Effect} {keep : Bool}
    (hrun : run gcm c calls = some (m, pre ++ .steering keep :: post)) :
    Since RebindCompletion HookCalled pre ∧ ∃ front, pre = front ++ [.drained] := by
  obtain ⟨calls₁, call, calls₂, m₁, trace₁, m₂, left, right, -, hrun₁, hstep, rfl⟩ :=
    Run.exec_locate hrun
  obtain ⟨-, -, -, -, hpending, quiet, rfl, hquiet⟩ :=
    (step_steers (run_wf hcreate hrun₁) hstep).calls_hook (run_outermost hcreate hrun₁) rfl
  have howed := (run_owed hcreate hhook settles_hookCalled hrun₁).mp hpending
  have hstays : Since RebindCompletion HookCalled (trace₁ ++ quiet) :=
    (settles_hookCalled.append_quiet hquiet).mpr howed
  refine ⟨?_, trace₁ ++ quiet, by rw [List.append_assoc]⟩
  rw [← List.append_assoc, Since.snoc]
  exact .inr ⟨hstays, by simp [HookCalled]⟩

/-- Every drain is followed by a call of the hook exactly if something was owed
    since the previous drain. -/
theorem drain_answered {calls : List Call} {m : Machine} {trace : List Effect}
    (hrun : run gcm c calls = some (m, trace)) :
    ∀ pre post, trace = pre ++ .drained :: post →
      (Since RebindCompletion Drained pre ↔ ∃ keep rest, post = .steering keep :: rest) := by
  refine Run.exec_induction (P := fun _ _ trace => ∀ pre post, trace = pre ++ .drained :: post →
    (Since RebindCompletion Drained pre ↔ ∃ keep rest, post = .steering keep :: rest)) ?_ ?_ hrun
  · intro pre post hnil
    exact absurd hnil (by simp)
  intro calls m trace call m' effects hrun hbefore hstep pre post hsplit
  have hwf := run_wf hcreate hrun
  have hsteers := step_steers hwf hstep
  -- a drain that is part of this step
  have hnow : ∀ left, pre = trace ++ left → effects = left ++ .drained :: post →
      (Since RebindCompletion Drained pre ↔ ∃ keep rest, post = .steering keep :: rest) := by
    rintro left rfl heffects
    obtain ⟨hquiet, hanswer⟩ :=
      hsteers.drains ((onSteeringFeedback_of_static hwf.static).trans hhook) heffects
    rw [settles_drained.append_quiet hquiet, ← run_owed hcreate hhook settles_drained hrun]
    rcases hanswer with ⟨hpending, rfl⟩ | ⟨hpending, rfl⟩
    · exact iff_of_true hpending ⟨false, [], rfl⟩
    · exact iff_of_false hpending (by simp)
  rcases List.append_eq_append_iff.mp hsplit with ⟨left, hpre, heffects⟩ | ⟨rest, htrace, hpost⟩
  · exact hnow left hpre heffects
  · cases rest with
    | nil => exact hnow [] (by rw [htrace]; simp) hpost.symm
    | cons e rest =>
      obtain ⟨rfl, rfl⟩ := List.cons.inj hpost
      rw [hbefore pre rest htrace]
      cases rest with
      | nil =>
        -- the step that follows does not begin with a call of the hook
        refine iff_of_false (by simp) ?_
        rintro ⟨keep, rest, hbegins⟩
        obtain ⟨-, -, -, -, -, quiet, hfront, -⟩ := hsteers.calls_hook
          (run_outermost hcreate hrun) (show effects = [] ++ .steering keep :: rest from hbegins)
        exact absurd hfront (by simp)
      | cons e rest => simp

/-- Between a drain and the next one the hook is called at most once, at once. -/
theorem hook_at_once {calls : List Call} {m : Machine} {pre mid post : List Effect} {keep : Bool}
    (hrun : run gcm c calls = some (m, pre ++ (mid ++ .steering keep :: post)))
    (hmid : Effect.drained ∉ mid) : mid = [] := by
  rw [← List.append_assoc] at hrun
  obtain ⟨-, front, hfront⟩ := hook_owed hcreate hhook hrun
  rcases List.eq_nil_or_concat mid with rfl | ⟨mid', e, rfl⟩
  · rfl
  · rw [List.concat_eq_append, ← List.append_assoc] at hfront
    obtain ⟨-, hlast⟩ := List.append_inj' hfront rfl
    obtain rfl := (List.cons.inj hlast).1
    exact absurd (by simp) hmid

end

def Effect.isSteering : Effect → Bool
  | .steering _ => true
  | _ => false

theorem isSteering_iff {e : Effect} : e.isSteering = true ↔ ∃ keep, e = .steering keep := by
  cases e <;> simp [Effect.isSteering]

/-- **Steering is neither lost nor invented.** While no client call is on the
    stack, a pending rebind waits for a request in flight. Every call of the hook
    is preceded, since the previous one, by the completion of a request that was
    asked to rebind, and comes right behind a drain. From a drain to the next one,
    or to the end of the run, the hook is called once if such a request completed
    since the previous drain, and otherwise not at all. -/
theorem steering_conserved {gcm : Gcm} {args : CreateArgs} {c : RClient}
    (hcreate : rClientCreate args = .ok c) (hhook : c.onSteeringFeedback = true)
    {calls : List Call} {m : Machine} {trace : List Effect}
    (hrun : run gcm c calls = some (m, trace)) :
    (m.frames = [] → m.client.steeringRebindPending = true → m.client.inflight ≠ []) ∧
    (∀ pre keep post, trace = pre ++ .steering keep :: post →
      Since RebindCompletion HookCalled pre ∧ ∃ front, pre = front ++ [.drained]) ∧
    ∀ pre mid post, trace = pre ++ .drained :: (mid ++ post) → Effect.drained ∉ mid →
      (post = [] ∨ ∃ rest, post = .drained :: rest) →
      (Since RebindCompletion Drained pre → mid.countP Effect.isSteering = 1) ∧
      (¬ Since RebindCompletion Drained pre → mid.countP Effect.isSteering = 0) := by
  refine ⟨?_, ?_, ?_⟩
  · intro hidle
    apply run_waits hcreate hhook hrun
    intro req
    rw [hidle]
    exact List.not_mem_nil
  · rintro pre keep post rfl
    exact hook_owed hcreate hhook hrun
  · rintro pre mid post rfl hmid hpost
    have hanswer := drain_answered hcreate hhook hrun pre (mid ++ post) rfl
    have hfirst : ∀ before keep after, mid = before ++ .steering keep :: after →
        before = [] := by
      rintro before keep after rfl
      have hrun' : run gcm c calls = some (m, (pre ++ [.drained]) ++
          (before ++ .steering keep :: (after ++ post))) := by simpa using hrun
      exact hook_at_once hcreate hhook hrun' fun hmem => hmid (List.mem_append_left _ hmem)
    refine ⟨?_, ?_⟩
    · intro howed
      obtain ⟨keep, rest, hbegins⟩ := hanswer.mp howed
      cases mid with
      | nil =>
        rcases hpost with rfl | ⟨rest', rfl⟩
        · exact absurd hbegins (by simp)
        · exact absurd (List.cons.inj hbegins).1 (by simp)
      | cons e mid =>
        obtain rfl := (List.cons.inj hbegins).1
        have hnone : mid.countP Effect.isSteering = 0 := by
          rw [List.countP_eq_zero]
          intro e he hsteering
          obtain ⟨keep', rfl⟩ := isSteering_iff.mp hsteering
          obtain ⟨before, after, rfl⟩ := List.append_of_mem he
          exact absurd (hfirst (.steering keep :: before) keep' after rfl) (by simp)
        rw [List.countP_cons_of_pos rfl, hnone]
    · intro hnot
      rw [List.countP_eq_zero]
      intro e he hsteering
      obtain ⟨keep, rfl⟩ := isSteering_iff.mp hsteering
      obtain ⟨before, after, rfl⟩ := List.append_of_mem he
      obtain rfl := hfirst before keep after rfl
      exact hnot (hanswer.mpr ⟨keep, after ++ post, rfl⟩)

/-- Two requests are asked to rebind and complete one after the other: the hook is
    called once, when the second callback has returned. -/
theorem steering_conserved_coalesced :
    ∃ m trace, run noGcm sampleClient
        [sampleSubmit 1 100, sampleSubmit 2 101, sampleDatagram 1 3 0 105, .callbackReturn,
          sampleDatagram 2 3 0 106, .callbackReturn] = some (m, trace) ∧
      trace.countP Effect.isSteering = 1 ∧
      ∀ pre keep post, trace = pre ++ .steering keep :: post →
        Since RebindCompletion HookCalled pre ∧ ∃ front, pre = front ++ [.drained] := by
  obtain ⟨⟨m, trace⟩, hrun, hread⟩ := Option.map_eq_some_iff.mp
    (show (run noGcm sampleClient
      [sampleSubmit 1 100, sampleSubmit 2 101, sampleDatagram 1 3 0 105, .callbackReturn,
        sampleDatagram 2 3 0 106, .callbackReturn]).map (fun s =>
          s.2.countP Effect.isSteering) = some 1 by decide +kernel)
  exact ⟨m, trace, hrun, hread, (steering_conserved sampleClient_created rfl hrun).2.1⟩

end RlClient
