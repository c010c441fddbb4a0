import RlClient.Admission
import RlClient.Completion
import RlClient.ContentId
import RlClient.Isolation
import RlClient.Since

/-!
# The life of an admission

What an admission is for is said by `Ticket`: it is prepared, becomes pending, is
granted or comes to nothing, and a granted one is worth one run of protected work and
one report. The flags of `r_admission_request_t` are shown to follow it along every
run, and the storage to hold a handle exactly while its request is in flight. What may
have happened before protected work or a report is then read off the ticket.
-/

namespace RlClient

/-! ### The ticket -/

/-- What an admission is worth. -/
inductive Ticket where
  | blank
  | fresh
  | pending
  | granted (worked reported : Bool)
deriving DecidableEq

/-- The ticket behind an event; `none` for an event that cannot come. -/
def Ticket.next : Ticket → AdmissionEvent → Option Ticket
  | t, .client _ => some t
  | t, .worked _ => some t
  | .pending, .prepared => none
  | _, .prepared => some .fresh
  | .pending, .cleared => none
  | _, .cleared => some .blank
  | .fresh, .submitted => some .pending
  | .pending, .completed _ outcome =>
      some (if outcome.allowed then .granted false false else .blank)
  | .pending, .cancelled => some .blank
  | .granted false reported, .work => some (.granted true reported)
  | .granted worked false, .reported .ok => some (.granted worked true)
  | t, .reported status => if status = .ok then none else some t
  | _, _ => none

def Ticket.follow (t : Ticket) (trace : List AdmissionEvent) : Option Ticket :=
  trace.foldlM Ticket.next t

theorem Ticket.follow_append (t : Ticket) (l r : List AdmissionEvent) :
    t.follow (l ++ r) = (t.follow l).bind (·.follow r) :=
  List.foldlM_append

theorem Ticket.follow_snoc {t t' : Ticket} {trace : List AdmissionEvent} {e : AdmissionEvent} :
    t.follow (trace ++ [e]) = some t' ↔ ∃ t₁, t.follow trace = some t₁ ∧ t₁.next e = some t' := by
  rw [follow_append, Option.bind_eq_some_iff]
  simp [follow]

theorem Ticket.follow_clients (t : Ticket) (effects : List Effect) :
    t.follow (effects.map .client) = some t := by
  induction effects with
  | nil => rfl
  | cons e rest ih => exact ih

/-! ### What has happened since the last preparation -/

/-- An event of some kind has happened since the last successful preparation. -/
def Happened (kind : AdmissionEvent → Bool) (trace : List AdmissionEvent) : Prop :=
  Since (fun _ e => kind e = true) (· = .prepared) trace

def AdmissionEvent.allows : AdmissionEvent → Bool
  | .completed _ outcome => outcome.allowed
  | _ => false

/-- A denial, an error or a cancellation. -/
def AdmissionEvent.refuses : AdmissionEvent → Bool
  | .completed _ outcome => !outcome.allowed
  | .cancelled => true
  | _ => false

def AdmissionEvent.isWork : AdmissionEvent → Bool
  | .work => true
  | _ => false

def AdmissionEvent.isReport : AdmissionEvent → Bool
  | .reported .ok => true
  | _ => false

theorem happened_snoc {kind : AdmissionEvent → Bool} {trace : List AdmissionEvent}
    {e : AdmissionEvent} :
    Happened kind (trace ++ [e]) ↔ kind e = true ∨ (Happened kind trace ∧ e ≠ .prepared) :=
  Since.snoc

/-- The request was admitted since the last preparation, and nothing has taken the
    admission back. -/
structure Licensed (trace : List AdmissionEvent) : Prop where
  allowed : Happened AdmissionEvent.allows trace
  unrefused : ¬ Happened AdmissionEvent.refuses trace

/-- Nothing has come of the preparation yet. -/
structure Unused (trace : List AdmissionEvent) : Prop where
  unrefused : ¬ Happened AdmissionEvent.refuses trace
  unworked : ¬ Happened AdmissionEvent.isWork trace
  unreported : ¬ Happened AdmissionEvent.isReport trace

def Ticket.Past (trace : List AdmissionEvent) : Ticket → Prop
  | .blank => True
  | .fresh => Unused trace
  | .pending => Unused trace
  | .granted worked reported =>
      Licensed trace ∧ (worked = false → ¬ Happened AdmissionEvent.isWork trace) ∧
        (reported = false → ¬ Happened AdmissionEvent.isReport trace)

/-- An event that is of none of the kinds and is no preparation. -/
structure AdmissionEvent.Idle (e : AdmissionEvent) : Prop where
  allows : e.allows = false
  refuses : e.refuses = false
  isWork : e.isWork = false
  isReport : e.isReport = false
  unprepared : e ≠ .prepared

theorem happened_of_other {kind : AdmissionEvent → Bool} {e : AdmissionEvent}
    (hkind : kind e = false) (hprepared : e ≠ .prepared) (trace : List AdmissionEvent) :
    Happened kind (trace ++ [e]) ↔ Happened kind trace := by
  rw [happened_snoc, hkind]
  simp [hprepared]

theorem not_happened_prepared {kind : AdmissionEvent → Bool} (hkind : kind .prepared = false)
    (trace : List AdmissionEvent) : ¬ Happened kind (trace ++ [.prepared]) := by
  rw [happened_snoc, hkind]
  simp

/-- An idle event leaves the past of every ticket as it is. -/
theorem Ticket.Past.idle {trace : List AdmissionEvent} {e : AdmissionEvent} (hidle : e.Idle)
    {t : Ticket} (hpast : t.Past trace) : t.Past (trace ++ [e]) := by
  have hallows := happened_of_other hidle.allows hidle.unprepared trace
  have hrefuses := happened_of_other hidle.refuses hidle.unprepared trace
  have hwork := happened_of_other hidle.isWork hidle.unprepared trace
  have hreport := happened_of_other hidle.isReport hidle.unprepared trace
  have hunused : Unused trace → Unused (trace ++ [e]) := by
    rintro ⟨h₁, h₂, h₃⟩
    exact ⟨hrefuses.not.mpr h₁, hwork.not.mpr h₂, hreport.not.mpr h₃⟩
  cases t with
  | blank => trivial
  | fresh => exact hunused hpast
  | pending => exact hunused hpast
  | granted worked reported =>
    obtain ⟨⟨hallowed, hunrefused⟩, hworked, hreported⟩ := hpast
    exact ⟨⟨hallows.mpr hallowed, hrefuses.not.mpr hunrefused⟩,
      fun h => hwork.not.mpr (hworked h), fun h => hreport.not.mpr (hreported h)⟩

theorem Ticket.next_work {t t' : Ticket} (hnext : t.next .work = some t') :
    ∃ reported, t = .granted false reported ∧ t' = .granted true reported := by
  cases t with
  | granted worked reported =>
    cases worked with
    | false => exact ⟨reported, rfl, (Option.some.inj hnext).symm⟩
    | true => exact absurd hnext (by simp [Ticket.next])
  | _ => exact absurd hnext (by simp [Ticket.next])

theorem Ticket.next_report {t t' : Ticket} (hnext : t.next (.reported .ok) = some t') :
    ∃ worked, t = .granted worked false ∧ t' = .granted worked true := by
  cases t with
  | granted worked reported =>
    cases reported with
    | false => exact ⟨worked, rfl, by cases worked <;> exact (Option.some.inj hnext).symm⟩
    | true => exact absurd hnext (by cases worked <;> simp [Ticket.next])
  | _ => exact absurd hnext (by simp [Ticket.next])

theorem Ticket.next_failed {t : Ticket} {status : RClientError} (hstatus : status ≠ .ok) :
    t.next (.reported status) = some t := by
  cases status with
  | ok => exact absurd rfl hstatus
  | _ =>
    cases t with
    | granted worked reported => cases worked <;> cases reported <;> rfl
    | _ => rfl

theorem Ticket.next_completed {t t' : Ticket} {status : RClientError}
    {outcome : RAdmissionOutcome} (hnext : t.next (.completed status outcome) = some t') :
    t = .pending ∧ t' = if outcome.allowed then .granted false false else .blank := by
  cases t with
  | pending => exact ⟨rfl, (Option.some.inj hnext).symm⟩
  | _ => exact absurd hnext (by simp [Ticket.next])

theorem Ticket.Past.next {trace : List AdmissionEvent} {e : AdmissionEvent} {t t' : Ticket}
    (hpast : t.Past trace) (hnext : t.next e = some t') : t'.Past (trace ++ [e]) := by
  cases e with
  | client e =>
    obtain rfl : t = t' := Option.some.inj hnext
    exact hpast.idle ⟨rfl, rfl, rfl, rfl, by simp⟩
  | worked status =>
    obtain rfl : t = t' := Option.some.inj hnext
    exact hpast.idle ⟨rfl, rfl, rfl, rfl, by simp⟩
  | prepared =>
    cases t with
    | pending => exact absurd hnext (by simp [Ticket.next])
    | _ =>
      obtain rfl := Option.some.inj hnext
      exact ⟨not_happened_prepared rfl trace, not_happened_prepared rfl trace,
        not_happened_prepared rfl trace⟩
  | cleared =>
    cases t with
    | pending => exact absurd hnext (by simp [Ticket.next])
    | _ =>
      obtain rfl := Option.some.inj hnext
      trivial
  | submitted =>
    cases t with
    | fresh =>
      obtain rfl := Option.some.inj hnext
      exact Ticket.Past.idle (t := .pending) ⟨rfl, rfl, rfl, rfl, by simp⟩ hpast
    | _ => exact absurd hnext (by simp [Ticket.next])
  | completed status outcome =>
    obtain ⟨rfl, rfl⟩ := Ticket.next_completed hnext
    obtain ⟨hunrefused, hunworked, hunreported⟩ := hpast
    split
    · rename_i hallowed
      have hrefuses : (AdmissionEvent.completed status outcome).refuses = false := by
        simp [AdmissionEvent.refuses, hallowed]
      refine ⟨⟨happened_snoc.mpr (.inl hallowed), ?_⟩, fun _ => ?_, fun _ => ?_⟩
      · exact (happened_of_other hrefuses (by simp) trace).not.mpr hunrefused
      · exact (happened_of_other rfl (by simp) trace).not.mpr hunworked
      · exact (happened_of_other rfl (by simp) trace).not.mpr hunreported
    · trivial
  | cancelled =>
    cases t with
    | pending =>
      obtain rfl := Option.some.inj hnext
      trivial
    | _ => exact absurd hnext (by simp [Ticket.next])
  | work =>
    obtain ⟨reported, rfl, rfl⟩ := Ticket.next_work hnext
    obtain ⟨⟨hallowed, hunrefused⟩, -, hunreported⟩ := hpast
    refine ⟨⟨?_, ?_⟩, fun h => absurd h (by simp), fun h => ?_⟩
    · exact (happened_of_other rfl (by simp) trace).mpr hallowed
    · exact (happened_of_other rfl (by simp) trace).not.mpr hunrefused
    · exact (happened_of_other rfl (by simp) trace).not.mpr (hunreported h)
  | reported status =>
    by_cases hstatus : status = .ok
    · subst hstatus
      obtain ⟨worked, rfl, rfl⟩ := Ticket.next_report hnext
      obtain ⟨⟨hallowed, hunrefused⟩, hunworked, -⟩ := hpast
      refine ⟨⟨?_, ?_⟩, fun h => ?_, fun h => absurd h (by simp)⟩
      · exact (happened_of_other rfl (by simp) trace).mpr hallowed
      · exact (happened_of_other rfl (by simp) trace).not.mpr hunrefused
      · exact (happened_of_other rfl (by simp) trace).not.mpr (hunworked h)
    · have hreport : (AdmissionEvent.reported status).isReport = false := by
        cases status with
        | ok => exact absurd rfl hstatus
        | _ => rfl
      rw [Ticket.next_failed hstatus] at hnext
      obtain rfl := Option.some.inj hnext
      exact hpast.idle ⟨rfl, rfl, rfl, hreport, by simp⟩

theorem Ticket.past_of_follow {trace : List AdmissionEvent} {t : Ticket}
    (hfollow : Ticket.blank.follow trace = some t) : t.Past trace := by
  induction trace using List.reverseRecOn generalizing t with
  | nil =>
    obtain rfl : Ticket.blank = t := Option.some.inj hfollow
    trivial
  | append_singleton trace e ih =>
    obtain ⟨t₁, hfirst, hnext⟩ := Ticket.follow_snoc.mp hfollow
    exact (ih hfirst).next hnext

/-- Before an event the ticket was in a state that lets it come. -/
theorem Ticket.follow_split {before after : List AdmissionEvent} {e : AdmissionEvent}
    {t : Ticket} (hfollow : Ticket.blank.follow (before ++ e :: after) = some t) :
    ∃ t₁ t₂ : Ticket, t₁.Past before ∧ t₁.next e = some t₂ := by
  rw [show before ++ e :: after = before ++ [e] ++ after by simp, Ticket.follow_append,
    Option.bind_eq_some_iff] at hfollow
  obtain ⟨t₂, hfront, -⟩ := hfollow
  obtain ⟨t₁, hfirst, hnext⟩ := Ticket.follow_snoc.mp hfront
  exact ⟨t₁, t₂, Ticket.past_of_follow hfirst, hnext⟩

/-- Protected work runs under a licence, and not a second time. -/
theorem Ticket.work_licensed {before after : List AdmissionEvent} {t : Ticket}
    (hfollow : Ticket.blank.follow (before ++ .work :: after) = some t) :
    Licensed before ∧ ¬ Happened AdmissionEvent.isWork before := by
  obtain ⟨t₁, t₂, hpast, hnext⟩ := Ticket.follow_split hfollow
  obtain ⟨reported, rfl, -⟩ := Ticket.next_work hnext
  exact ⟨hpast.1, hpast.2.1 rfl⟩

theorem Ticket.report_licensed {before after : List AdmissionEvent} {t : Ticket}
    (hfollow : Ticket.blank.follow (before ++ .reported .ok :: after) = some t) :
    Licensed before ∧ ¬ Happened AdmissionEvent.isReport before := by
  obtain ⟨t₁, t₂, hpast, hnext⟩ := Ticket.follow_split hfollow
  obtain ⟨worked, rfl, -⟩ := Ticket.next_report hnext
  exact ⟨hpast.1, hpast.2.2 rfl⟩

/-! ### The client under a nested call -/

theorem Machine.Wf.bare {c : RClient} {m : Machine} (hwf : m.Wf c) : m.bare.Wf c := by
  have hhandles : m.bare.handles = m.client.inflight.map (·.handle) := List.append_nil _
  refine ⟨?_, ?_, hwf.static, hwf.identified⟩
  · rw [hhandles]
    exact hwf.nodup.of_append_left
  · intro h hmem
    rw [hhandles] at hmem
    exact hwf.bounded h (List.mem_append_left _ hmem)

/-- The client request with handle `h` is in the in-flight list. -/
def Machine.InFlight (m : Machine) (h : Handle) : Prop := ∃ req ∈ m.client.inflight, req.handle = h

theorem bare_view_of_not_inFlight {m : Machine} {h : Handle} (hused : h < m.nextHandle)
    (hnot : ¬ m.InFlight h) : m.bare.view h = .gone := by
  have hbare : h < m.bare.nextHandle := hused
  rw [view_of_not_mem, if_pos hbare]
  intro hmem
  rcases List.mem_append.mp hmem with hmem | hmem
  · obtain ⟨req, hreq, rfl⟩ := List.mem_map.mp hmem
    exact hnot ⟨req, hreq, rfl⟩
  · exact absurd hmem List.not_mem_nil

/-- What a call does to a client request that has been submitted: its callback fires
    and it leaves the list, or no callback of it fires and it stays where it is. -/
theorem step_inFlight {gcm : Gcm} {c : RClient} {m m' : Machine} {call : Call}
    {effects : List Effect} {h : Handle} (hwf : m.bare.Wf c)
    (hstep : step gcm m.bare call = some (m', effects)) (hused : h < m.nextHandle)
    (hcancel : m.InFlight h → call ≠ .cancel h) :
    (m.InFlight h ∧ ¬ m'.InFlight h ∧
        ∃ status result, Effect.callback (some h) status result ∈ effects) ∨
      ((m'.InFlight h ↔ m.InFlight h) ∧
        ∀ status result, Effect.callback (some h) status result ∉ effects) := by
  obtain ⟨hwf', hlife⟩ := step_wf_life hwf hstep
  have hlife := hlife h
  have hlive : m.InFlight h ↔ ∃ req, m.bare.view h = .live req := inflight_iff_live hwf
  have hlive' : m'.InFlight h ↔ ∃ req, m'.view h = .live req := inflight_iff_live hwf'
  have hown : ∀ status result, Effect.callback (some h) status result ∈ effects ↔
      Effect.callback (some h) status result ∈ about h effects := by
    intro status result
    rw [mem_about]
    simp [Effect.handle?]
  simp only [hown]
  by_cases hin : m.InFlight h
  · obtain ⟨req, hview⟩ := hlive.mp hin
    rw [hview] at hlife
    generalize about h effects = own at hlife ⊢
    generalize m'.view h = view' at hlife hlive'
    cases hlife with
    | idle =>
      exact .inr ⟨⟨fun _ => hin, fun _ => hlive'.mpr ⟨req, rfl⟩⟩, by simp⟩
    | treated req call own view hstep =>
      obtain ⟨trigger, sends, htrigger, hsends, hshape⟩ := hstep.shape
      rcases hshape with ⟨req', rfl, rfl⟩ | ⟨req', status, result, rfl, rfl⟩
      · refine .inr ⟨⟨fun _ => hin, fun _ => hlive'.mpr ⟨req', rfl⟩⟩, ?_⟩
        intro status result hmem
        rcases List.mem_cons.mp hmem with rfl | hmem
        · exact absurd htrigger Bool.false_ne_true
        · exact absurd (hsends _ hmem) Bool.false_ne_true
      · refine .inl ⟨hin, ?_, status, result, by simp⟩
        rw [hlive']
        rintro ⟨req'', heq⟩
        exact absurd heq (by simp)
    | cancelled => exact absurd rfl (hcancel hin)
  · rw [bare_view_of_not_inFlight hused hin] at hlife
    generalize about h effects = own at hlife ⊢
    generalize m'.view h = view' at hlife hlive'
    cases hlife with
    | idle =>
      refine .inr ⟨⟨fun hin' => ?_, fun hin' => absurd hin' hin⟩, by simp⟩
      obtain ⟨req, heq⟩ := hlive'.mp hin'
      exact absurd heq (by simp)

theorem callback_last {effects : List Effect} (hends : EndsInCallback effects) {e : Effect}
    (he : e ∈ effects) (hfires : e.fires = true) :
    ∃ front, effects = front ++ [e] ∧ ∀ x ∈ front, x.fires = false := by
  obtain ⟨front, back, rfl⟩ := List.append_of_mem he
  obtain rfl := hends front e back rfl hfires
  refine ⟨front, rfl, ?_⟩
  intro x hx
  obtain ⟨l, r, rfl⟩ := List.append_of_mem hx
  cases hquiet : x.fires with
  | false => rfl
  | true => exact absurd (hends l x (r ++ [e]) (by simp) hquiet) (by simp)

namespace Admission

/-! ### The storage under the effects of a call -/

def Answers (owned : List Handle) (e : Effect) : Prop :=
  ∃ h ∈ owned, ∃ status result, e = .callback (some h) status result

theorem absorb_cons_of_not {owned : List Handle} {e : Effect} (hnot : ¬ Answers owned e)
    (request : RAdmissionRequest Handle) (rest : List Effect) :
    absorb owned request (e :: rest) =
      ((absorb owned request rest).1, .client e :: (absorb owned request rest).2) := by
  cases e with
  | callback k status result =>
    cases k with
    | none => rfl
    | some h =>
      have hmem : h ∉ owned := fun hmem => hnot ⟨h, hmem, status, result, rfl⟩
      simp only [absorb, if_neg hmem]
  | _ => rfl

theorem absorb_quiet {owned : List Handle} {effects : List Effect}
    (hquiet : ∀ e ∈ effects, ¬ Answers owned e) (request : RAdmissionRequest Handle) :
    absorb owned request effects = (request, effects.map .client) := by
  induction effects with
  | nil => rfl
  | cons e rest ih =>
    rw [absorb_cons_of_not (hquiet e List.mem_cons_self),
      ih fun x hx => hquiet x (List.mem_cons_of_mem e hx)]
    rfl

theorem absorb_answer {owned : List Handle} {front : List Effect}
    (hquiet : ∀ e ∈ front, ¬ Answers owned e) {h : Handle} (howned : h ∈ owned)
    (status : RClientError) (result : Option RRateLimitResult)
    (request : RAdmissionRequest Handle) :
    absorb owned request (front ++ [.callback (some h) status result]) =
      (rAdmissionComplete request status result,
        (front ++ [Effect.callback (some h) status result]).map .client ++
          [.completed status (rAdmissionComplete request status result).outcome]) := by
  induction front with
  | nil => simp only [List.nil_append, absorb, if_pos howned]; rfl
  | cons e rest ih =>
    rw [List.cons_append, absorb_cons_of_not (hquiet e List.mem_cons_self),
      ih fun x hx => hquiet x (List.mem_cons_of_mem e hx)]
    rfl

/-- A callback is the last effect of a call, so the storage is answered at most once. -/
theorem absorb_cases {effects : List Effect} (hends : EndsInCallback effects) (owned : List Handle)
    (request : RAdmissionRequest Handle) :
    ((∀ e ∈ effects, ¬ Answers owned e) ∧
        absorb owned request effects = (request, effects.map .client)) ∨
      ∃ h ∈ owned, ∃ status result, Effect.callback (some h) status result ∈ effects ∧
        absorb owned request effects =
          (rAdmissionComplete request status result, effects.map .client ++
            [.completed status (rAdmissionComplete request status result).outcome]) := by
  by_cases hanswer : ∃ e ∈ effects, Answers owned e
  · obtain ⟨e, he, h, howned, status, result, rfl⟩ := hanswer
    obtain ⟨front, rfl, hfront⟩ := callback_last hends he rfl
    refine .inr ⟨h, howned, status, result, he, absorb_answer ?_ howned status result request⟩
    rintro e he ⟨j, -, status', result', rfl⟩
    exact absurd (hfront _ he) (by simp [Effect.fires])
  · have hquiet : ∀ e ∈ effects, ¬ Answers owned e := fun e he hans => hanswer ⟨e, he, hans⟩
    exact .inl ⟨hquiet, absorb_quiet hquiet request⟩

/-- The events of a call into the client: its effects, and completions. -/
theorem absorb_events (owned : List Handle) (request : RAdmissionRequest Handle)
    (effects : List Effect) :
    (∀ e ∈ effects, .client e ∈ (absorb owned request effects).2) ∧
      ∀ x ∈ (absorb owned request effects).2,
        (∃ e, x = .client e) ∨ ∃ status outcome, x = .completed status outcome := by
  fun_induction absorb owned request effects with
  | case1 => simp
  | case2 request h status result rest hmem completed absorbed ih =>
    simp only [List.mem_cons]
    grind
  | case3 request h status result rest hmem absorbed ih =>
    simp only [List.mem_cons]
    grind
  | case4 request e rest hne absorbed ih =>
    simp only [List.mem_cons]
    grind

/-! ### The flags follow the ticket -/

/-- The flags of a storage that holds a given ticket. -/
def Matches (request : RAdmissionRequest Handle) : Ticket → Prop
  | .blank => request.active = false ∧ request.admitted = false
  | .fresh => request.active = false ∧ request.admitted = false
  | .pending => request.active = true ∧ request.admitted = false ∧
      request.workExecuted = false ∧ request.latencyReported = false
  | .granted worked reported => request.active = false ∧ request.admitted = true ∧
      request.workExecuted = worked ∧ request.latencyReported = reported

/-- The invariant of the workflow. A request that the storage owns is in flight exactly
    when the storage holds its handle. -/
structure Tracked (c : RClient) (s : Admission) (t : Ticket) : Prop where
  wf : s.machine.bare.Wf c
  bounded : ∀ h ∈ s.owned, h < s.machine.nextHandle
  linked : ∀ h ∈ s.owned, (s.machine.InFlight h ↔ s.request.handle = some h)
  mine : ∀ h, s.request.handle = some h → h ∈ s.owned
  active : s.request.active = s.request.handle.isSome
  admitted : s.request.admitted = true → s.request.outcome.allowed = true
  flags : Matches s.request t

/-- A step moves the ticket on along its events. -/
def Advances (c : RClient) (t : Ticket) (s : Admission) (events : List AdmissionEvent) : Prop :=
  ∃ t', t.follow events = some t' ∧ Tracked c s t'

variable {gcm : Gcm} {c : RClient} {s s' : Admission} {t : Ticket}
  {events : List AdmissionEvent}

theorem Advances.silent (h : Tracked c s t) : Advances c t s [] := ⟨t, rfl, h⟩

theorem Advances.after_clients {effects : List Effect} (h : Advances c t s events) :
    Advances c t s (effects.map .client ++ events) := by
  obtain ⟨t', hfollow, htracked⟩ := h
  refine ⟨t', ?_, htracked⟩
  rw [Ticket.follow_append, Ticket.follow_clients]
  exact hfollow

theorem Advances.clients {effects : List Effect} (h : Tracked c s t) :
    Advances c t s (effects.map .client) := ⟨t, Ticket.follow_clients t effects, h⟩

theorem Tracked.idle_handle (h : Tracked c s t) (hidle : s.request.active = false) :
    s.request.handle = none := by
  have hactive := h.active
  rw [hidle] at hactive
  exact Option.isNone_iff_eq_none.mp (by simpa using hactive.symm)

theorem Tracked.pending (h : Tracked c s t) (hactive : s.request.active = true) :
    t = .pending := by
  have hflags := h.flags
  cases t with
  | pending => rfl
  | _ => exact absurd (hflags.1.symm.trans hactive) (by simp)

theorem Tracked.idle_unlinked (h : Tracked c s t) (hidle : s.request.active = false)
    {k : Handle} (hk : k ∈ s.owned) : ¬ s.machine.InFlight k := by
  rw [h.linked k hk, h.idle_handle hidle]
  simp

theorem Tracked.granted (h : Tracked c s t) (hadmitted : s.request.admitted = true) :
    t = .granted s.request.workExecuted s.request.latencyReported ∧ s.request.active = false := by
  have hflags := h.flags
  cases t with
  | granted worked reported =>
    obtain ⟨hactive, -, rfl, rfl⟩ := hflags
    exact ⟨rfl, hactive⟩
  | pending => exact absurd (hflags.2.1.symm.trans hadmitted) (by simp)
  | _ => exact absurd (hflags.2.symm.trans hadmitted) (by simp)

/-- The invariant looks at the machine only through its list and the allocator. -/
theorem Tracked.of_inflight (h : Tracked c s t) (m' : Machine) (hwf : m'.bare.Wf c)
    (hinflight : m'.client.inflight = s.machine.client.inflight)
    (hnext : s.machine.nextHandle ≤ m'.nextHandle) (stack : List OpenCall) :
    Tracked c { s with machine := m', stack := stack } t where
  wf := hwf
  bounded k hk := Nat.lt_of_lt_of_le (h.bounded k hk) hnext
  linked k hk := by
    rw [← h.linked k hk, Machine.InFlight, Machine.InFlight, hinflight]
  mine := h.mine
  active := h.active
  admitted := h.admitted
  flags := h.flags

/-! ### Calls into the client -/

theorem step_nextHandle {m m' : Machine} {call : Call} {effects : List Effect}
    (hstep : RlClient.step gcm m call = some (m', effects)) : m.nextHandle ≤ m'.nextHandle := by
  cases stepped_of_step hstep with
  | submit args io => exact Nat.le_succ _
  | _ => exact Nat.le_refl _

theorem enter_advances {call : Call} (h : Tracked c s t)
    (hcancel : ∀ k, s.request.handle = some k → call ≠ .cancel k)
    (henter : s.enter gcm call = some (s', events)) : Advances c t s' events := by
  unfold enter at henter
  split at henter
  · exact absurd henter (by simp)
  rename_i m' effects hstep
  obtain ⟨rfl, rfl⟩ := Prod.mk.inj (Option.some.inj henter)
  have hnext := step_nextHandle hstep
  have hwf' := (step_wf_life h.wf hstep).1
  have hcases : ∀ k ∈ s.owned, _ := fun k hk =>
    step_inFlight h.wf hstep (h.bounded k hk) fun hin => hcancel k ((h.linked k hk).mp hin)
  rcases absorb_cases (step_ends h.wf hstep) s.owned s.request with
    ⟨hquiet, habsorb⟩ | ⟨k, hk, status, result, he, habsorb⟩
  · rw [habsorb]
    apply Advances.clients
    refine ⟨hwf'.bare, fun j hj => Nat.lt_of_lt_of_le (h.bounded j hj) hnext, ?_, h.mine, h.active,
      h.admitted, h.flags⟩
    intro k hk
    rcases hcases k hk with ⟨-, -, status, result, hmem⟩ | ⟨hiff, -⟩
    · exact absurd ⟨k, hk, status, result, rfl⟩ (hquiet _ hmem)
    · exact hiff.trans (h.linked k hk)
  · -- the callback of a request that the storage owns: it is the one it waits for
    obtain ⟨hin, hout⟩ : s.machine.InFlight k ∧ ¬ m'.InFlight k := by
      rcases hcases k hk with ⟨hin, hout, -⟩ | ⟨-, hnone⟩
      · exact ⟨hin, hout⟩
      · exact absurd he (hnone status result)
    have hhandle := (h.linked k hk).mp hin
    have hactive : s.request.active = true := by
      rw [h.active, hhandle]
      rfl
    obtain rfl := h.pending hactive
    obtain ⟨-, -, hworked, hreported⟩ := h.flags
    rw [habsorb]
    apply Advances.after_clients
    refine ⟨_, rfl, ⟨hwf'.bare, ?_, ?_, ?_, rfl, fun hadmitted => hadmitted, ?_⟩⟩
    · exact fun j hj => Nat.lt_of_lt_of_le (h.bounded j hj) hnext
    · intro j hj
      have hgone : ¬ m'.InFlight j := by
        rcases hcases j hj with ⟨-, hgone, -⟩ | ⟨hiff, -⟩
        · exact hgone
        · intro hin'
          have hsame := (h.linked j hj).mp (hiff.mp hin')
          obtain rfl : k = j := Option.some.inj (hhandle.symm.trans hsame)
          exact hout hin'
      exact ⟨fun hin' => absurd hin' hgone,
        fun hsome => absurd hsome (by simp [rAdmissionComplete])⟩
    · exact fun j hj => absurd hj (by simp [rAdmissionComplete])
    · cases hallowed : (rAdmissionComplete s.request status result).outcome.allowed with
      | true => exact ⟨rfl, hallowed, hworked, hreported⟩
      | false => exact ⟨rfl, hallowed⟩

theorem Tracked.of_client (h : Tracked c s t) {c' : RClient} (hkeeps : Keeps s.machine.client c')
    (hinflight : c'.inflight = s.machine.client.inflight) (frames : List Frame)
    (stack : List OpenCall) :
    Tracked c
      { s with
        machine := { s.machine with client := c', frames := frames }
        stack := stack } t := by
  refine h.of_inflight { s.machine with client := c', frames := frames } ?_ hinflight
    (Nat.le_refl _) stack
  refine h.wf.of_perm hkeeps (Nat.le_refl _) (l := []) ?_
  rw [List.append_nil]
  simp only [Machine.handles, Machine.bare, hinflight]
  exact List.Perm.refl _

theorem leave_advances (h : Tracked c s t) (hleave : s.leave gcm = some (s', events)) :
    Advances c t s' events := by
  unfold leave at hleave
  split at hleave
  · split at hleave
    · exact absurd hleave (by simp)
    · rename_i rest _ _ m' effects hstep
      obtain ⟨rfl, rfl⟩ := Prod.mk.inj (Option.some.inj hleave)
      apply Advances.clients
      cases stepped_of_step hstep with
      | callbackReturn frame frames =>
        exact h.of_client (rCallbackReturned_steady s.machine.client frame).keeps
          (rCallbackReturned_inflight s.machine.client frame) frames rest
  · exact absurd hleave (by simp)

/-! ### Reports -/

/-- What `r_client_admission_report_latency` does: a refusal and a failure leave the
    storage as it was, and only an admitted request without a report can succeed. -/
theorem report_cases (gcm : Gcm) (request : RAdmissionRequest Handle) (client : RClient)
    (observedLatencyMs : UInt32) (io : ReportIo) :
    let reported := rClientAdmissionReportLatency gcm client request observedLatencyMs io
    Keeps client reported.2.client ∧ reported.2.client.inflight = client.inflight ∧
      ((reported.2.status ≠ .ok ∧ reported.1 = request ∧
          ∀ e ∈ reported.2.effects, e.gotOut = false) ∨
        (reported.2.status = .ok ∧ request.active = false ∧ request.admitted = true ∧
          request.latencyReported = false ∧
          reported.1 = { request with latencyReported := true })) := by
  intro reported
  by_cases hguard : (request.active || !request.admitted || request.latencyReported) = true
  · have heq : reported = (request, .done .errConfig client []) := if_pos hguard
    rw [heq]
    refine ⟨.same rfl rfl, rfl, .inl ⟨RClientError.noConfusion, rfl, ?_⟩⟩
    exact fun e he => absurd he List.not_mem_nil
  · set reply := rClientReportLatency gcm client (.array [request.sample observedLatencyMs]) io
      with hreply
    have heq : reported =
        (if reply.status = .ok then { request with latencyReported := true } else request,
          reply) := if_neg hguard
    have hkeeps : Keeps client reply.client := rClientReportLatency_keeps gcm client _ io
    have hinflight : reply.client.inflight = client.inflight :=
      (rClientReportLatency_quiet gcm client _ io).1
    simp only [Bool.not_eq_true, Bool.or_eq_false_iff, Bool.not_eq_false'] at hguard
    obtain ⟨⟨hactive, hadmitted⟩, hreported⟩ := hguard
    rw [heq]
    refine ⟨hkeeps, hinflight, ?_⟩
    by_cases hstatus : reply.status = .ok
    · exact .inr ⟨hstatus, hactive, hadmitted, hreported, if_pos hstatus⟩
    · exact .inl ⟨hstatus, if_neg hstatus, (rClientReportLatency_noTrace hstatus).unsent⟩

theorem report_advances (h : Tracked c s t) (observedLatencyMs : UInt32) (io : ReportIo) :
    Advances c t (s.report gcm observedLatencyMs io).1 (s.report gcm observedLatencyMs io).2 := by
  obtain ⟨hkeeps, hinflight, hcases⟩ :=
    report_cases gcm s.request s.machine.client observedLatencyMs io
  have hkept := h.of_client hkeeps hinflight s.machine.frames s.stack
  unfold report
  simp only
  apply Advances.after_clients
  rcases hcases with ⟨hstatus, hsame, -⟩ | ⟨hstatus, hactive, hadmitted, hreported, hset⟩
  · rw [hsame]
    exact ⟨t, by simp [Ticket.follow, Ticket.next_failed hstatus], hkept⟩
  · obtain ⟨rfl, -⟩ := h.granted hadmitted
    obtain ⟨hflags₁, hflags₂, -, -⟩ := h.flags
    rw [hstatus, hset, hreported]
    refine ⟨.granted s.request.workExecuted true, ?_, ?_⟩
    · cases s.request.workExecuted <;> rfl
    · exact ⟨hkept.wf, hkept.bounded, hkept.linked, hkept.mine, hkept.active, hkept.admitted,
        hflags₁, hflags₂, rfl, rfl⟩

/-! ### Preparation and start -/

/-- A preparation refuses its arguments and changes nothing, or clears the storage and
    then fails or succeeds. -/
theorem prepare_cases (ids : IdDerivation) (request : RAdmissionRequest Handle)
    (config : RAdmissionConfig) (hasCb : Bool) :
    let prepared := rClientAdmissionPrepare ids request config hasCb
    (prepared = (.errConfig, request) ∧ preparation ids request config hasCb = []) ∨
      (prepared.2.handle = none ∧ prepared.2.active = false ∧ prepared.2.admitted = false ∧
        prepared.2.workExecuted = false ∧ prepared.2.latencyReported = false ∧
        ((prepared.1 ≠ .ok ∧ preparation ids request config hasCb = [.cleared]) ∨
          (prepared.1 = .ok ∧ preparation ids request config hasCb = [.prepared]))) := by
  intro prepared
  by_cases hargs : (!hasCb || !rAdmissionConfigValid config) = true
  · exact .inl ⟨if_pos hargs, if_pos hargs⟩
  · have hevents : preparation ids request config hasCb =
        if prepared.1 = .ok then [.prepared] else [.cleared] := if_neg hargs
    have hcleared : prepared.2.handle = none ∧ prepared.2.active = false ∧
        prepared.2.admitted = false ∧ prepared.2.workExecuted = false ∧
        prepared.2.latencyReported = false := by
      simp only [prepared, rClientAdmissionPrepare, if_neg hargs]
      split
      · exact ⟨rfl, rfl, rfl, rfl, rfl⟩
      · split <;> exact ⟨rfl, rfl, rfl, rfl, rfl⟩
    obtain ⟨h₁, h₂, h₃, h₄, h₅⟩ := hcleared
    refine .inr ⟨h₁, h₂, h₃, h₄, h₅, ?_⟩
    rw [hevents]
    by_cases hstatus : prepared.1 = .ok
    · exact .inr ⟨hstatus, if_pos hstatus⟩
    · exact .inl ⟨hstatus, if_neg hstatus⟩

theorem Tracked.cleared (h : Tracked c s t) (hidle : s.request.active = false)
    {request : RAdmissionRequest Handle} (hhandle : request.handle = none)
    (hactive : request.active = false) (hadmitted : request.admitted = false) {t' : Ticket}
    (hflags : Matches request t') : Tracked c { s with request := request } t' := by
  refine ⟨h.wf, h.bounded, ?_, ?_, ?_, ?_, hflags⟩
  · intro k hk
    refine ⟨fun hin => absurd hin (h.idle_unlinked hidle hk), fun hsome => ?_⟩
    exact absurd (hhandle.symm.trans hsome) (by simp)
  · exact fun k hk => absurd (hhandle.symm.trans hk) (by simp)
  · change request.active = request.handle.isSome
    rw [hactive, hhandle]
    rfl
  · exact fun hset => absurd (hadmitted.symm.trans hset) (by simp)

theorem next_prepared {e : AdmissionEvent} {t' : Ticket} (h : Tracked c s t)
    (hidle : s.request.active = false)
    (he : (e = .prepared ∧ t' = .fresh) ∨ (e = .cleared ∧ t' = .blank)) :
    t.next e = some t' := by
  have hflags := h.flags
  rcases he with ⟨rfl, rfl⟩ | ⟨rfl, rfl⟩
  · cases t with
    | pending => exact absurd (hidle.symm.trans hflags.1) (by simp)
    | _ => rfl
  · cases t with
    | pending => exact absurd (hidle.symm.trans hflags.1) (by simp)
    | _ => rfl

theorem prepare_advances (ids : IdDerivation) (h : Tracked c s t)
    (hidle : s.request.active = false) (config : RAdmissionConfig) (hasCb : Bool) :
    Advances c t { s with request := (rClientAdmissionPrepare ids s.request config hasCb).2 }
      (preparation ids s.request config hasCb) := by
  rcases prepare_cases ids s.request config hasCb with
    ⟨hsame, hevents⟩ | ⟨hhandle, hactive, hadmitted, -, -, ⟨-, hevents⟩ | ⟨-, hevents⟩⟩
  · rw [hsame, hevents]
    exact .silent h
  · rw [hevents]
    refine ⟨.blank, ?_, h.cleared hidle hhandle hactive hadmitted ⟨hactive, hadmitted⟩⟩
    simp [Ticket.follow, next_prepared h hidle (.inr ⟨rfl, rfl⟩)]
  · rw [hevents]
    refine ⟨.fresh, ?_, h.cleared hidle hhandle hactive hadmitted ⟨hactive, hadmitted⟩⟩
    simp [Ticket.follow, next_prepared h hidle (.inl ⟨rfl, rfl⟩)]

/-- A submission with a resource that returns `RCLIENT_OK` has linked its request and
    stored the handle. -/
theorem submit_ok {args : SubmitArgs} {io : SubmitIo} {client : RClient} {h : Handle}
    (hidentified : client.membership.Identified) (hcount : args.resources.count ≠ 0)
    (hok : (rClientCheckRateLimitAsyncImpl gcm client h args io).status = .ok)
    (cell : Option Handle) :
    (rClientCheckRateLimitAsyncImpl gcm client h args io).frame = none ∧
      outReqAfter gcm client h args io (some cell) = some (some h) := by
  have hstaged := staged (buildRequest gcm · h args io) client args io
  unfold outReqAfter
  unfold rClientCheckRateLimitAsyncImpl at hok ⊢
  generalize stageSubmission (buildRequest gcm · h args io) client args io = stage at hstaged hok ⊢
  cases hstaged with
  | refused rc hcheck hrc =>
    obtain rfl : rc = .ok := hok
    rcases hrc with hrc | hrc
    · cases hrc
    · cases hrc
  | empty hcheck =>
    exfalso
    unfold checkSubmission at hcheck
    split_ifs at hcheck with _ _ _ hempty
    simp [hcount] at hempty
  | unserved => exact RClientError.noConfusion hok
  | unbuilt rc hcheck hsome hbuild =>
    obtain rfl : rc = .ok := hok
    rcases buildRequest_cases gcm h args io
      ((Keeps.refresh client false io.refresh).identified hidentified) with
      ⟨rc, heq, hrc⟩ | ⟨req, heq, -, -⟩
    · rw [hbuild] at heq
      exact absurd (Except.error.inj heq).symm hrc.1
    · rw [hbuild] at heq
      cases heq
  | built req hcheck hsome hbuild =>
    simp only [Submission.reply, Submission.outReq, launchRequest] at hok ⊢
    split at hok
    · rw [if_pos ‹_›, if_pos ‹_›]
      exact ⟨rfl, rfl⟩
    · exact absurd hok ‹_›

theorem startPrepared_reply (gcm : Gcm) (client : RClient) (h : Handle)
    (request : RAdmissionRequest Handle) (io : SubmitIo) :
    (startPrepared gcm client h request io).2 =
      rClientCheckRateLimitAsyncImpl gcm client h request.submission io := by
  unfold startPrepared
  simp only
  split <;> rfl

theorem startPrepared_cases (gcm : Gcm) (client : RClient)
    (hidentified : client.membership.Identified) (h : Handle)
    (request : RAdmissionRequest Handle) (io : SubmitIo) :
    let started := startPrepared gcm client h request io
    (started.2.status ≠ .ok ∧ started.1 = { request with handle := none, active := false } ∧
        started.2.client.inflight = client.inflight) ∨
      (started.2.status = .ok ∧ started.1 = { request with handle := some h, active := true } ∧
        ∃ req : RClientReq, req.handle = h ∧
          started.2.client.inflight = req :: client.inflight) := by
  intro started
  set reply := rClientCheckRateLimitAsyncImpl gcm client h request.submission io with hreply
  have hbranch : started.2 = reply ∧ started.1 =
      if reply.status ≠ .ok then { request with handle := none, active := false }
      else { request with
        handle := (outReqAfter gcm client h request.submission io (some request.handle)).getD none
        active := true } := by
    simp only [started, startPrepared, ← hreply]
    split <;> exact ⟨rfl, rfl⟩
  obtain ⟨hsecond, hfirst⟩ := hbranch
  rw [hsecond, hfirst]
  have houtcome : SubmitOutcome gcm client h request.submission io reply :=
    rClientCheckRateLimitAsyncImpl_outcome gcm client h request.submission io hidentified
  by_cases hstatus : reply.status = .ok
  · obtain ⟨hframe, hcell⟩ := submit_ok hidentified
      (by simp [RAdmissionRequest.submission, CArray.count]) hstatus request.handle
    refine .inr ⟨hstatus, ?_, ?_⟩
    · rw [if_neg (not_not.mpr hstatus), hcell]
      rfl
    · rw [← hreply] at hframe
      generalize reply = reply' at houtcome hframe hstatus
      cases houtcome with
      | rejected status c' hfail => exact absurd hstatus hfail
      | emptied => exact absurd hframe (by simp [completeEmpty])
      | sendFailed req gapUnits status sends c' built hfail => exact absurd hstatus hfail
      | launched req gapUnits c' built _ _ _ _ hinflight =>
        refine ⟨firstRound client req gapUnits, ?_, hinflight⟩
        have hhandle : req.handle = h := by
          rw [built.eq]
          rfl
        exact hhandle
  · refine .inl ⟨hstatus, if_pos hstatus, ?_⟩
    generalize reply = reply' at houtcome hstatus
    cases houtcome with
    | rejected status c' hfail hinflight => exact hinflight
    | emptied => exact absurd rfl hstatus
    | sendFailed req gapUnits status sends c' built hfail hsends hinflight => exact hinflight
    | launched => exact absurd rfl hstatus

/-- The part of the invariant that no outcome of a submission touches. -/
theorem Tracked.started (h : Tracked c s t) (hidle : s.request.active = false) (gcm : Gcm)
    (request : RAdmissionRequest Handle) (io : SubmitIo) :
    ({ s.machine with
        client := (startPrepared gcm s.machine.client s.machine.nextHandle request io).2.client
        nextHandle := s.machine.nextHandle + 1 } : Machine).bare.Wf c ∧
      ∀ k ∈ s.machine.nextHandle :: s.owned,
        k < s.machine.nextHandle + 1 ∧ ¬ s.machine.InFlight k := by
  refine ⟨?_, fun k hk => ?_⟩
  · have hstep : RlClient.step gcm s.machine.bare (.submit request.submission io) =
      some (_, _) := rfl
    rw [startPrepared_reply]
    exact (step_wf_life h.wf hstep).1.bare
  · rcases List.mem_cons.mp hk with rfl | hk
    · refine ⟨Nat.lt_succ_self _, ?_⟩
      rintro ⟨req, hmem, heq⟩
      exact h.wf.fresh (List.mem_append_left _ (List.mem_map.mpr ⟨req, hmem, heq⟩))
    · exact ⟨Nat.lt_succ_of_lt (h.bounded k hk), h.idle_unlinked hidle hk⟩

/-- What follows a preparation starts from a fresh ticket. -/
theorem Advances.after_prepared (h : Tracked c s t) (hidle : s.request.active = false)
    (hthen : Advances c .fresh s' events) : Advances c t s' ([.prepared] ++ events) := by
  obtain ⟨t', hfollow, htracked⟩ := hthen
  have hprepared : t.follow [.prepared] = some .fresh := by
    simp [Ticket.follow, next_prepared h hidle (.inl ⟨rfl, rfl⟩)]
  exact ⟨t', by rw [Ticket.follow_append, hprepared]; exact hfollow, htracked⟩

theorem start_advances (ids : IdDerivation) (h : Tracked c s t)
    (hidle : s.request.active = false) (config : RAdmissionConfig) (hasCb : Bool)
    (io : SubmitIo) :
    Advances c t (s.start gcm ids config hasCb io).1 (s.start gcm ids config hasCb io).2 := by
  by_cases hok : (rClientAdmissionPrepare ids s.request config hasCb).1 = .ok
  · -- the storage is cleared, then the submission sets the flags
    rcases prepare_cases ids s.request config hasCb with
      ⟨hsame, -⟩ | ⟨-, -, hadmitted, hworked, hreported, ⟨hfail, -⟩ | ⟨-, hevents⟩⟩
    · rw [hsame] at hok
      exact RClientError.noConfusion hok
    · exact absurd hok hfail
    simp only [start, if_neg (not_not.mpr hok), hevents]
    generalize (rClientAdmissionPrepare ids s.request config hasCb).2 = request at *
    obtain ⟨hwf, howned⟩ := h.started hidle gcm request io
    set k := s.machine.nextHandle
    apply Advances.after_prepared h hidle
    apply Advances.after_clients
    rcases startPrepared_cases gcm s.machine.client h.wf.identified k request io with
      ⟨hstatus, hrequest, hinflight⟩ | ⟨hstatus, hrequest, req, hreq, hinflight⟩
    · rw [if_neg hstatus, hrequest]
      refine ⟨.fresh, rfl, ⟨hwf, fun j hj => (howned j hj).1, ?_, by simp, rfl, ?_, rfl, hadmitted⟩⟩
      · intro j hj
        simp only [Machine.InFlight, hinflight]
        exact ⟨fun hin => absurd hin (howned j hj).2, by simp⟩
      · exact fun hset => absurd (hadmitted.symm.trans hset) (by simp)
    · rw [if_pos hstatus, hrequest]
      refine ⟨.pending, rfl, ⟨hwf, fun j hj => (howned j hj).1, ?_, ?_, rfl, ?_, rfl, hadmitted,
        hworked, hreported⟩⟩
      · intro j hj
        simp only [Machine.InFlight, hinflight]
        constructor
        · rintro ⟨other, hmem, heq⟩
          rcases List.mem_cons.mp hmem with rfl | hmem
          · rw [← heq, hreq]
          · exact absurd ⟨other, hmem, heq⟩ (howned j hj).2
        · intro heq
          exact ⟨req, List.mem_cons_self, hreq.trans (Option.some.inj heq)⟩
      · intro j hj
        rw [← Option.some.inj hj]
        exact List.mem_cons_self
      · exact fun hset => absurd (hadmitted.symm.trans hset) (by simp)
  · simp only [start, if_pos hok]
    exact prepare_advances ids h hidle config hasCb

/-! ### Cancellation and protected work -/

theorem cancel_advances (h : Tracked c s t) (hactive : s.request.active = true) {k : Handle}
    (hhandle : s.request.handle = some k) :
    Advances c t
      { s with
        machine := { s.machine with client := (rClientCancelRequest s.machine.client k).1 }
        request := { s.request with handle := none, active := false, admitted := false } }
      ((rClientCancelRequest s.machine.client k).2.map .client ++ [.cancelled]) := by
  obtain rfl := h.pending hactive
  apply Advances.after_clients
  have hstep : RlClient.step noGcm s.machine.bare (.cancel k) = some (_, _) := rfl
  have hwf := (step_wf_life h.wf hstep).1
  refine ⟨.blank, rfl, ⟨hwf, h.bounded, ?_, by simp, rfl, by simp, rfl, rfl⟩⟩
  obtain ⟨req, hreq, rfl⟩ := (h.linked k (h.mine k hhandle)).mpr hhandle
  have hinflight := (rClientCancelRequest_of_mem hreq).1
  have hnodup : (s.machine.client.inflight.map (·.handle)).Nodup := h.wf.nodup.of_append_left
  intro j hj
  refine ⟨?_, by simp⟩
  rintro ⟨other, hmem, rfl⟩
  change other ∈ (rClientCancelRequest s.machine.client req.handle).1.inflight at hmem
  rw [hinflight, Keyed.mem_eraseP hnodup] at hmem
  have hsame := (h.linked _ hj).mp ⟨other, hmem.1, rfl⟩
  exact absurd (Option.some.inj (hsame.symm.trans hhandle)) hmem.2

theorem runAndReport_advances (h : Tracked c s t) (hadmitted : s.request.admitted = true)
    (hworked : s.request.workExecuted = false) (stack : List OpenCall) :
    Advances c t
      { s with request := { s.request with workExecuted := true }, stack := stack } [.work] := by
  obtain ⟨rfl, hactive⟩ := h.granted hadmitted
  refine ⟨.granted true s.request.latencyReported, ?_, ?_⟩
  · rw [hworked]
    rfl
  · exact ⟨h.wf, h.bounded, h.linked, h.mine, h.active, h.admitted, hactive, hadmitted, rfl, rfl⟩

/-! ### What a step does -/

/-- The ways a call of the host can go. -/
inductive Moved (gcm : Gcm) (ids : IdDerivation) (s : Admission) :
    AdmissionCall → Admission → List AdmissionEvent → Prop
  | silent (call : AdmissionCall) : Moved gcm ids s call s []
  | prepared (config : RAdmissionConfig) (hasCb : Bool) :
      Moved gcm ids s (.prepare config hasCb)
        { s with request := (rClientAdmissionPrepare ids s.request config hasCb).2 }
        (preparation ids s.request config hasCb)
  | started (config : RAdmissionConfig) (hasCb : Bool) (io : SubmitIo) :
      Moved gcm ids s (.start config hasCb io) (s.start gcm ids config hasCb io).1
        (s.start gcm ids config hasCb io).2
  | timedOut (h : Handle) (nowMs : UInt64) (io : TimeoutIo) (s' : Admission)
      (events : List AdmissionEvent)
      (henter : s.enter gcm (.timeout h nowMs io) = some (s', events)) :
      Moved gcm ids s (.onTimeout nowMs io) s' events
  | cancelled (k : Handle) (hactive : s.request.active = true)
      (hhandle : s.request.handle = some k) :
      Moved gcm ids s .cancel
        { s with
          machine := { s.machine with client := (rClientCancelRequest s.machine.client k).1 }
          request := { s.request with handle := none, active := false, admitted := false } }
        ((rClientCancelRequest s.machine.client k).2.map .client ++ [.cancelled])
  | reported (observed : UInt32) (io : ReportIo) :
      Moved gcm ids s (.reportLatency observed io) (s.report gcm observed io).1
        (s.report gcm observed io).2
  | working (hasWork : Bool) (startedMs : UInt64) (hadmitted : s.request.admitted = true)
      (hworked : s.request.workExecuted = false) :
      Moved gcm ids s (.runAndReport hasWork (some startedMs))
        { s with
          request := { s.request with workExecuted := true }
          stack := .work startedMs :: s.stack } [.work]
  | worked (status : Int) (finishedMs : Option UInt64) (io : ReportIo) (rest : List OpenCall) :
      Moved gcm ids s (.workReturn status finishedMs io) { s with stack := rest } [.worked status]
  | workReported (finishedMs : Option UInt64) (io : ReportIo) (rest : List OpenCall)
      (observed : UInt32) :
      Moved gcm ids s (.workReturn 0 finishedMs io)
        (({ s with stack := rest } : Admission).report gcm observed io).1
        (.worked 0 :: (({ s with stack := rest } : Admission).report gcm observed io).2)
  | returned (s' : Admission) (events : List AdmissionEvent)
      (hleave : s.leave gcm = some (s', events)) :
      Moved gcm ids s (.host .callbackReturn) s' events
  | called (call : Call) (s' : Admission) (events : List AdmissionEvent)
      (henter : s.enter gcm call = some (s', events)) : Moved gcm ids s (.host call) s' events

theorem moved_of_step {ids : IdDerivation} {call : AdmissionCall}
    (hstep : s.step gcm ids call = some (s', events)) : Moved gcm ids s call s' events := by
  have hsame : some (s, []) = some (s', events) → Moved gcm ids s call s' events := by
    rintro ⟨⟩
    exact .silent call
  cases call with
  | prepare config hasCb =>
    cases hstep
    exact .prepared config hasCb
  | start config hasCb io =>
    obtain ⟨rfl, rfl⟩ := Prod.mk.inj (Option.some.inj hstep)
    exact .started config hasCb io
  | onTimeout nowMs io =>
    simp only [step] at hstep
    split at hstep
    · exact hsame hstep
    · split at hstep
      · exact hsame hstep
      · exact .timedOut _ nowMs io s' events hstep
  | cancel =>
    simp only [step] at hstep
    split at hstep
    · exact hsame hstep
    · rename_i hactive
      split at hstep
      · exact hsame hstep
      · rename_i k hhandle
        cases hstep
        exact .cancelled k (by simpa using hactive) hhandle
  | reportLatency observed io =>
    cases hstep
    exact .reported observed io
  | runAndReport hasWork startedMs =>
    simp only [step] at hstep
    split at hstep
    · exact hsame hstep
    · rename_i hguard
      simp only [Bool.not_eq_true, Bool.or_eq_false_iff, Bool.not_eq_false'] at hguard
      split at hstep
      · exact hsame hstep
      · cases hstep
        exact .working hasWork _ hguard.1.1 hguard.1.2
  | workReturn status finishedMs io =>
    simp only [step] at hstep
    split at hstep
    · split at hstep
      · cases hstep
        exact .worked status finishedMs io _
      · rename_i hstatus
        obtain rfl := not_not.mp hstatus
        split at hstep
        · cases hstep
          exact .worked 0 finishedMs io _
        · cases hstep
          exact .workReported finishedMs io _ _
    · cases hstep
  | host call =>
    cases call with
    | callbackReturn => exact .returned s' events hstep
    | _ => exact .called _ s' events hstep

/-- **A proper step of the workflow moves the ticket on.** -/
theorem step_advances {ids : IdDerivation} {call : AdmissionCall} (h : Tracked c s t)
    (hproper : s.proper call = true) (hstep : s.step gcm ids call = some (s', events)) :
    Advances c t s' events := by
  have hrest : ∀ rest, Tracked c { s with stack := rest } t :=
    h.of_inflight s.machine h.wf rfl (Nat.le_refl _)
  cases moved_of_step hstep with
  | silent => exact .silent h
  | prepared config hasCb =>
    exact prepare_advances ids h (by simpa [proper] using hproper) config hasCb
  | started config hasCb io =>
    exact start_advances ids h (by simpa [proper] using hproper) config hasCb io
  | timedOut k nowMs io _ _ henter => exact enter_advances h (by simp) henter
  | cancelled k hactive hhandle => exact cancel_advances h hactive hhandle
  | reported observed io => exact report_advances h observed io
  | working hasWork startedMs hadmitted hworked =>
    exact runAndReport_advances h hadmitted hworked _
  | worked status finishedMs io rest => exact ⟨t, rfl, hrest rest⟩
  | workReported finishedMs io rest observed => exact report_advances (hrest rest) observed io
  | returned _ _ hleave => exact leave_advances h hleave
  | called call _ _ henter =>
    refine enter_advances h ?_ henter
    rintro k hk rfl
    simp [proper, hk] at hproper

/-! ### Runs -/

/-- A storage that is not in use. -/
structure AtRest (request : RAdmissionRequest Handle) : Prop where
  active : request.active = false
  handle : request.handle = none
  admitted : request.admitted = false

/-- **Refinement.** Along every proper run the events are a life of the ticket, and the
    storage holds that ticket. -/
theorem run_tracked {ids : IdDerivation} {args : CreateArgs}
    (hcreate : rClientCreate args = .ok c) {request : RAdmissionRequest Handle}
    (hrest : AtRest request) {calls : List AdmissionCall} {trace : List AdmissionEvent}
    (hproper : Run.Along (step gcm ids) (init c request) calls fun s call => s.proper call = true)
    (hrun : run gcm ids c request calls = some (s, trace)) :
    ∃ t, Ticket.blank.follow trace = some t ∧ Tracked c s t := by
  refine hproper.exec_induction
    (P := fun _ s trace => ∃ t, Ticket.blank.follow trace = some t ∧ Tracked c s t) ?_ ?_ hrun
  · refine ⟨.blank, rfl, ⟨(init_wf hcreate).bare, ?_, ?_, ?_, ?_, ?_, hrest.active,
      hrest.admitted⟩⟩
    · exact fun h hmem => absurd hmem List.not_mem_nil
    · exact fun h hmem => absurd hmem List.not_mem_nil
    · exact fun h hh => absurd (hrest.handle.symm.trans hh) (by simp)
    · change request.active = request.handle.isSome
      rw [hrest.active, hrest.handle]
      rfl
    · exact fun hset => absurd (hrest.admitted.symm.trans hset) (by simp)
  · rintro calls s trace call s' events - - ⟨t, hfollow, htracked⟩ hproper hstep
    obtain ⟨t', hthen, htracked'⟩ := step_advances htracked hproper hstep
    refine ⟨t', ?_, htracked'⟩
    rw [Ticket.follow_append, hfollow]
    exact hthen

/-! ### Reports that fail -/

/-- Events that neither begin or end protected work nor return from a report. -/
def Passive (events : List AdmissionEvent) : Prop :=
  .work ∉ events ∧ ∀ status, .reported status ∉ events

theorem enter_passive {call : Call} (henter : s.enter gcm call = some (s', events)) :
    Passive events := by
  unfold enter at henter
  split at henter
  · cases henter
  · cases henter
    have hevents := (absorb_events s.owned s.request ‹_›).2
    exact ⟨fun hmem => by simpa using hevents _ hmem, fun _ hmem => by simpa using hevents _ hmem⟩

theorem leave_passive (hleave : s.leave gcm = some (s', events)) : Passive events := by
  unfold leave at hleave
  split at hleave
  · split at hleave
    · cases hleave
    · cases hleave
      simp [Passive]
  · cases hleave

theorem preparation_passive (ids : IdDerivation) (request : RAdmissionRequest Handle)
    (config : RAdmissionConfig) (hasCb : Bool) :
    Passive (preparation ids request config hasCb) := by
  unfold preparation Passive
  split_ifs <;> simp

theorem start_passive (ids : IdDerivation) (config : RAdmissionConfig) (hasCb : Bool)
    (io : SubmitIo) : Passive (s.start gcm ids config hasCb io).2 := by
  obtain ⟨hwork, hreported⟩ := preparation_passive ids s.request config hasCb
  unfold start
  simp only
  split_ifs <;> simp [Passive, hwork, hreported]

/-- A report that fails has got no datagram out and left the storage as it was. -/
theorem report_failed {observed : UInt32} {io : ReportIo} {status : RClientError}
    (hstatus : status ≠ .ok) (hmem : .reported status ∈ (s.report gcm observed io).2) :
    (s.report gcm observed io).1.request = s.request ∧
      ∀ e, .client e ∈ (s.report gcm observed io).2 → e.gotOut = false := by
  obtain ⟨-, -, hcases⟩ := report_cases gcm s.request s.machine.client observed io
  have hreturned : (rClientAdmissionReportLatency gcm s.machine.client s.request observed
      io).2.status = status := by
    simpa [report, eq_comm] using hmem
  rcases hcases with ⟨-, hsame, hsent⟩ | ⟨hok, -⟩
  · refine ⟨hsame, ?_⟩
    intro e he
    rcases List.mem_append.mp he with he | he
    · obtain ⟨x, hx, heq⟩ := List.mem_map.mp he
      obtain rfl : x = e := by simpa using heq
      exact hsent x hx
    · exact absurd he (by simp)
  · exact absurd (hreturned.symm.trans hok) hstatus

theorem step_failed {ids : IdDerivation} {call : AdmissionCall} {status : RClientError}
    (hstep : s.step gcm ids call = some (s', events)) (hmem : .reported status ∈ events)
    (hstatus : status ≠ .ok) :
    s'.request = s.request ∧ ∀ e, .client e ∈ events → e.gotOut = false := by
  cases moved_of_step hstep with
  | silent => exact absurd hmem List.not_mem_nil
  | prepared config hasCb =>
    exact absurd hmem ((preparation_passive ids s.request config hasCb).2 status)
  | started config hasCb io => exact absurd hmem ((start_passive ids config hasCb io).2 status)
  | timedOut _ _ _ _ _ henter => exact absurd hmem ((enter_passive henter).2 status)
  | cancelled => simp at hmem
  | reported observed io => exact report_failed hstatus hmem
  | working => simp at hmem
  | worked => simp at hmem
  | workReported finishedMs io rest observed =>
    simp only [List.mem_cons, reduceCtorEq, false_or] at hmem ⊢
    exact report_failed hstatus hmem
  | returned _ _ hleave => exact absurd hmem ((leave_passive hleave).2 status)
  | called _ _ _ henter => exact absurd hmem ((enter_passive henter).2 status)

theorem workReturn_failed {ids : IdDerivation} {status : Int} {finishedMs : Option UInt64}
    {io : ReportIo} (hstep : s.step gcm ids (.workReturn status finishedMs io) = some (s', events))
    (hstatus : status ≠ 0) :
    events = [.worked status] ∧ s'.machine = s.machine ∧ s'.request = s.request := by
  simp only [step, if_pos hstatus] at hstep
  split at hstep
  · obtain ⟨rfl, rfl⟩ := Prod.mk.inj (Option.some.inj hstep)
    exact ⟨rfl, rfl, rfl⟩
  · exact absurd hstep (by simp)

end Admission

/-! ### The theorem -/

/-- **The life of an admission.** Along every run in which the storage is prepared and started only
    while its request is not active and the client request behind it is cancelled only through the
    storage, also through callbacks and protected work that call back: the request is active
    exactly while the storage holds a handle, and exactly while that handle is in flight; an
    admitted request is not active and its outcome allows. Protected work and a successful report
    each come at most once between two successful preparations, under an allowed completion and
    after no denial, error or cancellation. Work that fails reports nothing; a report that fails
    has got no datagram out and leaves the storage as it was. -/
theorem admission_lifecycle {gcm : Gcm} {ids : IdDerivation} {args : CreateArgs} {c : RClient}
    (hcreate : rClientCreate args = .ok c) {request : RAdmissionRequest Handle}
    (hrest : Admission.AtRest request) {calls : List AdmissionCall} {s : Admission}
    {trace : List AdmissionEvent}
    (hproper : Run.Along (Admission.step gcm ids) (.init c request) calls fun s call =>
      s.proper call = true)
    (hrun : Admission.run gcm ids c request calls = some (s, trace)) :
    (s.request.active = true ↔ s.request.handle ≠ none) ∧
    (s.request.handle ≠ none ↔
      ∃ req ∈ s.machine.client.inflight, s.request.handle = some req.handle) ∧
    (s.request.admitted = true → s.request.active = false ∧ s.request.outcome.allowed = true) ∧
    (∀ before after, trace = before ++ .work :: after →
      Licensed before ∧ ¬ Happened AdmissionEvent.isWork before) ∧
    (∀ before after, trace = before ++ .reported .ok :: after →
      Licensed before ∧ ¬ Happened AdmissionEvent.isReport before) ∧
    (∀ status finishedMs io s' events,
      s.step gcm ids (.workReturn status finishedMs io) = some (s', events) → status ≠ 0 →
        events = [.worked status] ∧ s'.machine = s.machine ∧ s'.request = s.request) ∧
    (∀ call s' events status, s.step gcm ids call = some (s', events) →
      .reported status ∈ events → status ≠ .ok →
        s'.request = s.request ∧ ∀ e, .client e ∈ events → e.gotOut = false) := by
  obtain ⟨t, hfollow, htracked⟩ := Admission.run_tracked hcreate hrest hproper hrun
  refine ⟨?_, ?_, ?_, ?_, ?_, ?_, ?_⟩
  · rw [htracked.active, Option.isSome_iff_ne_none]
  · constructor
    · intro hsome
      obtain ⟨h, hh⟩ := Option.ne_none_iff_exists'.mp hsome
      obtain ⟨req, hmem, heq⟩ := (htracked.linked h (htracked.mine h hh)).mpr hh
      exact ⟨req, hmem, by rw [hh, heq]⟩
    · rintro ⟨req, -, heq⟩
      rw [heq]
      simp
  · intro hadmitted
    exact ⟨(htracked.granted hadmitted).2, htracked.admitted hadmitted⟩
  · rintro before after rfl
    exact Ticket.work_licensed hfollow
  · rintro before after rfl
    exact Ticket.report_licensed hfollow
  · intro status finishedMs io s' events hstep hstatus
    exact Admission.workReturn_failed hstep hstatus
  · intro call s' events status hstep hmem hstatus
    exact Admission.step_failed hstep hmem hstatus

/-! A request is admitted, its callback runs protected work, the report of the work is
lost on every endpoint and then repeated. -/

def sampleAdmissionConfig : RAdmissionConfig :=
  { rClientAdmissionConfigDefaults with bucketName := some [98], latencyTrackerName := some [116] }

def sampleIds : IdDerivation := .ofEvp (.ofHash sampleDigest)

def sampleReportHost (udpSend : Nat → Bool) : ReportIo where
  refresh := { nowMs := 120, jitterDraw := none, progress := .pending }
  forcedRefresh := { nowMs := 120, jitterDraw := none, progress := .pending }
  randRequestId := some (.replicate 16 7)
  stampMs := 120
  encrypt := { randNonce := none, evpOk := true }
  udpSend := udpSend

def sampleAdmissionCalls : List AdmissionCall :=
  [.start sampleAdmissionConfig true (sampleHost fun _ => true),
    .host (sampleDatagram 1 3 1 110),
    .runAndReport true (some 1000),
    .runAndReport true (some 1001),
    .workReturn 0 (some 1015) (sampleReportHost fun _ => false),
    .reportLatency 15 (sampleReportHost fun _ => true),
    .reportLatency 15 (sampleReportHost fun _ => true),
    .host .callbackReturn]

def AdmissionEvent.isClient : AdmissionEvent → Bool
  | .client _ => true
  | _ => false

theorem admission_lifecycle_retried :
    ∃ s trace, Admission.run noGcm sampleIds sampleClient (.zero Handle) sampleAdmissionCalls =
        some (s, trace) ∧
      trace.filter (fun e => !e.isClient) =
        [.prepared, .submitted, .completed .ok ⟨.allowed, true, false, false, 0, 0, 0⟩, .work,
          .worked 0, .reported .errIo, .reported .ok, .reported .errConfig] ∧
      ∀ before after, trace = before ++ .reported .ok :: after →
        Licensed before ∧ ¬ Happened AdmissionEvent.isReport before := by
  have hproper : Run.Along (Admission.step noGcm sampleIds) (.init sampleClient (.zero Handle))
      sampleAdmissionCalls fun s call => s.proper call = true := by
    decide +kernel
  have hrun : (Admission.run noGcm sampleIds sampleClient (.zero Handle)
      sampleAdmissionCalls).map (fun last => last.2.filter fun e => !e.isClient) =
      some [.prepared, .submitted, .completed .ok ⟨.allowed, true, false, false, 0, 0, 0⟩, .work,
        .worked 0, .reported .errIo, .reported .ok, .reported .errConfig] := by
    decide +kernel
  obtain ⟨⟨s, trace⟩, hrun, hevents⟩ := Option.map_eq_some_iff.mp hrun
  exact ⟨s, trace, hrun, hevents,
    (admission_lifecycle sampleClient_created ⟨rfl, rfl, rfl⟩ hproper hrun).2.2.2.2.1⟩

/-! Two hosts that start the storage only while its request is not active. The first one
prepares it again while a request is in flight and starts a second one: the second request is
denied, the first one is then allowed, and its completion opens the way for the work. The
second host cancels the request of the storage at the client. -/

/-- The response of server 3 to request `id`, with a deficit of one token. -/
def sampleDenied (id : UInt8) : Call :=
  match sampleDatagram id 3 1 110 with
  | .datagram packet sender io => .datagram (packet.set 112 1) sender io
  | call => call

def sampleReprepared : List AdmissionCall :=
  [.start sampleAdmissionConfig true (sampleHost fun _ => true),
    .prepare sampleAdmissionConfig true,
    .start sampleAdmissionConfig true
      { sampleHost (fun _ => true) with randRequestId := some (.replicate 16 2) }]

def sampleAnswers : List AdmissionCall :=
  [.host (sampleDenied 2), .host .callbackReturn, .host (sampleDatagram 1 3 1 112),
    .runAndReport true (some 1000)]

def sampleCancelledAside : List AdmissionCall :=
  [.start sampleAdmissionConfig true (sampleHost fun _ => true), .host (.cancel 0)]

theorem admission_out_of_step :
    (Run.Along (Admission.step noGcm sampleIds) (.init sampleClient (.zero Handle))
        (sampleReprepared ++ sampleAnswers) (fun s call => s.startsIdle call = true) ∧
      ∃ s before after, Admission.run noGcm sampleIds sampleClient (.zero Handle)
          (sampleReprepared ++ sampleAnswers) = some (s, before ++ .work :: after) ∧
        Happened AdmissionEvent.refuses before) ∧
    Run.Along (Admission.step noGcm sampleIds) (.init sampleClient (.zero Handle))
        sampleCancelledAside (fun s call => s.startsIdle call = true) ∧
      ∃ s trace, Admission.run noGcm sampleIds sampleClient (.zero Handle) sampleCancelledAside =
          some (s, trace) ∧
        s.request.active = true ∧
        ¬ ∃ req ∈ s.machine.client.inflight, s.request.handle = some req.handle := by
  refine ⟨⟨by decide +kernel, ?_⟩, by decide +kernel, ?_⟩
  · obtain ⟨⟨s₁, first⟩, hfirst, hthen⟩ := Option.bind_eq_some_iff.mp
      (show (Admission.run noGcm sampleIds sampleClient (.zero Handle) sampleReprepared).bind
          (fun next => (Run.exec (Admission.step noGcm sampleIds) next.1 sampleAnswers).map
            fun last => (last.2.getLast?, last.2.dropLast.any AdmissionEvent.refuses,
              decide (.prepared ∈ last.2.dropLast))) =
        some (some .work, true, false) by decide +kernel)
    obtain ⟨⟨s, second⟩, hsecond, hread⟩ := Option.map_eq_some_iff.mp hthen
    simp only [Prod.mk.injEq, List.any_eq_true, decide_eq_false_iff_not] at hread
    obtain ⟨hlast, ⟨e, he, hrefuses⟩, hno⟩ := hread
    have hsplit : second.dropLast ++ [.work] = second := List.dropLast_append_getLast? _ hlast
    refine ⟨s, first ++ second.dropLast, [], ?_, ?_⟩
    · refine Run.exec_append.mpr ⟨s₁, first, second, hfirst, hsecond, ?_⟩
      rw [List.append_assoc, hsplit]
    · exact Since.append_of_mem he (fun _ => hrefuses) fun x hx heq => hno (heq ▸ hx)
  · obtain ⟨⟨s, trace⟩, hrun, hread⟩ := Option.map_eq_some_iff.mp
      (show (Admission.run noGcm sampleIds sampleClient (.zero Handle) sampleCancelledAside).map
          (fun last => (last.1.request.active, last.1.machine.client.inflight.map (·.handle))) =
        some (true, []) by decide +kernel)
    obtain ⟨hactive, hnone⟩ := Prod.mk.inj hread
    refine ⟨s, trace, hrun, hactive, ?_⟩
    rintro ⟨req, hmem, -⟩
    rw [List.map_eq_nil_iff.mp hnone] at hmem
    cases hmem

end RlClient
