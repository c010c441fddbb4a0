import Mathlib.Data.List.Induction

/-!
# Runs of a machine with outputs

A machine is a partial step function from a state and an input to a state and
the outputs it makes. `exec` runs a list of inputs and concatenates the outputs
into a trace. The rules below are the ones used to prove a fact about every run:
induction on the last step, locating an output of the trace in the step that made
it, inserting inputs that do nothing, and reading the run of a component off a run of
the system it is part of.
-/

namespace RlClient.Run

variable {σ ε ω : Type}

/-- Run a list of inputs; `none` when some input is not enabled. -/
def exec (step : σ → ε → Option (σ × List ω)) : σ → List ε → Option (σ × List ω)
  | s, [] => some (s, [])
  | s, e :: es =>
      match step s e with
      | none => none
      | some (s₁, out₁) =>
          match exec step s₁ es with
          | none => none
          | some (s₂, out₂) => some (s₂, out₁ ++ out₂)

variable {step : σ → ε → Option (σ × List ω)}

theorem exec_nil (s : σ) : exec step s [] = some (s, []) := rfl

theorem exec_cons_eq (s : σ) (e : ε) (es : List ε) :
    exec step s (e :: es) = (step s e).bind fun next =>
      (exec step next.1 es).map fun last => (last.1, next.2 ++ last.2) := by
  rw [exec]
  cases step s e with
  | none => rfl
  | some next =>
    simp only [Option.bind_some]
    cases exec step next.1 es <;> rfl

theorem exec_cons {s s' : σ} {e : ε} {es : List ε} {trace : List ω} :
    exec step s (e :: es) = some (s', trace) ↔
      ∃ s₁ out₁ out₂, step s e = some (s₁, out₁) ∧ exec step s₁ es = some (s', out₂) ∧
        trace = out₁ ++ out₂ := by
  constructor
  · intro h
    unfold exec at h
    split at h
    · exact absurd h (by simp)
    · rename_i s₁ out₁ hstep
      split at h
      · exact absurd h (by simp)
      · rename_i s₂ out₂ hrest
        obtain ⟨rfl, rfl⟩ := Prod.mk.inj (Option.some.inj h)
        exact ⟨s₁, out₁, out₂, hstep, hrest, rfl⟩
  · rintro ⟨s₁, out₁, out₂, hstep, hrest, rfl⟩
    simp [exec, hstep, hrest]

theorem exec_append {s s' : σ} {es fs : List ε} {trace : List ω} :
    exec step s (es ++ fs) = some (s', trace) ↔
      ∃ s₁ out₁ out₂, exec step s es = some (s₁, out₁) ∧ exec step s₁ fs = some (s', out₂) ∧
        trace = out₁ ++ out₂ := by
  induction es generalizing s trace with
  | nil =>
    constructor
    · intro h
      exact ⟨s, [], trace, rfl, h, rfl⟩
    · rintro ⟨s₁, out₁, out₂, hnil, hrest, rfl⟩
      obtain ⟨rfl, rfl⟩ := Prod.mk.inj (Option.some.inj hnil)
      exact hrest
  | cons e es ih =>
    rw [List.cons_append, exec_cons]
    constructor
    · rintro ⟨s₁, out₁, out₂, hstep, hrest, rfl⟩
      obtain ⟨s₂, outl, outr, hl, hr, rfl⟩ := ih.mp hrest
      exact ⟨s₂, out₁ ++ outl, outr, exec_cons.mpr ⟨s₁, out₁, outl, hstep, hl, rfl⟩, hr,
        by rw [List.append_assoc]⟩
    · rintro ⟨s₂, out, outr, hfirst, hr, rfl⟩
      obtain ⟨s₁, out₁, outl, hstep, hl, rfl⟩ := exec_cons.mp hfirst
      exact ⟨s₁, out₁, outl ++ outr, hstep, ih.mpr ⟨s₂, outl, outr, hl, hr, rfl⟩,
        by rw [List.append_assoc]⟩

theorem exec_snoc {s s' : σ} {es : List ε} {e : ε} {trace : List ω} :
    exec step s (es ++ [e]) = some (s', trace) ↔
      ∃ s₁ out₁ out₂, exec step s es = some (s₁, out₁) ∧ step s₁ e = some (s', out₂) ∧
        trace = out₁ ++ out₂ := by
  rw [exec_append]
  constructor
  · rintro ⟨s₁, out₁, out₂, hfirst, hlast, rfl⟩
    obtain ⟨s₂, outl, outr, hstep, hnil, rfl⟩ := exec_cons.mp hlast
    obtain ⟨rfl, rfl⟩ := Prod.mk.inj (Option.some.inj hnil)
    exact ⟨s₁, out₁, outl, hfirst, hstep, by simp⟩
  · rintro ⟨s₁, out₁, out₂, hfirst, hstep, rfl⟩
    exact ⟨s₁, out₁, out₂, hfirst, exec_cons.mpr ⟨s', out₂, [], hstep, rfl, by simp⟩, rfl⟩

/-- **Induction over runs.** A property of the inputs so far, the state and the
    trace that holds at the start and is kept by every step of a run holds of
    every run. -/
theorem exec_induction {s₀ : σ} {P : List ε → σ → List ω → Prop} (hinit : P [] s₀ [])
    (hstep : ∀ es s trace e s' out, exec step s₀ es = some (s, trace) → P es s trace →
      step s e = some (s', out) → P (es ++ [e]) s' (trace ++ out))
    {es : List ε} {s : σ} {trace : List ω} (hrun : exec step s₀ es = some (s, trace)) :
    P es s trace := by
  induction es using List.reverseRecOn generalizing s trace with
  | nil =>
    obtain ⟨rfl, rfl⟩ := Prod.mk.inj (Option.some.inj hrun)
    exact hinit
  | append_singleton es e ih =>
    obtain ⟨s₁, out₁, out₂, hfirst, hlast, rfl⟩ := exec_snoc.mp hrun
    exact hstep es s₁ out₁ e s out₂ hfirst (ih hfirst) hlast

/-- The machine that keeps the outputs of a step together. -/
def whole (step : σ → ε → Option (σ × List ω)) (s : σ) (e : ε) : Option (σ × List (List ω)) :=
  (step s e).map fun next => (next.1, [next.2])

theorem whole_eq_some {s s' : σ} {e : ε} {outs : List (List ω)} :
    whole step s e = some (s', outs) ↔ ∃ out, step s e = some (s', out) ∧ outs = [out] := by
  unfold whole
  rw [Option.map_eq_some_iff]
  constructor
  · rintro ⟨⟨s₁, out⟩, hstep, heq⟩
    obtain ⟨rfl, rfl⟩ := Prod.mk.inj heq
    exact ⟨out, hstep, rfl⟩
  · rintro ⟨out, hstep, rfl⟩
    exact ⟨(s', out), hstep, rfl⟩

/-- Its runs are the runs of the machine, with the trace cut after every step. -/
theorem exec_of_whole {s s' : σ} {es : List ε} {outs : List (List ω)}
    (hrun : exec (whole step) s es = some (s', outs)) :
    exec step s es = some (s', outs.flatten) := by
  induction es generalizing s outs with
  | nil =>
    obtain ⟨rfl, rfl⟩ := Prod.mk.inj (Option.some.inj hrun)
    rfl
  | cons e es ih =>
    obtain ⟨s₁, out₁, out₂, hwhole, hrest, rfl⟩ := exec_cons.mp hrun
    obtain ⟨out, hstep, rfl⟩ := whole_eq_some.mp hwhole
    exact exec_cons.mpr ⟨s₁, out, out₂.flatten, hstep, ih hrest, by simp⟩

/-- Every output of a trace was made by one step of the run: the inputs split
    around that step, and the outputs split inside it. -/
theorem exec_locate {s₀ s : σ} {es : List ε} {pre post : List ω} {o : ω}
    (hrun : exec step s₀ es = some (s, pre ++ o :: post)) :
    ∃ es₁ e es₂ s₁ trace₁ s₂ left right,
      es = es₁ ++ e :: es₂ ∧ exec step s₀ es₁ = some (s₁, trace₁) ∧
      step s₁ e = some (s₂, left ++ o :: right) ∧ pre = trace₁ ++ left := by
  induction es generalizing s₀ pre with
  | nil =>
    have hempty := (Prod.mk.inj (Option.some.inj hrun)).2
    exact absurd hempty.symm (by simp)
  | cons e es ih =>
    obtain ⟨s₁, out₁, out₂, hstep, hrest, hout⟩ := exec_cons.mp hrun
    rcases List.append_eq_append_iff.mp hout with ⟨mid, hleft, hright⟩ | ⟨mid, hleft, hright⟩
    · -- the output belongs to this step unless the first part ends exactly before it
      cases mid with
      | nil =>
        rw [List.append_nil] at hleft
        rw [List.nil_append] at hright
        subst hleft
        have hhead : exec step s₁ es = some (s, [] ++ o :: post) := by rw [hrest, ← hright]; rfl
        obtain ⟨es₁, f, es₂, s₂, trace₁, s₃, left, right, hes, hfirst, hlast, hpre⟩ := ih hhead
        refine ⟨e :: es₁, f, es₂, s₂, out₁ ++ trace₁, s₃, left, right, by rw [hes]; rfl,
          exec_cons.mpr ⟨s₁, out₁, trace₁, hstep, hfirst, rfl⟩, hlast, ?_⟩
        rw [List.append_assoc, ← hpre, List.append_nil]
      | cons o' mid =>
        obtain ⟨rfl, rfl⟩ := List.cons.inj hright
        exact ⟨[], e, es, s₀, [], s₁, pre, mid, rfl, rfl, by rw [← hleft]; exact hstep, rfl⟩
    · subst hleft
      rw [hright] at hrest
      obtain ⟨es₁, f, es₂, s₂, trace₁, s₃, left, right, hes, hfirst, hlast, hpre⟩ := ih hrest
      refine ⟨e :: es₁, f, es₂, s₂, out₁ ++ trace₁, s₃, left, right, by rw [hes]; rfl,
        exec_cons.mpr ⟨s₁, out₁, trace₁, hstep, hfirst, rfl⟩, hlast, ?_⟩
      rw [List.append_assoc, ← hpre]

/-- Every input of `es` meets `P` in the state it is given in. -/
def Along (step : σ → ε → Option (σ × List ω)) (s₀ : σ) (es : List ε) (P : σ → ε → Prop) : Prop :=
  ∀ es₁ e es₂ s trace, es = es₁ ++ e :: es₂ → exec step s₀ es₁ = some (s, trace) → P s e

theorem along_nil (s : σ) (P : σ → ε → Prop) : Along step s [] P := by
  intro es₁ e es₂ s' trace hsplit
  exact absurd hsplit (by simp)

theorem along_cons {s : σ} {e : ε} {es : List ε} {P : σ → ε → Prop} :
    Along step s (e :: es) P ↔
      P s e ∧ ∀ s₁ out, step s e = some (s₁, out) → Along step s₁ es P := by
  constructor
  · intro h
    refine ⟨h [] e es s [] rfl rfl, ?_⟩
    intro s₁ out hstep es₁ f es₂ s' trace hsplit hrun
    exact h (e :: es₁) f es₂ s' (out ++ trace) (by rw [hsplit, List.cons_append])
      (exec_cons.mpr ⟨s₁, out, trace, hstep, hrun, rfl⟩)
  · rintro ⟨hfirst, hrest⟩ es₁ f es₂ s' trace hsplit hrun
    cases es₁ with
    | nil =>
      obtain ⟨rfl, rfl⟩ := List.cons.inj hsplit
      obtain ⟨rfl, rfl⟩ := Prod.mk.inj (Option.some.inj hrun)
      exact hfirst
    | cons e' es₁ =>
      obtain ⟨rfl, rfl⟩ := List.cons.inj hsplit
      obtain ⟨s₁, out₁, out₂, hstep, hthen, -⟩ := exec_cons.mp hrun
      exact hrest s₁ out₁ hstep es₁ f es₂ s' out₂ rfl hthen

/-- Whether a run keeps to a decidable condition can be decided by running it. -/
instance Along.decidable {P : σ → ε → Prop} [∀ s e, Decidable (P s e)] :
    (s : σ) → (es : List ε) → Decidable (Along step s es P)
  | s, [] => isTrue (along_nil s P)
  | s, e :: es =>
      match hstep : step s e with
      | none => decidable_of_iff (P s e) (by simp [along_cons, hstep])
      | some (s₁, _) =>
          have := Along.decidable (P := P) s₁ es
          decidable_of_iff (P s e ∧ Along step s₁ es P) (by simp [along_cons, hstep])

theorem Along.suffix {s s₁ : σ} {es fs : List ε} {trace : List ω} {P : σ → ε → Prop}
    (h : Along step s (es ++ fs) P) (hrun : exec step s es = some (s₁, trace)) :
    Along step s₁ fs P := by
  intro es₁ e es₂ s' trace' hsplit hthen
  refine h (es ++ es₁) e es₂ s' (trace ++ trace') ?_ ?_
  · rw [hsplit, List.append_assoc]
  · exact exec_append.mpr ⟨s₁, trace, trace', hrun, hthen, rfl⟩

theorem Along.left {s : σ} {es fs : List ε} {P : σ → ε → Prop}
    (h : Along step s (es ++ fs) P) : Along step s es P := by
  intro es₁ e es₂ s' trace hsplit hrun
  refine h es₁ e (es₂ ++ fs) s' trace ?_ hrun
  rw [hsplit, List.append_assoc, List.cons_append]

/-- Induction over the runs that keep to a condition. -/
theorem Along.exec_induction {s₀ : σ} {I : σ → ε → Prop} {P : List ε → σ → List ω → Prop}
    (hinit : P [] s₀ [])
    (hstep : ∀ es s trace e s' out, Along step s₀ es I → exec step s₀ es = some (s, trace) →
      P es s trace → I s e → step s e = some (s', out) → P (es ++ [e]) s' (trace ++ out))
    {es : List ε} (halong : Along step s₀ es I) {s : σ} {trace : List ω}
    (hrun : exec step s₀ es = some (s, trace)) : P es s trace := by
  refine Run.exec_induction (P := fun es s trace => Along step s₀ es I → P es s trace)
    (fun _ => hinit) ?_ hrun halong
  intro es s trace e s' out hbefore ih hnext halong
  exact hstep es s trace e s' out halong.left hbefore (ih halong.left)
    (halong es e [] s trace rfl hbefore) hnext

/-- `Inserted step noise s es fs`: from state `s` on, the inputs `fs` are `es` with
    further inputs between them, each of them `noise` in the state it meets. -/
inductive Inserted (step : σ → ε → Option (σ × List ω)) (noise : σ → ε → Prop) :
    σ → List ε → List ε → Prop
  | nil (s : σ) : Inserted step noise s [] []
  | keep (s : σ) (e : ε) (es fs : List ε)
      (hrest : ∀ s' out, step s e = some (s', out) → Inserted step noise s' es fs) :
      Inserted step noise s (e :: es) (e :: fs)
  | insert (s : σ) (e : ε) (es fs : List ε) (hnoise : noise s e)
      (hrest : Inserted step noise s es fs) : Inserted step noise s es (e :: fs)

/-- **Inputs that do nothing can be inserted anywhere.** `I` holds along the run
    and makes a noisy input a step that stays where it is. -/
theorem exec_inserted {noise : σ → ε → Prop} {I : σ → Prop}
    (hpreserved : ∀ s e s' out, I s → step s e = some (s', out) → I s')
    (hquiet : ∀ s e, I s → noise s e → step s e = some (s, []))
    {s s' : σ} {es fs : List ε} {trace : List ω} (hinv : I s)
    (hinserted : Inserted step noise s es fs) (hrun : exec step s es = some (s', trace)) :
    exec step s fs = some (s', trace) := by
  induction hinserted generalizing trace with
  | nil s => exact hrun
  | keep s e es fs _ ih =>
    obtain ⟨s₁, out₁, out₂, hstep, hrest, rfl⟩ := exec_cons.mp hrun
    exact exec_cons.mpr ⟨s₁, out₁, out₂, hstep,
      ih s₁ out₁ hstep (hpreserved s e s₁ out₁ hinv hstep) hrest, rfl⟩
  | insert s e es fs hnoise _ ih =>
    exact exec_cons.mpr ⟨s, [], trace, hquiet s e hinv hnoise, ih hinv hrun, rfl⟩

/-- **Abstraction.** `f` reads an abstract state off a state and `g` an abstract input
    off an input. If an input without an abstract one is silent and keeps the
    abstract state, and the others are steps of the abstract machine, then every run
    is a run of the abstract machine. -/
theorem exec_abstract {τ δ : Type} {step' : τ → δ → Option (τ × List ω)} (f : σ → τ)
    (g : ε → Option δ)
    (hsilent : ∀ s e, g e = none → ∃ s', step s e = some (s', []) ∧ f s' = f s)
    (hstep : ∀ s e d, g e = some d →
      (step s e).map (fun next => (f next.1, next.2)) = step' (f s) d) (s : σ) (es : List ε) :
    (exec step s es).map (fun last => (f last.1, last.2)) = exec step' (f s) (es.filterMap g) := by
  induction es generalizing s with
  | nil => rfl
  | cons e es ih =>
    cases hg : g e with
    | none =>
      obtain ⟨s', hs', hf⟩ := hsilent s e hg
      rw [List.filterMap_cons_none hg, ← hf, ← ih s', exec_cons_eq, hs', Option.bind_some]
      simp only [List.nil_append, Option.map_id']
    | some d =>
      rw [List.filterMap_cons_some hg, exec_cons_eq, exec_cons_eq, ← hstep s e d hg]
      cases step s e with
      | none => rfl
      | some next =>
        simp only [Option.bind_some, Option.map_some, ← ih next.1, Option.map_map]
        rfl

/-- **Projection.** `f` reads the state of one component off the state of the system and
    `g` its outputs off the system's. If every step of the system is a step of the component
    or leaves it alone, then what the component does in a run of the system is a run of
    its own. -/
theorem exec_project {τ δ ρ : Type} {step' : τ → δ → Option (τ × List ρ)} (f : σ → τ)
    (g : ω → Option ρ)
    (hstep : ∀ s e s' out, step s e = some (s', out) →
      (f s' = f s ∧ out.filterMap g = []) ∨ ∃ d, step' (f s) d = some (f s', out.filterMap g))
    {s s' : σ} {es : List ε} {trace : List ω} (hrun : exec step s es = some (s', trace)) :
    ∃ ds, exec step' (f s) ds = some (f s', trace.filterMap g) := by
  induction es generalizing s trace with
  | nil =>
    obtain ⟨rfl, rfl⟩ := Prod.mk.inj (Option.some.inj hrun)
    exact ⟨[], rfl⟩
  | cons e es ih =>
    obtain ⟨s₁, out₁, out₂, hfirst, hrest, rfl⟩ := exec_cons.mp hrun
    obtain ⟨ds, hds⟩ := ih hrest
    rw [List.filterMap_append]
    rcases hstep s e s₁ out₁ hfirst with ⟨hsame, hnone⟩ | ⟨d, hown⟩
    · rw [hsame] at hds
      rw [hnone, List.nil_append]
      exact ⟨ds, hds⟩
    · exact ⟨d :: ds, exec_cons.mpr ⟨_, _, _, hown, hds, rfl⟩⟩

/-- **Unwinding.** `R` relates a run with the run in which the inputs that are not
    kept are missing. If a kept input does the same visible things from related
    states, and the others do nothing visible, then so do the two runs. -/
theorem exec_filter {keep : ε → Bool} {visible : ω → Bool} {R : σ → σ → Prop} {I : σ → ε → Prop}
    (hkept : ∀ s t e s' out, R s t → I s e → keep e = true → step s e = some (s', out) →
      ∃ t' out', step t e = some (t', out') ∧ out'.filter visible = out.filter visible ∧ R s' t')
    (hdropped : ∀ s t e s' out, R s t → I s e → keep e = false → step s e = some (s', out) →
      out.filter visible = [] ∧ R s' t)
    {s t s' : σ} {es : List ε} {trace : List ω} (hrel : R s t) (halong : Along step s es I)
    (hrun : exec step s es = some (s', trace)) :
    ∃ t' trace', exec step t (es.filter keep) = some (t', trace') ∧
      trace'.filter visible = trace.filter visible ∧ R s' t' := by
  induction es generalizing s t trace with
  | nil =>
    obtain ⟨rfl, rfl⟩ := Prod.mk.inj (Option.some.inj hrun)
    exact ⟨t, [], rfl, rfl, hrel⟩
  | cons e es ih =>
    obtain ⟨s₁, out₁, out₂, hstep, hrest, rfl⟩ := exec_cons.mp hrun
    obtain ⟨hinv, hthen⟩ := along_cons.mp halong
    cases hkeep : keep e with
    | true =>
      obtain ⟨t₁, out₁', hstep', hsame, hrel₁⟩ := hkept s t e s₁ out₁ hrel hinv hkeep hstep
      obtain ⟨t', trace', hrun', htrace, hrel'⟩ := ih hrel₁ (hthen s₁ out₁ hstep) hrest
      refine ⟨t', out₁' ++ trace', ?_, ?_, hrel'⟩
      · rw [List.filter_cons_of_pos hkeep]
        exact exec_cons.mpr ⟨t₁, out₁', trace', hstep', hrun', rfl⟩
      · rw [List.filter_append, List.filter_append, hsame, htrace]
    | false =>
      obtain ⟨hquiet, hrel₁⟩ := hdropped s t e s₁ out₁ hrel hinv hkeep hstep
      obtain ⟨t', trace', hrun', htrace, hrel'⟩ := ih hrel₁ (hthen s₁ out₁ hstep) hrest
      refine ⟨t', trace', ?_, ?_, hrel'⟩
      · rw [List.filter_cons_of_neg (by rw [hkeep]; decide)]
        exact hrun'
      · rw [List.filter_append, hquiet, htrace, List.nil_append]

end RlClient.Run
