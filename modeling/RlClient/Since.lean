import Mathlib.Data.List.Induction

/-!
# Since

The past-time operator "since" over finite traces: something happened, and nothing
has stopped it from then on. What happens may depend on the trace before it. A
flag that is raised and cleared along a run is described by it; the lemmas below
evaluate it from the end of the trace.
-/

namespace RlClient

variable {α : Type}

/-- Where an element stands in a trace with one more output: it is that output, or it
    stands in the trace before. -/
theorem snoc_eq_append_cons {trace before after : List α} {a b : α} :
    trace ++ [a] = before ++ b :: after ↔
      (before = trace ∧ b = a ∧ after = []) ∨
        ∃ after', after = after' ++ [a] ∧ trace = before ++ b :: after' := by
  constructor
  · intro h
    rcases List.eq_nil_or_concat after with rfl | ⟨after', last, rfl⟩
    · obtain ⟨rfl, hsame⟩ := List.append_inj' h rfl
      exact .inl ⟨rfl, (List.cons.inj hsame).1.symm, rfl⟩
    · rw [List.concat_eq_append, ← List.cons_append, ← List.append_assoc] at h
      obtain ⟨rfl, hsame⟩ := List.append_inj' h rfl
      obtain rfl := (List.cons.inj hsame).1
      exact .inr ⟨after', List.concat_eq_append, rfl⟩
  · rintro (⟨rfl, rfl, rfl⟩ | ⟨after', rfl, rfl⟩)
    · rfl
    · simp

/-- Some `a` of the trace is an `event` after the trace before it, and nothing
    behind it is a `stop`. -/
def Since (event : List α → α → Prop) (stop : α → Prop) (trace : List α) : Prop :=
  ∃ before a after, trace = before ++ a :: after ∧ event before a ∧ ∀ b ∈ after, ¬ stop b

namespace Since

variable {event : List α → α → Prop} {stop : α → Prop} {trace more : List α} {a : α}

theorem not_nil : ¬ Since event stop [] := by
  rintro ⟨before, a, after, heq, -⟩
  exact absurd heq (by simp)

/-- The last output decides, unless it is neither an event nor a stop. -/
theorem snoc : Since event stop (trace ++ [a]) ↔
    event trace a ∨ (Since event stop trace ∧ ¬ stop a) := by
  constructor
  · rintro ⟨before, b, after, heq, hevent, hafter⟩
    rcases snoc_eq_append_cons.mp heq with ⟨rfl, rfl, -⟩ | ⟨after', rfl, rfl⟩
    · exact .inl hevent
    · refine .inr ⟨⟨before, b, after', rfl, hevent, ?_⟩, ?_⟩
      · intro x hx
        exact hafter x (by simp [hx])
      · exact hafter a (by simp)
  · rintro (hevent | ⟨⟨before, b, after, rfl, hevent, hafter⟩, hstop⟩)
    · exact ⟨trace, a, [], rfl, hevent, fun b hb => absurd hb List.not_mem_nil⟩
    · refine ⟨before, b, after ++ [a], by simp, hevent, ?_⟩
      intro x hx
      rcases List.mem_append.mp hx with hx | hx
      · exact hafter x hx
      · rw [List.mem_singleton.mp hx]
        exact hstop

theorem append (h : Since event stop trace) (hmore : ∀ a ∈ more, ¬ stop a) :
    Since event stop (trace ++ more) := by
  obtain ⟨before, a, after, rfl, ha, hafter⟩ := h
  refine ⟨before, a, after ++ more, by simp, ha, ?_⟩
  intro x hx
  rcases List.mem_append.mp hx with hx | hx
  · exact hafter x hx
  · exact hmore x hx

theorem append_of_mem (hmem : a ∈ more) (hevent : ∀ before, event before a)
    (hmore : ∀ a ∈ more, ¬ stop a) : Since event stop (trace ++ more) := by
  obtain ⟨before, after, rfl⟩ := List.append_of_mem hmem
  refine ⟨trace ++ before, a, after, by simp, hevent _, ?_⟩
  intro x hx
  exact hmore x (List.mem_append_right _ (List.mem_cons_of_mem _ hx))

/-- Outputs that are neither events nor stops change nothing. -/
theorem append_quiet (hquiet : ∀ a ∈ more, (∀ before, ¬ event before a) ∧ ¬ stop a) :
    Since event stop (trace ++ more) ↔ Since event stop trace := by
  induction more using List.reverseRecOn with
  | nil => rw [List.append_nil]
  | append_singleton more a ih =>
    obtain ⟨hevent, hstop⟩ := hquiet a (by simp)
    rw [← List.append_assoc, snoc, ih fun b hb => hquiet b (List.mem_append_left _ hb)]
    constructor
    · rintro (h | ⟨h, -⟩)
      · exact absurd h (hevent _)
      · exact h
    · intro h
      exact .inr ⟨h, hstop⟩

end Since

end RlClient
