import Mathlib.Tactic.TypeStar
import Mathlib.Logic.Function.Iterate
import Mathlib.Data.List.Range

/-!
# Computations that keep a record

A computation that writes down its events, and a search that is told by the questions it
asked.
-/

/-!
## Computations with a log

A `Logged` computation yields a value or an error and writes down what it did on
the way; the log of a failed computation is kept. `Within P` says that everything
written down satisfies `P`, and has a rule for each way to build a computation, so
that a bound on what a loop does is proved along its body.
-/

/-- A computation that logs events `ε` and ends with an `α` or an error `ρ`. -/
structure Logged (ε ρ α : Type*) where
  log : List ε
  result : Except ρ α

namespace Logged

universe u

variable {ε ρ : Type*} {α β : Type u} {P : ε → Prop}

def pure (a : α) : Logged ε ρ α := ⟨[], .ok a⟩

/-- Runs `next` on the value, if there is one. -/
def bind (x : Logged ε ρ α) (next : α → Logged ε ρ β) : Logged ε ρ β :=
  match x.result with
  | .error rc => ⟨x.log, .error rc⟩
  | .ok a => ⟨x.log ++ (next a).log, (next a).result⟩

instance : Monad (Logged ε ρ) where
  pure := pure
  bind := bind

def note (e : ε) : Logged ε ρ Unit := ⟨[e], .ok ()⟩

def fail (rc : ρ) : Logged ε ρ α := ⟨[], .error rc⟩

/-! ### Results -/

@[simp] theorem result_pure (a : α) : (Pure.pure a : Logged ε ρ α).result = .ok a := rfl

@[simp] theorem result_note (e : ε) : (note e : Logged ε ρ Unit).result = .ok () := rfl

@[simp] theorem result_fail (rc : ρ) : (fail rc : Logged ε ρ α).result = .error rc := rfl

theorem result_bind_ok {x : Logged ε ρ α} {next : α → Logged ε ρ β} {a : α}
    (hx : x.result = .ok a) : (x >>= next).result = (next a).result := by
  show (bind x next).result = (next a).result
  simp only [bind, hx]

theorem result_bind_error {x : Logged ε ρ α} {next : α → Logged ε ρ β} {rc : ρ}
    (hx : x.result = .error rc) : (x >>= next).result = .error rc := by
  show (bind x next).result = .error rc
  simp only [bind, hx]

/-! ### Logs -/

/-- Every event of the log satisfies `P`. -/
def Within (P : ε → Prop) (x : Logged ε ρ α) : Prop := ∀ e ∈ x.log, P e

theorem within_pure (a : α) : Within P (Pure.pure a : Logged ε ρ α) := fun _ he => nomatch he

theorem within_fail (rc : ρ) : Within P (fail rc : Logged ε ρ α) := fun _ he => nomatch he

theorem within_note {e : ε} (he : P e) : Within P (note e : Logged ε ρ Unit) := by
  intro e' he'
  rw [List.mem_singleton.mp he']
  exact he

theorem Within.bind {x : Logged ε ρ α} {next : α → Logged ε ρ β} (hx : Within P x)
    (hnext : ∀ a, x.result = .ok a → Within P (next a)) : Within P (x >>= next) := by
  show Within P (Logged.bind x next)
  intro e he
  unfold Logged.bind at he
  split at he
  · exact hx e he
  · rename_i a hresult
    rcases List.mem_append.mp he with hleft | hright
    · exact hx e hleft
    · exact hnext a hresult e hright

end Logged

/-!
## Probing one candidate after the other

A search that asks about a candidate, its successor, and so on, until an answer is not
`again` or there are no tries left. What is asked has a memory: each question may change
the state the next one meets. `after` and `answer` say what the `k`-th question meets and
gets, `search_cases` how a search ends, and `after_recorded` what is written down when
every question is.
-/

namespace Probe

variable {σ α β : Type*}

/-- The state that `k` questions leave. -/
def after (ask : σ → α → β × σ) (next : α → α) : Nat → α → σ → σ
  | 0, _, s => s
  | k + 1, a, s => after ask next k (next a) (ask s a).2

/-- The answer to the question after `k` others. -/
def answer (ask : σ → α → β × σ) (next : α → α) (k : Nat) (a : α) (s : σ) : β :=
  (ask (after ask next k a s) (next^[k] a)).1

/-- The first answer that is not `again`, with its candidate, in at most `n` questions. -/
def search [DecidableEq β] (ask : σ → α → β × σ) (next : α → α) (again : β) :
    Nat → α → σ → Option (α × β) × σ
  | 0, _, s => (none, s)
  | n + 1, a, s =>
      let (b, s') := ask s a
      if b = again then search ask next again n (next a) s' else (some (a, b), s')

variable {ask : σ → α → β × σ} {next : α → α}

/-- The questions in the other order: the last one apart. -/
theorem after_succ (k : Nat) (a : α) (s : σ) :
    after ask next (k + 1) a s = (ask (after ask next k a s) (next^[k] a)).2 := by
  induction k generalizing a s with
  | zero => rfl
  | succ k ih =>
    rw [after, ih]
    rfl

/-- A question has been asked for each candidate before the one that ended the search. -/
theorem search_cases [DecidableEq β] (ask : σ → α → β × σ) (next : α → α) (again : β) (n : Nat)
    (a : α) (s : σ) :
    (search ask next again n a s = (none, after ask next n a s) ∧
        ∀ j < n, answer ask next j a s = again) ∨
      ∃ k < n, search ask next again n a s =
          (some (next^[k] a, answer ask next k a s), after ask next (k + 1) a s) ∧
        answer ask next k a s ≠ again ∧ ∀ j < k, answer ask next j a s = again := by
  induction n generalizing a s with
  | zero => exact Or.inl ⟨rfl, fun j hj => absurd hj (Nat.not_lt_zero j)⟩
  | succ n ih =>
    by_cases hfirst : (ask s a).1 = again
    · have hstep : search ask next again (n + 1) a s =
          search ask next again n (next a) (ask s a).2 := by
        rw [search]
        exact if_pos hfirst
      -- one question more in front: the indices move by one
      have hshift : ∀ k, (∀ j < k, answer ask next j (next a) (ask s a).2 = again) →
          ∀ j < k + 1, answer ask next j a s = again := by
        intro k hagain j hj
        cases j with
        | zero => exact hfirst
        | succ j => exact hagain j (Nat.lt_of_succ_lt_succ hj)
      rcases ih (next a) (ask s a).2 with ⟨hnone, hagain⟩ | ⟨k, hk, hsome, hlast, hagain⟩
      · exact Or.inl ⟨hstep.trans hnone, hshift n hagain⟩
      · exact Or.inr ⟨k + 1, Nat.succ_lt_succ hk, hstep.trans hsome, hlast, hshift k hagain⟩
    · refine Or.inr ⟨0, Nat.succ_pos n, ?_, hfirst, fun j hj => absurd hj (Nat.not_lt_zero j)⟩
      rw [search]
      exact if_neg hfirst

/-! ### A record of the questions -/

/-- The same questions, with candidate and answer written down. -/
def recorded (ask : σ → α → β × σ) (s : σ × List (α × β)) (a : α) : β × (σ × List (α × β)) :=
  ((ask s.1 a).1, ((ask s.1 a).2, s.2 ++ [(a, (ask s.1 a).1)]))

theorem after_recorded (k : Nat) (a : α) (s : σ) (log : List (α × β)) :
    after (recorded ask) next k a (s, log) =
      (after ask next k a s,
        log ++ (List.range k).map fun j => (next^[j] a, answer ask next j a s)) := by
  induction k with
  | zero => rw [List.range_zero, List.map_nil, List.append_nil]; rfl
  | succ k ih =>
    rw [after_succ, ih, List.range_succ, List.map_append, ← List.append_assoc, after_succ]
    rfl

theorem answer_recorded (k : Nat) (a : α) (s : σ) (log : List (α × β)) :
    answer (recorded ask) next k a (s, log) = answer ask next k a s := by
  rw [answer, after_recorded]
  rfl

end Probe
