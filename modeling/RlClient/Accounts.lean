import Mathlib.Algebra.BigOperators.Group.Finset.Piecewise
import Mathlib.Algebra.GroupWithZero.Nat

/-!
# Accounts

What is paid for and what is held: sums of balances over finitely many accounts, and
logs of resources that are opened, used and closed.
-/

/-!
## Ledgers

Finitely many accounts with a balance each, and a list of entries that each cost something.
When one account changes, the sum of the balances changes by what that account does. Claims
that are paid for by different entries are no more than the entries cost altogether.
-/

namespace RlClient.Ledger

variable {κ α ω K : Type}

theorem sum_update [Fintype κ] [DecidableEq κ] (balance : α → Nat) (accounts : κ → α) (j : κ)
    (account : α) :
    ∑ k, balance (Function.update accounts j account k) + balance (accounts j) =
      ∑ k, balance (accounts k) + balance account := by
  have hupdate : ∀ k, balance (Function.update accounts j account k) =
      Function.update (fun k => balance (accounts k)) j (balance account) k := by
    intro k
    by_cases hk : k = j
    · subst hk
      rw [Function.update_self, Function.update_self]
    · rw [Function.update_of_ne hk, Function.update_of_ne hk]
  have hrest := Finset.sum_erase_add Finset.univ (fun k => balance (accounts k)) (Finset.mem_univ j)
  simp only [hupdate]
  rw [Finset.sum_update_of_mem (Finset.mem_univ j), Finset.sdiff_singleton_eq_erase]
  omega

/-- **Claims are bounded by what is paid.** Every claim is paid by an entry that costs
    something, and no entry pays for two of them. -/
theorem length_le_sum [DecidableEq K] (cost : ω → Nat) (paid : K → ω → Prop) {entries : List ω}
    {claims : List K} (hnodup : claims.Nodup)
    (hone : ∀ k ∈ claims, ∀ k' ∈ claims, ∀ o, paid k o → paid k' o → k = k')
    (hpaid : ∀ k ∈ claims, ∃ o ∈ entries, paid k o ∧ 1 ≤ cost o) :
    claims.length ≤ (entries.map cost).sum := by
  induction entries generalizing claims with
  | nil =>
    cases claims with
    | nil => exact Nat.zero_le _
    | cons k claims =>
      obtain ⟨o, ho, -⟩ := hpaid k List.mem_cons_self
      cases ho
  | cons entry entries ih =>
    rw [List.map_cons, List.sum_cons]
    by_cases hfirst : ∃ k ∈ claims, paid k entry ∧ 1 ≤ cost entry
    · -- the first entry pays for `k`, the others for the rest
      obtain ⟨k, hk, hentry, hcost⟩ := hfirst
      have hrest : (claims.erase k).length ≤ (entries.map cost).sum := by
        refine ih (hnodup.erase k) ?_ ?_
        · intro a ha b hb
          exact hone a (List.mem_of_mem_erase ha) b (List.mem_of_mem_erase hb)
        · intro a ha
          have hclaim := List.mem_of_mem_erase ha
          obtain ⟨o, ho, hpays, hsome⟩ := hpaid a hclaim
          rcases List.mem_cons.mp ho with rfl | ho
          · obtain rfl := hone a hclaim k hk o hpays hentry
            exact absurd ha hnodup.not_mem_erase
          · exact ⟨o, ho, hpays, hsome⟩
      rw [List.length_erase_of_mem hk] at hrest
      omega
    · refine Nat.le_trans (ih hnodup hone ?_) (Nat.le_add_left _ _)
      intro k hk
      obtain ⟨o, ho, hpays, hsome⟩ := hpaid k hk
      rcases List.mem_cons.mp ho with rfl | ho
      · exact absurd ⟨k, hk, hpays, hsome⟩ hfirst
      · exact ⟨o, ho, hpays, hsome⟩

end RlClient.Ledger

/-!
## Custody of resources

A resource is opened, used while it is open, and closed once. `replay` is the machine that
accepts a log of such events and keeps the set of resources that are open. A program whose
log replays never uses or closes what is not open, and it leaks nothing when the set it
ends with is what the program still holds.
-/

namespace RlClient.Custody

/-- What a program does to a resource. -/
inductive Event (K : Type) where
  | opened (k : K)
  | used (k : K)
  | closed (k : K)
deriving Repr, DecidableEq

variable {K : Type} [DecidableEq K]

def advance (live : Finset K) : Event K → Option (Finset K)
  | .opened k => if k ∈ live then none else some (insert k live)
  | .used k => if k ∈ live then some live else none
  | .closed k => if k ∈ live then some (live.erase k) else none

def replay (live : Finset K) (events : List (Event K)) : Option (Finset K) :=
  events.foldlM advance live

theorem replay_cons {live last : Finset K} {e : Event K} {events : List (Event K)} :
    replay live (e :: events) = some last ↔
      ∃ next, advance live e = some next ∧ replay next events = some last := by
  unfold replay
  rw [List.foldlM_cons]
  exact Option.bind_eq_some_iff

theorem replay_append {live last : Finset K} {a b : List (Event K)} :
    replay live (a ++ b) = some last ↔
      ∃ mid, replay live a = some mid ∧ replay mid b = some last := by
  unfold replay
  rw [List.foldlM_append]
  exact Option.bind_eq_some_iff

theorem replay_opened {live : Finset K} {k : K} (hk : k ∉ live) :
    replay live [.opened k] = some (insert k live) :=
  replay_cons.mpr ⟨_, if_neg hk, rfl⟩

theorem replay_closed {live : Finset K} {k : K} (hk : k ∈ live) :
    replay live [.closed k] = some (live.erase k) :=
  replay_cons.mpr ⟨_, if_pos hk, rfl⟩

theorem replay_used {live : Finset K} {events : List (Event K)}
    (h : ∀ e ∈ events, ∃ k ∈ live, e = .used k) : replay live events = some live := by
  induction events with
  | nil => rfl
  | cons e events ih =>
    obtain ⟨k, hk, rfl⟩ := h e List.mem_cons_self
    exact replay_cons.mpr ⟨live, if_pos hk, ih fun e he => h e (List.mem_cons_of_mem _ he)⟩

/-! ### Counting -/

def openings (k : K) (events : List (Event K)) : Nat := events.count (.opened k)

def closings (k : K) (events : List (Event K)) : Nat := events.count (.closed k)

def held (k : K) (live : Finset K) : Nat := if k ∈ live then 1 else 0

theorem advance_balance {live next : Finset K} {e : Event K} (h : advance live e = some next)
    (k : K) : held k live + openings k [e] = held k next + closings k [e] := by
  unfold openings closings held
  cases e with
  | opened j =>
    by_cases hj : j ∈ live
    · exact absurd ((if_pos hj).symm.trans h) (by simp)
    · obtain rfl : insert j live = next := Option.some.inj ((if_neg hj).symm.trans h)
      by_cases hkj : k = j
      · subst hkj
        simp [hj]
      · simp [hkj, Ne.symm hkj]
  | used j =>
    by_cases hj : j ∈ live
    · obtain rfl : live = next := Option.some.inj ((if_pos hj).symm.trans h)
      simp
    · exact absurd ((if_neg hj).symm.trans h) (by simp)
  | closed j =>
    by_cases hj : j ∈ live
    · obtain rfl : live.erase j = next := Option.some.inj ((if_pos hj).symm.trans h)
      by_cases hkj : k = j
      · subst hkj
        simp [hj]
      · simp [hkj, Ne.symm hkj]
    · exact absurd ((if_neg hj).symm.trans h) (by simp)

/-- **Conservation.** Every resource that was open or has been opened is open or has been
    closed, one for one. -/
theorem replay_balance {live last : Finset K} {events : List (Event K)}
    (h : replay live events = some last) (k : K) :
    held k live + openings k events = held k last + closings k events := by
  induction events generalizing live with
  | nil =>
    obtain rfl : live = last := Option.some.inj h
    rfl
  | cons e events ih =>
    obtain ⟨next, hnext, hrest⟩ := replay_cons.mp h
    have hfirst := advance_balance hnext k
    have hlater := ih hrest
    unfold openings closings at hfirst hlater ⊢
    rw [← List.singleton_append, List.count_append, List.count_append]
    omega

end RlClient.Custody
