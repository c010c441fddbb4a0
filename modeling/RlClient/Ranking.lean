import Mathlib.Order.Lattice
import Mathlib.Data.List.Basic
import Mathlib.Data.List.Perm.Basic

/-!
# Least elements and ranks

Which of the records that arrive one by one is kept as the least, and in which class the
record of a given rank is found.
-/

/-!
## The first minimum of a list

Records arrive one by one and the one with the least key is kept, the earlier of
two with equal keys. `keep` is that rule, `IsFirstMin` says which record a list
ends up with, and `Chosen` ties the two together step by step. Where equal keys
mean equal records, the choice depends only on the set of records.
-/

namespace RlClient.FirstMin

variable {α κ : Type} [LinearOrder κ] (key : α → κ)

/-- Keep the record at hand unless the new one has a smaller key. -/
def keep (best : Option α) (a : α) : Option α :=
  match best with
  | none => some a
  | some b => if key a < key b then some a else some b

/-- `a` has the least key in `l`, and no record before it has the same. -/
def IsFirstMin (l : List α) (a : α) : Prop :=
  ∃ before after, l = before ++ a :: after ∧ (∀ x ∈ before, key a < key x) ∧
    ∀ x ∈ after, key a ≤ key x

variable {key} {l l' : List α} {a b : α}

theorem isFirstMin_singleton : IsFirstMin key [a] a :=
  ⟨[], [], rfl, fun _ h => absurd h List.not_mem_nil, fun _ h => absurd h List.not_mem_nil⟩

theorem IsFirstMin.mem (h : IsFirstMin key l a) : a ∈ l := by
  obtain ⟨before, after, rfl, -, -⟩ := h
  exact List.mem_append_right before List.mem_cons_self

theorem IsFirstMin.le (h : IsFirstMin key l a) {x : α} (hx : x ∈ l) : key a ≤ key x := by
  obtain ⟨before, after, rfl, hbefore, hafter⟩ := h
  rcases List.mem_append.mp hx with hx | hx
  · exact le_of_lt (hbefore x hx)
  · rcases List.mem_cons.mp hx with rfl | hx
    · exact le_refl _
    · exact hafter x hx

theorem IsFirstMin.snoc_keep (h : IsFirstMin key l a) (hb : ¬ key b < key a) :
    IsFirstMin key (l ++ [b]) a := by
  obtain ⟨before, after, rfl, hbefore, hafter⟩ := h
  refine ⟨before, after ++ [b], by simp, hbefore, ?_⟩
  intro x hx
  rcases List.mem_append.mp hx with hx | hx
  · exact hafter x hx
  · rw [List.mem_singleton.mp hx]
    exact not_lt.mp hb

theorem IsFirstMin.snoc_replace (h : IsFirstMin key l a) (hb : key b < key a) :
    IsFirstMin key (l ++ [b]) b :=
  ⟨l, [], rfl, fun _ hx => lt_of_lt_of_le hb (h.le hx), fun _ hx => absurd hx List.not_mem_nil⟩

/-- `best` is what `keep` has made of the records `l`. -/
def Chosen (key : α → κ) (l : List α) (best : Option α) : Prop :=
  (best = none ↔ l = []) ∧ ∀ a, best = some a → IsFirstMin key l a

theorem chosen_nil : Chosen key [] none :=
  ⟨Iff.intro (fun _ => rfl) (fun _ => rfl), fun _ h => absurd h (by simp)⟩

theorem Chosen.keep {best : Option α} (h : Chosen key l best) (b : α) :
    Chosen key (l ++ [b]) (keep key best b) := by
  cases best with
  | none =>
    obtain rfl := h.1.mp rfl
    refine ⟨by simp [FirstMin.keep], ?_⟩
    intro a ha
    obtain rfl := Option.some.inj ha
    exact isFirstMin_singleton
  | some a =>
    have hmin := h.2 a rfl
    simp only [FirstMin.keep]
    by_cases hlt : key b < key a
    · rw [if_pos hlt]
      refine ⟨by simp, fun x hx => ?_⟩
      obtain rfl := Option.some.inj hx
      exact hmin.snoc_replace hlt
    · rw [if_neg hlt]
      refine ⟨by simp, fun x hx => ?_⟩
      obtain rfl := Option.some.inj hx
      exact hmin.snoc_keep hlt

/-- Where equal keys mean equal records, the choice does not depend on order or
    repetition. -/
theorem Chosen.eq_of_same_members {best best' : Option α} (hmem : ∀ x, x ∈ l ↔ x ∈ l')
    (hkey : ∀ x ∈ l, ∀ y ∈ l, key x = key y → x = y)
    (h : Chosen key l best) (h' : Chosen key l' best') : best = best' := by
  have hempty : l = [] ↔ l' = [] := by
    rw [List.eq_nil_iff_forall_not_mem, List.eq_nil_iff_forall_not_mem]
    exact forall_congr' fun x => not_congr (hmem x)
  cases best with
  | none => exact (h'.1.mpr (hempty.mp (h.1.mp rfl))).symm
  | some a =>
    cases best' with
    | none => exact absurd (h.1.mpr (hempty.mpr (h'.1.mp rfl))) (by simp)
    | some b =>
      have ha := h.2 a rfl
      have hb := h'.2 b rfl
      have hbl : b ∈ l := (hmem b).mpr hb.mem
      have hal : a ∈ l' := (hmem a).mp ha.mem
      rw [hkey a ha.mem b hbl (le_antisymm (ha.le hbl) (hb.le hal))]

end RlClient.FirstMin

/-!
## Order statistics and counting

Values are sorted into classes by a map that respects their order. How many values fall into
the first classes says in which class the value of a given rank is: the `i`-th smallest one
is in class `k` or before exactly when more than `i` values are.
-/

namespace OrderStat

variable {α β : Type*} [LinearOrder β] {r : α → α → Prop} {f : α → β}

/-- From the `i`-th element of a sorted list on, classes are at least its class. -/
theorem countP_le_of_lt (hf : ∀ x y, r x y → f x ≤ f y) {s : List α} (hs : s.Pairwise r) {i : Nat}
    {v : α} (hv : s[i]? = some v) {k : β} (hk : k < f v) :
    s.countP (fun x => f x ≤ k) ≤ i := by
  obtain ⟨hi, rfl⟩ := List.getElem?_eq_some_iff.mp hv
  have hlater : (s.drop i).countP (fun x => f x ≤ k) = 0 := by
    rw [List.countP_eq_zero]
    intro x hx hle
    rw [List.drop_eq_getElem_cons hi, List.mem_cons] at hx
    have hge : f s[i] ≤ f x := by
      rcases hx with rfl | hx
      · exact le_refl _
      · have hdrop := hs.sublist (List.drop_sublist i s)
        rw [List.drop_eq_getElem_cons hi, List.pairwise_cons] at hdrop
        exact hf _ x (hdrop.1 x hx)
    exact absurd (of_decide_eq_true hle) (not_le.mpr (lt_of_lt_of_le hk hge))
  calc s.countP (fun x => f x ≤ k)
      = (s.take i).countP (fun x => f x ≤ k) + (s.drop i).countP (fun x => f x ≤ k) := by
        rw [← List.countP_append, List.take_append_drop]
    _ = (s.take i).countP (fun x => f x ≤ k) := by rw [hlater, Nat.add_zero]
    _ ≤ (s.take i).length := List.countP_le_length
    _ ≤ i := List.length_take_le i s

/-- Up to the `i`-th element of a sorted list, classes are at most its class. -/
theorem lt_countP_of_le (hf : ∀ x y, r x y → f x ≤ f y) {s : List α} (hs : s.Pairwise r) {i : Nat}
    {v : α} (hv : s[i]? = some v) {k : β} (hk : f v ≤ k) :
    i < s.countP (fun x => f x ≤ k) := by
  obtain ⟨hi, rfl⟩ := List.getElem?_eq_some_iff.mp hv
  have hearlier : (s.take (i + 1)).countP (fun x => f x ≤ k) = (s.take (i + 1)).length := by
    rw [List.countP_eq_length]
    intro x hx
    rw [List.take_succ_eq_append_getElem hi, List.mem_append, List.mem_singleton] at hx
    have hle : f x ≤ f s[i] := by
      rcases hx with hx | rfl
      · have htake := hs.sublist (List.take_sublist (i + 1) s)
        rw [List.take_succ_eq_append_getElem hi, List.pairwise_append] at htake
        exact hf x _ (htake.2.2 x hx _ (List.mem_singleton_self _))
      · exact le_refl _
    exact decide_eq_true (le_trans hle hk)
  calc i < (s.take (i + 1)).length := by rw [List.length_take_of_le hi]; exact Nat.lt_succ_self i
    _ = (s.take (i + 1)).countP (fun x => f x ≤ k) := hearlier.symm
    _ ≤ s.countP (fun x => f x ≤ k) := (List.take_sublist _ _).countP_le

/-- **Ranks and counts.** -/
theorem lt_countP_iff (hf : ∀ x y, r x y → f x ≤ f y) {l s : List α} (hperm : s.Perm l)
    (hs : s.Pairwise r) {i : Nat} {v : α} (hv : s[i]? = some v) (k : β) :
    i < l.countP (fun x => f x ≤ k) ↔ f v ≤ k := by
  rw [← hperm.countP_eq]
  constructor
  · intro hcount
    by_contra hlt
    exact absurd hcount (Nat.not_lt.mpr (countP_le_of_lt hf hs hv (not_le.mp hlt)))
  · exact lt_countP_of_le hf hs hv

end OrderStat
