import Mathlib.Data.List.Nodup

/-!
# Lists of records with distinct keys

A list of records in which a key occurs at most once behaves like a finite map.
These are the lookup laws for the two updates used on such lists: writing a
record over the one with its key, and removing the record of a key.
-/

namespace RlClient.Keyed

variable {α κ : Type} [DecidableEq κ] {key : α → κ} {l : List α} {a : α} {k : κ}

theorem find_of_mem (hnodup : (l.map key).Nodup) (hmem : a ∈ l) :
    l.find? (key · == key a) = some a := by
  induction l with
  | nil => exact absurd hmem List.not_mem_nil
  | cons b l ih =>
    rw [List.map_cons, List.nodup_cons] at hnodup
    rcases List.mem_cons.mp hmem with rfl | hmem
    · exact List.find?_cons_of_pos (by simp)
    · have hne : key b ≠ key a := by
        intro heq
        exact hnodup.1 (heq ▸ List.mem_map_of_mem hmem)
      rw [List.find?_cons_of_neg (by simpa using hne)]
      exact ih hnodup.2 hmem

theorem eq_of_key (hnodup : (l.map key).Nodup) {b : α} (ha : a ∈ l) (hb : b ∈ l)
    (hkey : key a = key b) : a = b := by
  have hfind := find_of_mem hnodup ha
  rw [hkey, find_of_mem hnodup hb] at hfind
  exact (Option.some.inj hfind).symm

theorem find_eq_none : l.find? (key · == k) = none ↔ k ∉ l.map key := by
  simp [List.find?_eq_none]

theorem key_of_find (h : l.find? (key · == k) = some a) : key a = k := by
  simpa using List.find?_some h

/-! ### Overwriting -/

theorem map_key_replace :
    (l.map fun b => if key b = key a then a else b).map key = l.map key := by
  rw [List.map_map]
  apply List.map_congr_left
  intro b _
  by_cases hb : key b = key a
  · simp [hb]
  · simp [hb]

theorem find_replace_self (hmem : key a ∈ l.map key) :
    (l.map fun b => if key b = key a then a else b).find? (key · == key a) = some a := by
  induction l with
  | nil => exact absurd hmem List.not_mem_nil
  | cons b l ih =>
    rw [List.map_cons]
    by_cases hb : key b = key a
    · rw [if_pos hb]
      exact List.find?_cons_of_pos (by simp)
    · rw [if_neg hb, List.find?_cons_of_neg (by simpa using hb)]
      rcases List.mem_cons.mp hmem with heq | hmem
      · exact absurd heq.symm hb
      · exact ih hmem

theorem replace_self (hnodup : (l.map key).Nodup) (hmem : a ∈ l) :
    (l.map fun b => if key b = key a then a else b) = l := by
  have hsame : ∀ b ∈ l, (if key b = key a then a else b) = b := by
    intro b hb
    split
    · rename_i hkey
      exact (eq_of_key hnodup hb hmem hkey).symm
    · rfl
  rw [List.map_congr_left hsame, List.map_id']

theorem replace_replace {a' : α} (hkey : key a' = key a) :
    ((l.map fun b => if key b = key a then a else b).map
      fun b => if key b = key a' then a' else b) =
      l.map fun b => if key b = key a' then a' else b := by
  rw [List.map_map]
  apply List.map_congr_left
  intro b _
  by_cases hb : key b = key a
  · simp [hb, hkey]
  · simp [hb, hkey]

/-- A search by another property finds the record that was written over the one
    it found before, if the property is the same of both. -/
theorem find_replace_pred {p : α → Bool} {a' : α} (hnodup : (l.map key).Nodup)
    (hfind : l.find? p = some a) (hkey : key a' = key a) (hp : p a' = p a) :
    (l.map fun b => if key b = key a' then a' else b).find? p = some a' := by
  induction l with
  | nil => exact absurd hfind (by simp)
  | cons b l ih =>
    rw [List.map_cons, List.nodup_cons] at hnodup
    rw [List.map_cons]
    by_cases hb : p b = true
    · rw [List.find?_cons_of_pos hb] at hfind
      obtain rfl := Option.some.inj hfind
      rw [if_pos hkey.symm]
      exact List.find?_cons_of_pos (by rw [hp, hb])
    · rw [List.find?_cons_of_neg hb] at hfind
      have hne : key b ≠ key a' := by
        intro heq
        exact hnodup.1 (heq.trans hkey ▸ List.mem_map_of_mem (List.mem_of_find?_eq_some hfind))
      rw [if_neg hne, List.find?_cons_of_neg hb]
      exact ih hnodup.2 hfind

theorem find_replace_ne (hne : k ≠ key a) :
    (l.map fun b => if key b = key a then a else b).find? (key · == k) =
      l.find? (key · == k) := by
  induction l with
  | nil => rfl
  | cons b l ih =>
    rw [List.map_cons]
    by_cases hb : key b = key a
    · rw [if_pos hb, List.find?_cons_of_neg (by simpa using hne.symm),
        List.find?_cons_of_neg (by simpa [hb] using hne.symm), ih]
    · rw [if_neg hb]
      by_cases hk : key b = k
      · rw [List.find?_cons_of_pos (by simpa using hk), List.find?_cons_of_pos (by simpa using hk)]
      · rw [List.find?_cons_of_neg (by simpa using hk), List.find?_cons_of_neg (by simpa using hk),
          ih]

theorem mem_replace (hmem : key a ∈ l.map key) {b : α} :
    b ∈ (l.map fun c => if key c = key a then a else c) ↔ b = a ∨ b ∈ l ∧ key b ≠ key a := by
  constructor
  · intro hb
    obtain ⟨c, hc, rfl⟩ := List.mem_map.mp hb
    by_cases hkey : key c = key a
    · exact .inl (if_pos hkey)
    · rw [if_neg hkey]
      exact .inr ⟨hc, hkey⟩
  · rintro (rfl | ⟨hb, hkey⟩)
    · obtain ⟨c, hc, hkey⟩ := List.mem_map.mp hmem
      exact List.mem_map.mpr ⟨c, hc, if_pos hkey⟩
    · exact List.mem_map.mpr ⟨b, hb, if_neg hkey⟩

/-! ### Removal -/

theorem mem_eraseP (hnodup : (l.map key).Nodup) {b : α} :
    b ∈ l.eraseP (key · == k) ↔ b ∈ l ∧ key b ≠ k := by
  induction l with
  | nil => simp
  | cons c l ih =>
    rw [List.map_cons, List.nodup_cons] at hnodup
    by_cases hc : key c = k
    · rw [List.eraseP_cons_of_pos (by simpa using hc)]
      constructor
      · intro hb
        refine ⟨List.mem_cons_of_mem _ hb, ?_⟩
        rintro rfl
        exact hnodup.1 (hc ▸ List.mem_map_of_mem hb)
      · rintro ⟨hb, hkey⟩
        rcases List.mem_cons.mp hb with rfl | hb
        · exact absurd hc hkey
        · exact hb
    · rw [List.eraseP_cons_of_neg (by simpa using hc), List.mem_cons, ih hnodup.2, List.mem_cons]
      constructor
      · rintro (rfl | ⟨hb, hkey⟩)
        · exact ⟨.inl rfl, hc⟩
        · exact ⟨.inr hb, hkey⟩
      · rintro ⟨rfl | hb, hkey⟩
        · exact .inl rfl
        · exact .inr ⟨hb, hkey⟩

theorem nodup_eraseP (hnodup : (l.map key).Nodup) :
    ((l.eraseP (key · == k)).map key).Nodup :=
  hnodup.sublist (List.eraseP_sublist.map key)

theorem map_key_eraseP : (l.eraseP (key · == k)).map key = (l.map key).erase k := by
  induction l with
  | nil => rfl
  | cons b l ih =>
    by_cases hb : key b = k
    · rw [List.eraseP_cons_of_pos (by simpa using hb), List.map_cons, hb, List.erase_cons_head]
    · rw [List.eraseP_cons_of_neg (by simpa using hb), List.map_cons, List.map_cons, ih,
        List.erase_cons_tail (by simpa using hb)]

theorem find_eraseP_self (hnodup : (l.map key).Nodup) :
    (l.eraseP (key · == k)).find? (key · == k) = none := by
  rw [find_eq_none, map_key_eraseP]
  exact hnodup.not_mem_erase

theorem find_eraseP_ne {k' : κ} (hne : k' ≠ k) :
    (l.eraseP (key · == k)).find? (key · == k') = l.find? (key · == k') := by
  induction l with
  | nil => rfl
  | cons b l ih =>
    by_cases hb : key b = k
    · rw [List.eraseP_cons_of_pos (by simpa using hb),
        List.find?_cons_of_neg (by simpa [hb] using hne.symm)]
    · rw [List.eraseP_cons_of_neg (by simpa using hb)]
      by_cases hk : key b = k'
      · rw [List.find?_cons_of_pos (by simpa using hk), List.find?_cons_of_pos (by simpa using hk)]
      · rw [List.find?_cons_of_neg (by simpa using hk), List.find?_cons_of_neg (by simpa using hk),
          ih]

/-- Giving one element of a keyed list more values adds their images. -/
theorem flatMap_extend {β γ : Type} (hnodup : (l.map key).Nodup) (ha : a ∈ l) (g : κ → List β)
    (values : List β) (f : α → β → γ) :
    (l.flatMap fun x => (g (key x) ++ if key x = key a then values else []).map (f x)).Perm
      (l.flatMap (fun x => (g (key x)).map (f x)) ++ values.map (f a)) := by
  induction l with
  | nil => exact absurd ha List.not_mem_nil
  | cons x l ih =>
    rw [List.map_cons, List.nodup_cons] at hnodup
    obtain ⟨hnot, hrest⟩ := hnodup
    rw [List.flatMap_cons, List.flatMap_cons, List.map_append]
    rcases List.mem_cons.mp ha with rfl | hmem
    · -- the other keys differ, so only the head grows
      have hothers : (l.flatMap fun y =>
          (g (key y) ++ if key y = key a then values else []).map (f y)) =
            l.flatMap fun y => (g (key y)).map (f y) := by
        refine List.flatMap_congr ?_
        intro y hy
        have hne : key y ≠ key a := by
          intro hkey
          exact hnot (hkey ▸ List.mem_map_of_mem hy)
        rw [if_neg hne, List.append_nil]
      rw [hothers, if_pos rfl, List.append_assoc, List.append_assoc]
      exact List.perm_append_comm.append_left _
    · have hne : key x ≠ key a := by
        intro hkey
        exact hnot (hkey ▸ List.mem_map_of_mem hmem)
      rw [if_neg hne, List.map_nil, List.append_nil, List.append_assoc]
      exact (ih hrest hmem).append_left _

/-- Writing a record and then removing its key is the same as removing the key. -/
theorem eraseP_replace (hnodup : (l.map key).Nodup) :
    (l.map fun b => if key b = key a then a else b).eraseP (key · == key a) =
      l.eraseP (key · == key a) := by
  induction l with
  | nil => rfl
  | cons b l ih =>
    rw [List.map_cons, List.nodup_cons] at hnodup
    by_cases hb : key b = key a
    · have hrest : (l.map fun b => if key b = key a then a else b) = l := by
        conv_rhs => rw [← List.map_id l]
        apply List.map_congr_left
        intro c hc
        have hne : key c ≠ key a := fun heq =>
          hnodup.1 (List.mem_map.mpr ⟨c, hc, heq.trans hb.symm⟩)
        exact if_neg hne
      rw [List.map_cons, if_pos hb, hrest, List.eraseP_cons_of_pos (by simp),
        List.eraseP_cons_of_pos (by simpa using hb)]
    · rw [List.map_cons, if_neg hb, List.eraseP_cons_of_neg (by simpa using hb),
        List.eraseP_cons_of_neg (by simpa using hb), ih hnodup.2]

/-! ### Both updates -/

/-- The record of a key overwritten, or removed. -/
def assign (key : α → κ) (k : κ) (left : Option α) (l : List α) : List α :=
  match left with
  | some a => l.map fun b => if key b = k then a else b
  | none => l.eraseP (key · == k)

theorem find_assign_self {left : Option α} (hnodup : (l.map key).Nodup) (hmem : k ∈ l.map key)
    (hleft : ∀ a, left = some a → key a = k) :
    (assign key k left l).find? (key · == k) = left := by
  cases left with
  | none => exact find_eraseP_self hnodup
  | some a =>
    obtain rfl := hleft a rfl
    exact find_replace_self hmem

theorem find_assign_ne {left : Option α} {k' : κ} (hne : k' ≠ k)
    (hleft : ∀ a, left = some a → key a = k) :
    (assign key k left l).find? (key · == k') = l.find? (key · == k') := by
  cases left with
  | none => exact find_eraseP_ne hne
  | some a =>
    obtain rfl := hleft a rfl
    exact find_replace_ne hne

/-- What does not hold of the record before or after is not touched. -/
theorem filter_assign {left : Option α} {p : α → Bool}
    (hold : ∀ b ∈ l, key b = k → p b = false) (hnew : ∀ a, left = some a → p a = false) :
    (assign key k left l).filter p = l.filter p := by
  induction l with
  | nil => cases left <;> rfl
  | cons b l ih =>
    have hrest := ih fun c hc => hold c (List.mem_cons_of_mem _ hc)
    by_cases hb : key b = k
    · have hdrop : p b = false := hold b List.mem_cons_self hb
      cases left with
      | none =>
        show ((b :: l).eraseP (key · == k)).filter p = _
        rw [List.eraseP_cons_of_pos (by simpa using hb),
          List.filter_cons_of_neg (by rw [hdrop]; decide)]
      | some a =>
        have hskip : p a = false := hnew a rfl
        show ((b :: l).map fun b => if key b = k then a else b).filter p = _
        rw [List.map_cons, if_pos hb, List.filter_cons_of_neg (by rw [hskip]; decide),
          List.filter_cons_of_neg (by rw [hdrop]; decide)]
        exact hrest
    · have hstep : assign key k left (b :: l) = b :: assign key k left l := by
        cases left with
        | none =>
          show (b :: l).eraseP (key · == k) = b :: l.eraseP (key · == k)
          rw [List.eraseP_cons_of_neg (by simpa using hb)]
        | some a => exact congrArg (· :: _) (if_neg hb)
      rw [hstep, List.filter_cons, List.filter_cons, hrest]

/-- Overwriting keeps the order of the keys, and removing takes one of them out. -/
theorem map_key_assign_sublist {left : Option α} (hleft : ∀ a, left = some a → key a = k) :
    ((assign key k left l).map key).Sublist (l.map key) := by
  cases left with
  | none => exact List.eraseP_sublist.map key
  | some a =>
    obtain rfl := hleft a rfl
    have hkeys : (assign key (key a) (some a) l).map key = l.map key := map_key_replace
    rw [hkeys]

omit [DecidableEq κ] in
/-- A property of one key only holds of one record at most. -/
theorem length_filter_le_one {p : α → Bool} (hnodup : (l.map key).Nodup)
    (hkey : ∀ a ∈ l, p a = true → key a = k) : (l.filter p).length ≤ 1 := by
  have hdistinct : ((l.filter p).map key).Nodup := hnodup.sublist (List.filter_sublist.map key)
  have hall : ∀ a ∈ l.filter p, key a = k := fun a ha =>
    hkey a (List.mem_of_mem_filter ha) (List.of_mem_filter ha)
  match hfilter : l.filter p with
  | [] => exact Nat.zero_le 1
  | [a] => exact Nat.le_refl 1
  | a :: b :: rest =>
    rw [hfilter] at hdistinct hall
    have hab : key a = key b := by
      rw [hall a List.mem_cons_self, hall b (List.mem_cons_of_mem _ List.mem_cons_self)]
    rw [List.map_cons, List.nodup_cons] at hdistinct
    exact absurd (hab ▸ List.mem_cons_self) hdistinct.1

end RlClient.Keyed
