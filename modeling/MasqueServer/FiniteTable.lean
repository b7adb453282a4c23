import Mathlib.Algebra.Order.BigOperators.Group.List
import Mathlib.Algebra.Order.Ring.Nat
import Mathlib.Data.List.AList

/-!
# Finite tables

A table is a finite map with unique keys, stored as an association list. Hash maps of a modelled
program are tables: the stored order stands for the iteration order the program leaves unspecified,
and no result below depends on it.
-/
namespace MasqueServer

open List Option

/-- A finite map from `α` to `β`. -/
abbrev Table (α : Type*) (β : Type*) := AList (fun _ : α => β)

namespace Table

variable {α β : Type*} [DecidableEq α]

variable (t : Table α β)

def get (k : α) : Option β := t.lookup k

def contains (k : α) : Bool := (t.get k).isSome

def size : ℕ := t.entries.length

def put (k : α) (v : β) : Table α β := t.insert k v

def modify (k : α) (f : β → β) : Table α β :=
  match t.get k with
  | some v => t.put k (f v)
  | none => t

def remove (k : α) : Table α β := t.erase k

def retain (p : α → β → Bool) (t : Table α β) : Table α β :=
  ⟨t.entries.filter (fun e => p e.1 e.2), t.nodupKeys.sublist filter_sublist⟩

def overlay (p : β → Bool) (t t' : Table α β) : Table α β :=
  t'.entries.foldl (fun t e => if p e.2 then t.put e.1 e.2 else t) t

@[simp] theorem get_empty (k : α) : (∅ : Table α β).get k = none := rfl

omit [DecidableEq α] in
@[simp] theorem size_empty : (∅ : Table α β).size = 0 := rfl

@[simp] theorem get_put (k k' : α) (v : β) :
    (t.put k v).get k' = if k' = k then some v else t.get k' := by
  by_cases h : k' = k
  · subst k'
    simp [get, put]
  · simp [get, put, h, AList.lookup_insert_ne h]

variable {t : Table α β} {k : α} {v : β} {f : β → ℕ}

theorem get_put_cases {k' : α} {w : β} (h : (t.put k v).get k' = some w) :
    k' = k ∧ w = v ∨ k' ≠ k ∧ t.get k' = some w := by
  rw [get_put, ite_eq_iff] at h
  exact h.imp_left fun ⟨hk, hv⟩ => ⟨hk, (some.inj hv).symm⟩

@[simp] theorem get_remove (t : Table α β) (k k' : α) :
    (t.remove k).get k' = if k' = k then none else t.get k' := by
  by_cases h : k' = k
  · subst k'
    simp [get, remove]
  · simp [get, remove, h, AList.lookup_erase_ne h]

theorem get_modify (t : Table α β) (k k' : α) (f : β → β) :
    (t.modify k f).get k' = if k' = k then (t.get k).map f else t.get k' := by
  unfold modify
  by_cases h : k' = k
  · subst h
    cases hk : t.get k' <;> simp [hk]
  · cases hk : t.get k <;> simp [h]

theorem get_foldl_remove (t : Table α β) (ks : List α) (k : α) :
    (ks.foldl remove t).get k = if k ∈ ks then none else t.get k := by
  induction ks generalizing t with
  | nil => simp
  | cons k' ks ih =>
    rw [foldl_cons, ih, get_remove]
    by_cases hk : k ∈ ks
    · rw [if_pos hk, if_pos (mem_cons_of_mem k' hk)]
    · simp [hk]

theorem mem_entries :
    (⟨k, v⟩ : Sigma fun _ : α => β) ∈ t.entries ↔ t.get k = some v :=
  (AList.mem_lookup_iff (s := t)).symm

@[simp] theorem get_retain (p : α → β → Bool) (t : Table α β) (k : α) :
    (t.retain p).get k = (t.get k).filter (p k) := by
  ext v
  rw [← mem_entries, filter_eq_some_iff, ← mem_entries]
  simp [retain]

theorem get_overlay (p : β → Bool) (t t' : Table α β) (k : α) :
    (t.overlay p t').get k = ((t'.get k).filter p).or (t.get k) := by
  have hlist : ∀ (l : List (Sigma fun _ : α => β)) (t : Table α β), l.NodupKeys →
      (l.foldl (fun t e => if p e.2 then t.put e.1 e.2 else t) t).get k =
        ((l.dlookup k).filter p).or (t.get k) := by
    intro l
    induction l with
    | nil => exact fun _ _ => rfl
    | cons e l ih =>
      intro t hnodup
      obtain ⟨hfresh, hrest⟩ := nodupKeys_cons.mp hnodup
      rw [foldl_cons, ih _ hrest]
      by_cases hk : e.1 = k
      · obtain ⟨k', v⟩ := e
        obtain rfl : k' = k := hk
        rw [dlookup_eq_none.mpr hfresh, dlookup_cons_eq]
        cases hp : p v <;> simp [Option.filter, hp]
      · have hget : (if p e.2 then t.put e.1 e.2 else t).get k = t.get k := by
          split
          · rw [get_put, if_neg (Ne.symm hk)]
          · rfl
        rw [hget, dlookup_cons_ne _ _ (Ne.symm hk)]
  exact hlist t'.entries t t'.nodupKeys

theorem contains_iff : t.contains k = true ↔ ∃ v, t.get k = some v := by
  simp [contains, isSome_iff_exists]

theorem contains_eq_false : t.contains k = false ↔ t.get k = none := by
  simp [contains]

theorem contains_iff_mem_keys : t.contains k = true ↔ k ∈ t.keys := by
  rw [← AList.mem_keys, contains, get, AList.lookup_isSome]

theorem size_le_of_contains {t' : Table α β} (h : ∀ k, t.contains k = true → t'.contains k = true) :
    t.size ≤ t'.size := by
  have hsub : t.keys ⊆ t'.keys := fun k hk =>
    contains_iff_mem_keys.mp (h k (contains_iff_mem_keys.mpr hk))
  have hlength := (subperm_of_subset t.nodupKeys hsub).length_le
  simpa only [size, AList.keys, List.keys, length_map] using hlength

omit [DecidableEq α] in
theorem size_retain_le (p : α → β → Bool) (t : Table α β) : (t.retain p).size ≤ t.size :=
  length_filter_le _ _

theorem size_put_of_get_eq_none (h : t.get k = none) (v : β) :
    (t.put k v).size = t.size + 1 := by
  have hk : k ∉ t.keys := by
    rw [← AList.mem_keys, ← AList.lookup_eq_none]
    exact h
  simp only [size, put, AList.entries_insert, length_cons, kerase_of_notMem_keys hk]

theorem size_put_le (t : Table α β) (k : α) (v : β) : (t.put k v).size ≤ t.size + 1 := by
  simp only [size, put, AList.entries_insert, length_cons]
  have h := (kerase_sublist k t.entries).length_le
  omega

theorem size_remove_le (t : Table α β) (k : α) : (t.remove k).size ≤ t.size :=
  (kerase_sublist k t.entries).length_le

theorem size_remove_add_one (h : t.contains k = true) :
    (t.remove k).size + 1 = t.size := by
  obtain ⟨v, hv⟩ := contains_iff.mp h
  rw [← size_put_of_get_eq_none (k := k) (by simp) v]
  refine Nat.le_antisymm (size_le_of_contains fun k' hk' => ?_)
    (size_le_of_contains fun k' hk' => ?_)
  · by_cases hk : k' = k
    · exact hk ▸ h
    · simpa [contains, hk] using hk'
  · by_cases hk : k' = k
    · simp [contains, hk]
    · simpa [contains, hk] using hk'

/-- Walk over the entries that a table has at the start. What each visit preserves, given that
its entry is still there, holds at the end when a visit touches no other entry. -/
theorem foldl_entries {σ : Type*} {P : σ → Prop} (view : σ → Table α β)
    {f : σ → (Sigma fun _ : α => β) → σ}
    (hvisit : ∀ s e, P s → (view s).get e.1 = some e.2 → P (f s e))
    (hothers : ∀ s e k, k ≠ e.1 → (view (f s e)).get k = (view s).get k) {s : σ} (hs : P s) :
    P ((view s).entries.foldl f s) := by
  have hwalk : ∀ (l : List (Sigma fun _ : α => β)) (s : σ), l.NodupKeys →
      (∀ e ∈ l, (view s).get e.1 = some e.2) → P s → P (l.foldl f s) := by
    intro l
    induction l with
    | nil => exact fun s _ _ hs => hs
    | cons e l ih =>
      intro s hnodup hpresent hs
      obtain ⟨hfresh, hrest⟩ := nodupKeys_cons.mp hnodup
      refine ih (f s e) hrest (fun e' he' => ?_) (hvisit s e hs (hpresent e mem_cons_self))
      have hne : e'.1 ≠ e.1 := fun heq => hfresh (heq ▸ mem_keys_of_mem he')
      rw [hothers s e e'.1 hne]
      exact hpresent e' (mem_cons_of_mem e he')
  exact hwalk _ s (view s).nodupKeys (fun e he => mem_entries.mp he) hs

theorem size_put_le_of_contains (h : t.contains k = true) (v : β) :
    (t.put k v).size ≤ t.size := by
  refine size_le_of_contains fun k' hk' => ?_
  by_cases hk : k' = k
  · exact hk ▸ h
  · simpa [contains, hk] using hk'

/-! ### Entries outside a list of keys -/

def outside (t : Table α β) (ks : List α) : ℕ := (t.retain fun k _ => decide (k ∉ ks)).size

theorem contains_retain_key (p : α → Bool) (t : Table α β) (k : α) :
    (t.retain fun k _ => p k).contains k = (t.contains k && p k) := by
  cases hk : t.get k with
  | none => simp [contains, hk]
  | some v => cases hp : p k <;> simp [contains, hk, hp]

theorem outside_le {t' : Table α β} {ks ks' : List α}
    (h : ∀ k, k ∉ ks' → t'.contains k = true → k ∉ ks ∧ t.contains k = true) :
    t'.outside ks' ≤ t.outside ks := by
  refine size_le_of_contains fun k hk => ?_
  rw [contains_retain_key, Bool.and_eq_true, decide_eq_true_eq] at hk ⊢
  exact (h k hk.2 hk.1).symm

theorem outside_nil (t : Table α β) : t.outside [] = t.size := by
  simp [outside, retain, size]

theorem outside_le_size (t : Table α β) (ks : List α) : t.outside ks ≤ t.size := size_retain_le _ t

theorem outside_remove_le (t : Table α β) (k : α) (ks : List α) :
    (t.remove k).outside ks ≤ t.outside ks := by
  refine outside_le fun k' hks hk' => ⟨hks, ?_⟩
  by_cases hk : k' = k
  · simp [contains, hk] at hk'
  · simpa [contains, hk] using hk'

theorem outside_modify_le (t : Table α β) (k : α) (f : β → β) (ks : List α) :
    (t.modify k f).outside ks ≤ t.outside ks := by
  refine outside_le fun k' hks hk' => ⟨hks, ?_⟩
  by_cases hk : k' = k
  · simpa [contains, get_modify, hk] using hk'
  · simpa [contains, get_modify, hk] using hk'

theorem outside_put_concat (t : Table α β) (k : α) (v : β) (ks : List α) :
    (t.put k v).outside (ks ++ [k]) ≤ t.outside ks := by
  refine outside_le fun k' hks hk' => ?_
  rw [mem_append, mem_singleton, not_or] at hks
  exact ⟨hks.1, by simpa [contains, hks.2] using hk'⟩

theorem outside_le_cons (habsent : t.contains k = false) (ks : List α) :
    t.outside ks ≤ t.outside (k :: ks) := by
  refine outside_le fun k' hks hk' => ⟨?_, hk'⟩
  rw [mem_cons, not_or]
  refine ⟨?_, hks⟩
  rintro rfl
  rw [habsent] at hk'
  cases hk'

theorem outside_remove_cons (t : Table α β) (k : α) (ks : List α) :
    (t.remove k).outside ks ≤ t.outside (k :: ks) :=
  (outside_le_cons (by simp [contains]) ks).trans (outside_remove_le t k _)

/-! ### Presence as a number -/

def holds (t : Table α β) (k : α) : ℕ := (t.contains k).toNat

@[simp] theorem holds_empty (k : α) : (∅ : Table α β).holds k = 0 := rfl

theorem holds_eq_one (h : t.contains k = true) : t.holds k = 1 := by
  rw [holds, h, Bool.toNat_true]

theorem holds_eq_zero (h : t.get k = none) : t.holds k = 0 := by
  simp [holds, contains, h]

theorem get_eq_none_of_holds (h : t.holds k = 0) : t.get k = none := by
  simpa [holds, contains] using h

theorem holds_le_one (t : Table α β) (k : α) : t.holds k ≤ 1 := Bool.toNat_le _

theorem holds_put (t : Table α β) (k k' : α) (v : β) :
    (t.put k v).holds k' = if k' = k then 1 else t.holds k' := by
  by_cases h : k' = k <;> simp [holds, contains, h]

theorem holds_remove (t : Table α β) (k k' : α) :
    (t.remove k).holds k' = if k' = k then 0 else t.holds k' := by
  by_cases h : k' = k <;> simp [holds, contains, h]

theorem holds_remove_add (h : t.contains k = true) (k' : α) :
    (t.remove k).holds k' + (if k' = k then 1 else 0) = t.holds k' := by
  rw [holds_remove]
  by_cases hk : k' = k
  · rw [if_pos hk, if_pos hk, hk, holds_eq_one h]
  · rw [if_neg hk, if_neg hk]
    rfl

theorem holds_modify (t : Table α β) (k k' : α) (f : β → β) :
    (t.modify k f).holds k' = t.holds k' := by
  by_cases h : k' = k <;> simp [holds, contains, get_modify, h]

theorem holds_retain_le (p : α → β → Bool) (t : Table α β) (k : α) :
    (t.retain p).holds k ≤ t.holds k := by
  cases h : t.get k with
  | none => simp [holds, contains, h]
  | some v =>
    rw [holds_eq_one (contains_iff.mpr ⟨v, h⟩)]
    exact holds_le_one _ k

/-! ### Sums over a table -/

def total (f : β → ℕ) (t : Table α β) : ℕ := (t.entries.map fun e => f e.2).sum

omit [DecidableEq α] in
@[simp] theorem total_empty (f : β → ℕ) : (∅ : Table α β).total f = 0 := rfl

lemma sum_kerase (f : β → ℕ) (k : α) (l : List (Sigma fun _ : α => β)) (hl : l.NodupKeys) :
    ((l.kerase k).map fun e => f e.2).sum + ((l.dlookup k).map f).getD 0 =
      (l.map fun e => f e.2).sum := by
  induction l with
  | nil => rfl
  | cons e l ih =>
    obtain ⟨k', v⟩ := e
    by_cases h : k = k'
    · subst h
      simp [kerase_cons_eq, dlookup_cons_eq, Nat.add_comm]
    · have hne : k ≠ (⟨k', v⟩ : Sigma fun _ : α => β).1 := h
      rw [kerase_cons_ne hne, dlookup_cons_ne _ _ hne]
      simp only [map_cons, sum_cons]
      rw [Nat.add_assoc, ih (nodupKeys_cons.mp hl).2]

theorem total_put (f : β → ℕ) (t : Table α β) (k : α) (v : β) :
    (t.put k v).total f + ((t.get k).map f).getD 0 = t.total f + f v := by
  have h := sum_kerase f k t.entries t.nodupKeys
  simp only [total, put, get, AList.entries_insert, map_cons, sum_cons]
  have hl : t.lookup k = t.entries.dlookup k := rfl
  rw [hl]
  omega

theorem total_remove (f : β → ℕ) (t : Table α β) (k : α) :
    (t.remove k).total f + ((t.get k).map f).getD 0 = t.total f :=
  sum_kerase f k t.entries t.nodupKeys

theorem total_pos (h : 0 < t.total f) :
    ∃ k v, t.get k = some v ∧ 0 < f v := by
  by_contra hnone
  push Not at hnone
  have hzero : ∀ x ∈ t.entries.map fun e => f e.2, x = 0 := by
    intro x hx
    obtain ⟨⟨k, v⟩, he, rfl⟩ := List.mem_map.mp hx
    exact Nat.le_zero.mp (hnone k v (mem_entries.mp he))
  rw [total, sum_eq_zero hzero] at h
  omega

theorem le_total (h : t.get k = some v) :
    f v ≤ t.total f :=
  single_le_sum (by simp) _ (List.mem_map.mpr ⟨_, mem_entries.mpr h, rfl⟩)

theorem add_le_total {k' : α} {v' : β} (hk : t.get k = some v) (hk' : t.get k' = some v')
    (hne : k ≠ k') : f v + f v' ≤ t.total f := by
  have hrest : f v' ≤ (t.remove k).total f := le_total (by rw [get_remove, if_neg hne.symm, hk'])
  have htotal := total_remove f t k
  rw [hk, map_some, getD_some] at htotal
  omega

omit [DecidableEq α] in
theorem length_le_size {l : List β} (hl : l.Nodup)
    (h : ∀ v ∈ l, ∃ k, (⟨k, v⟩ : Sigma fun _ : α => β) ∈ t.entries) : l.length ≤ t.size := by
  have hsub : l ⊆ t.entries.map fun e => e.2 := fun v hv => by
    obtain ⟨k, hk⟩ := h v hv
    exact List.mem_map.mpr ⟨_, hk, rfl⟩
  have hlength := (subperm_of_subset hl hsub).length_le
  rwa [length_map] at hlength

end Table

end MasqueServer
