import Mathlib.Data.List.Sort
import Mathlib.Tactic

/-!
# Sorting, removal of repeats, and binary search

A vector is sorted, adjacent repeats are removed, and membership is then decided by
halving an interval without an early exit on equality. The loop keeps a base whose
element does not exceed the wanted value unless the base is still the first position,
and no occurrence beyond the interval.
-/
namespace MasqueServer

open List

variable {α : Type*} [LinearOrder α]

def dedupAdjacent : List α → List α
  | [] => []
  | [a] => [a]
  | a :: b :: xs => if a = b then dedupAdjacent (b :: xs) else a :: dedupAdjacent (b :: xs)

variable (xs : List α)

@[simp] theorem mem_dedupAdjacent (x : α) : x ∈ dedupAdjacent xs ↔ x ∈ xs := by
  induction xs using dedupAdjacent.induct with
  | case1 => simp [dedupAdjacent]
  | case2 a => simp [dedupAdjacent]
  | case3 b xs ih => simp [dedupAdjacent, ih]
  | case4 a b xs h ih => simp [dedupAdjacent, h, ih]

theorem dedupAdjacent_sublist : (dedupAdjacent xs).Sublist xs := by
  induction xs using dedupAdjacent.induct with
  | case1 => simp [dedupAdjacent]
  | case2 a => simp [dedupAdjacent]
  | case3 b xs ih =>
    simp only [dedupAdjacent, if_true]
    exact ih.cons b
  | case4 a b xs h ih =>
    simp only [dedupAdjacent, if_neg h]
    exact ih.cons_cons a

/-- The halving loop of the standard library: `size` shrinks to one, and the base moves
to the middle unless the element there is greater than the wanted one. -/
def searchLoop (xs : List α) (x : α) : ℕ → ℕ → ℕ → ℕ
  | 0, base, _ => base
  | fuel + 1, base, size =>
    if size ≤ 1 then base
    else
      let half := size / 2
      let mid := base + half
      let base := match xs[mid]? with
        | some y => if x < y then base else mid
        | none => base
      searchLoop xs x fuel base (size - half)

def binarySearch (x : α) : Bool :=
  xs[searchLoop xs x xs.length 0 xs.length]? == some x

lemma sorted_getElem?_le {xs : List α} (hs : xs.Pairwise (· ≤ ·)) {i j : ℕ} {a b : α}
    (hij : i ≤ j) (hi : xs[i]? = some a) (hj : xs[j]? = some b) : a ≤ b := by
  obtain ⟨hil, rfl⟩ := List.getElem?_eq_some_iff.mp hi
  obtain ⟨hjl, rfl⟩ := List.getElem?_eq_some_iff.mp hj
  rcases Nat.lt_or_eq_of_le hij with h | h
  · exact pairwise_iff_getElem.mp hs i j hil hjl h
  · simp [h]

/-- On a sorted list the loop never loses the wanted value: as long as one occurrence lies
inside the interval and none beyond it, the final base holds the value. -/
theorem searchLoop_spec (x : α) (hs : xs.Pairwise (· ≤ ·)) (fuel base size i : ℕ)
    (hfuel : size ≤ fuel + 1) (hbound : base + size ≤ xs.length) (hi : xs[i]? = some x)
    (hlo : base ≤ i) (hhi : i < base + size) (hlast : ∀ j, base + size ≤ j → xs[j]? ≠ some x) :
    xs[searchLoop xs x fuel base size]? = some x := by
  induction fuel generalizing base size i with
  | zero =>
    have he : i = base := by omega
    simpa [searchLoop, ← he] using hi
  | succ fuel ih =>
    by_cases hone : size ≤ 1
    · have he : i = base := by omega
      simpa [searchLoop, hone, ← he] using hi
    obtain ⟨y, hy⟩ : ∃ y, xs[base + size / 2]? = some y :=
      ⟨_, getElem?_eq_getElem (by omega)⟩
    simp only [searchLoop, if_neg hone, hy]
    by_cases hlt : x < y
    · have hnone : ∀ j, base + size / 2 ≤ j → xs[j]? ≠ some x := by
        intro j hj he
        exact absurd (sorted_getElem?_le hs hj hy he) (not_le.mpr hlt)
      have him : i < base + size / 2 := by
        by_contra hge
        exact hnone i (by omega) hi
      rw [if_pos hlt]
      exact ih base (size - size / 2) i (by omega) (by omega) hi hlo (by omega)
        (fun j hj => hnone j (by omega))
    · rw [if_neg hlt]
      by_cases him : base + size / 2 ≤ i
      · exact ih (base + size / 2) (size - size / 2) i (by omega) (by omega) hi him (by omega)
          (fun j hj => hlast j (by omega))
      · have hxy : x = y :=
          le_antisymm (sorted_getElem?_le hs (by omega) hi hy) (not_lt.mp hlt)
        exact ih (base + size / 2) (size - size / 2) (base + size / 2) (by omega) (by omega)
          (hxy ▸ hy) le_rfl (by omega) (fun j hj => hlast j (by omega))

theorem binarySearch_iff (x : α) (hs : xs.Pairwise (· ≤ ·)) :
    binarySearch xs x = true ↔ x ∈ xs := by
  simp only [binarySearch, beq_iff_eq]
  constructor
  · intro h
    exact mem_of_getElem? h
  · intro h
    obtain ⟨i, hi⟩ := mem_iff_getElem?.mp h
    obtain ⟨hil, -⟩ := List.getElem?_eq_some_iff.mp hi
    exact searchLoop_spec xs x hs xs.length 0 xs.length i (by omega) (by omega) hi
      (by omega) (by omega) (fun j hj => by rw [getElem?_eq_none (by omega)]; simp)

theorem binarySearch_sorted_dedup (x : α) :
    binarySearch (dedupAdjacent (xs.mergeSort (· ≤ ·))) x = true ↔ x ∈ xs := by
  have hsorted : (xs.mergeSort (· ≤ ·)).Pairwise (· ≤ ·) := pairwise_mergeSort' (· ≤ ·) xs
  rw [binarySearch_iff _ _ (hsorted.sublist (dedupAdjacent_sublist _)), mem_dedupAdjacent,
    mem_mergeSort]

end MasqueServer
