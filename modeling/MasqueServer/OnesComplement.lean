import Mathlib.Algebra.Order.Ring.Nat
import Mathlib.Tactic.Ring

/-!
# One's complement sums

Numbers up to a maximum `m` are added with end-around carry: what exceeds the digits of `m` is added
back at the low end. This is arithmetic modulo `m` in which zero has two forms, and a sum ends as
`0` only if nothing but zeros was added.
-/
namespace MasqueServer.OnesComplement

variable {m : ℕ}

/-- The carry is added back once. -/
def carry (m s : ℕ) : ℕ := s % (m + 1) + s / (m + 1)

/-- The sum after all carries. -/
def fold (m s : ℕ) : ℕ := if s = 0 then 0 else (s - 1) % m + 1

@[simp] lemma fold_zero : fold m 0 = 0 := if_pos rfl

lemma fold_of_pos {s : ℕ} (h : 0 < s) : fold m s = (s - 1) % m + 1 := if_neg h.ne'

lemma fold_le (hm : 0 < m) (s : ℕ) : fold m s ≤ m := by
  unfold fold
  split_ifs
  · exact Nat.zero_le m
  · exact Nat.mod_lt (s - 1) hm

lemma fold_of_le {s : ℕ} (h : s ≤ m) : fold m s = s := by
  obtain rfl | hpos := s.eq_zero_or_pos
  · exact fold_zero
  · rw [fold_of_pos hpos, Nat.mod_eq_of_lt (by omega)]
    omega

lemma fold_add_mul {s : ℕ} (h : 0 < s) (k : ℕ) : fold m (s + m * k) = fold m s := by
  have hsum : s + m * k - 1 = s - 1 + m * k := by omega
  rw [fold_of_pos (Nat.add_pos_left h _), fold_of_pos h, hsum, Nat.add_mul_mod_self_left]

lemma carry_add_mul (s : ℕ) : carry m s + m * (s / (m + 1)) = s := by
  have hdiv := Nat.mod_add_div s (m + 1)
  have hmul : (m + 1) * (s / (m + 1)) = m * (s / (m + 1)) + s / (m + 1) := by ring
  unfold carry
  omega

lemma carry_pos {s : ℕ} (h : 0 < s) : 0 < carry m s := by
  by_contra hnot
  have hzero : carry m s = 0 := by omega
  have hsum := carry_add_mul (m := m) s
  rw [hzero, Nat.eq_zero_of_add_eq_zero_left hzero] at hsum
  omega

lemma fold_carry (s : ℕ) : fold m (carry m s) = fold m s := by
  obtain rfl | hpos := s.eq_zero_or_pos
  · simp [carry]
  · have hfold := fold_add_mul (m := m) (carry_pos (m := m) hpos) (s / (m + 1))
    rw [carry_add_mul] at hfold
    exact hfold.symm

lemma fold_mul {k : ℕ} (hm : 0 < m) (hk : 0 < k) : fold m (m * k) = m := by
  obtain ⟨j, rfl⟩ : ∃ j, k = j + 1 := ⟨k - 1, by omega⟩
  have hsum : m * (j + 1) = m + m * j := by ring
  rw [hsum, fold_add_mul hm, fold_of_le le_rfl]

lemma exists_eq_fold_add (s : ℕ) : ∃ k, s = fold m s + m * k := by
  obtain rfl | hpos := s.eq_zero_or_pos
  · exact ⟨0, by simp⟩
  · have hdiv := Nat.mod_add_div (s - 1) m
    refine ⟨(s - 1) / m, ?_⟩
    rw [fold_of_pos hpos]
    omega

/-- The complement of a sum completes it. -/
theorem fold_complement (hm : 0 < m) (s : ℕ) : fold m (s + (m - fold m s)) = m := by
  obtain ⟨k, hk⟩ := exists_eq_fold_add (m := m) s
  have hle := fold_le hm s
  have hsum : s + (m - fold m s) = m * (k + 1) := by
    have hmul : m * (k + 1) = m * k + m := by ring
    omega
  rw [hsum]
  exact fold_mul hm (Nat.succ_pos k)

/-- Where the complement is zero, so is its other form. -/
theorem fold_add_max (hm : 0 < m) {s : ℕ} (h : fold m s = m) : fold m (s + m) = m := by
  have hpos : 0 < s := by
    by_contra hzero
    obtain rfl : s = 0 := by omega
    rw [fold_zero] at h
    omega
  have hsum := fold_add_mul (m := m) hpos 1
  rwa [Nat.mul_one, h] at hsum

end MasqueServer.OnesComplement
