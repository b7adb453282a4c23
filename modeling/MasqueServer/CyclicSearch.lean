import Mathlib.Data.Finset.Card
import Mathlib.Order.Interval.Finset.Nat
import Mathlib.Tactic

/-!
# Searching a window in a circle

A cursor walks through the numbers of a window, returns to the first after the last, and stops
at the first number that passes a test. As many steps as the window has numbers visit each of
them once, so such a search fails only if no number passes; a shorter search that fails has met
as many different failing numbers as it took steps.
-/
namespace MasqueServer

/-- The numbers from `low` to `high`. -/
structure Window where
  low : ℕ
  high : ℕ
  low_le : low ≤ high

namespace Window

variable (w : Window)

def size : ℕ := w.high + 1 - w.low

def Inside (x : ℕ) : Prop := w.low ≤ x ∧ x ≤ w.high

def next (x : ℕ) : ℕ := if x = w.high then w.low else x + 1

def place (x i : ℕ) : ℕ := w.low + (x - w.low + i) % w.size

/-- The first number that passes the test, within `left` steps from `x`. -/
def search (free : ℕ → Bool) : ℕ → ℕ → Option ℕ
  | 0, _ => none
  | left + 1, x => if free x then some x else search free left (w.next x)

variable {w} {free : ℕ → Bool} {x y i j left : ℕ}

lemma size_pos : 0 < w.size := by
  have hle := w.low_le
  unfold size
  omega

lemma Inside.next (h : w.Inside x) : w.Inside (w.next x) := by
  obtain ⟨hlow, hhigh⟩ := h
  have hle := w.low_le
  unfold Window.next
  split
  · exact ⟨le_rfl, hle⟩
  · exact ⟨by omega, by omega⟩

lemma inside_place (x i : ℕ) : w.Inside (w.place x i) := by
  have hlt := Nat.mod_lt (x - w.low + i) (size_pos (w := w))
  have hle := w.low_le
  unfold place
  unfold size at hlt ⊢
  exact ⟨by omega, by omega⟩

lemma place_zero (h : w.Inside x) : w.place x 0 = x := by
  obtain ⟨hlow, hhigh⟩ := h
  have hlt : x - w.low < w.size := by
    unfold size
    omega
  rw [place, Nat.add_zero, Nat.mod_eq_of_lt hlt]
  omega

lemma place_next (h : w.Inside x) (i : ℕ) : w.place (w.next x) i = w.place x (i + 1) := by
  obtain ⟨hlow, hhigh⟩ := h
  unfold place Window.next
  split
  next hlast =>
    have hround : x - w.low + (i + 1) = i + w.size := by
      unfold size
      omega
    rw [hround, Nat.add_mod_right, Nat.sub_self, Nat.zero_add]
  next hinner =>
    have hstep : x + 1 - w.low + i = x - w.low + (i + 1) := by omega
    rw [hstep]

lemma place_injective (hi : i < w.size) (hj : j < w.size) (h : w.place x i = w.place x j) :
    i = j := by
  have hmod : (x - w.low + i) % w.size = (x - w.low + j) % w.size := Nat.add_left_cancel h
  have hcongr : i ≡ j [MOD w.size] := Nat.ModEq.add_left_cancel' (x - w.low) hmod
  rwa [Nat.ModEq, Nat.mod_eq_of_lt hi, Nat.mod_eq_of_lt hj] at hcongr

lemma exists_place (hx : w.Inside x) (hy : w.Inside y) : ∃ i < w.size, w.place x i = y := by
  obtain ⟨hxlow, hxhigh⟩ := hx
  obtain ⟨hylow, hyhigh⟩ := hy
  by_cases hle : x ≤ y
  · refine ⟨y - x, by unfold size; omega, ?_⟩
    have hsum : x - w.low + (y - x) = y - w.low := by omega
    rw [place, hsum, Nat.mod_eq_of_lt (by unfold size; omega)]
    omega
  · refine ⟨w.size - (x - y), by unfold size; omega, ?_⟩
    have hsum : x - w.low + (w.size - (x - y)) = y - w.low + w.size := by
      unfold size
      omega
    rw [place, hsum, Nat.add_mod_right, Nat.mod_eq_of_lt (by unfold size; omega)]
    omega

lemma search_eq_none_iff (hx : w.Inside x) :
    w.search free left x = none ↔ ∀ i < left, free (w.place x i) = false := by
  induction left generalizing x with
  | zero => simp [search]
  | succ left ih =>
    rw [search, Nat.forall_lt_succ_left', place_zero hx]
    by_cases hfree : free x = true
    · simp [hfree]
    · rw [if_neg hfree, ih hx.next]
      simp only [place_next hx, hfree, true_and]

lemma search_eq_some (hx : w.Inside x) (h : w.search free left x = some y) :
    w.Inside y ∧ free y = true := by
  induction left generalizing x with
  | zero => cases h
  | succ left ih =>
    rw [search] at h
    split_ifs at h with hfree
    · cases h
      exact ⟨hx, hfree⟩
    · exact ih hx.next h

theorem search_size_eq_none_iff (hx : w.Inside x) :
    w.search free w.size x = none ↔ ∀ y, w.Inside y → free y = false := by
  rw [search_eq_none_iff hx]
  constructor
  · intro h y hy
    obtain ⟨i, hi, rfl⟩ := exists_place hx hy
    exact h i hi
  · intro h i _
    exact h _ (inside_place x i)

theorem le_card_of_search_eq_none (hx : w.Inside x) (hleft : left ≤ w.size)
    (h : w.search free left x = none) :
    left ≤ {y ∈ Finset.Icc w.low w.high | free y = false}.card := by
  rw [search_eq_none_iff hx] at h
  have hmaps : Set.MapsTo (w.place x) (Finset.range left : Set ℕ)
      ({y ∈ Finset.Icc w.low w.high | free y = false} : Finset ℕ) := by
    intro i hi
    have hmem := inside_place (w := w) x i
    have hbusy := h i (Finset.mem_range.mp hi)
    rw [Finset.mem_coe, Finset.mem_filter, Finset.mem_Icc]
    exact ⟨hmem, hbusy⟩
  have hinj : Set.InjOn (w.place x) (Finset.range left : Set ℕ) := by
    intro i hi j hj hij
    rw [Finset.mem_coe, Finset.mem_range] at hi hj
    exact place_injective (hi.trans_le hleft) (hj.trans_le hleft) hij
  have hcard := Finset.card_le_card_of_injOn _ hmaps hinj
  rwa [Finset.card_range] at hcard

end Window

end MasqueServer
