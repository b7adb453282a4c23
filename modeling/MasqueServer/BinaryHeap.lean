import Mathlib.Order.Basic
import Mathlib.Order.Lattice
import Mathlib.Order.Nat
import Mathlib.Data.List.Perm.Basic

/-!
# Binary heaps in a list

The parent of position `i` is `(i - 1) / 2`. A list is a heap when no entry is below its parent's.
-/
namespace MasqueServer

open List Option

namespace BinaryHeap

variable {α : Type*}

def parent (i : ℕ) : ℕ := (i - 1) / 2

variable {i p : ℕ} {l : List α} {a b : ℕ} {x y : α}

lemma parent_lt (h : 0 < i) : parent i < i := by
  unfold parent
  omega

lemma parent_eq_iff (h : 0 < i) : parent i = p ↔ i = 2 * p + 1 ∨ i = 2 * p + 2 := by
  unfold parent
  omega

lemma exists_getElem? (h : i < l.length) : ∃ x, l[i]? = some x :=
  ⟨_, getElem?_eq_getElem h⟩

def exchange (l : List α) (a b : ℕ) : Option (List α) := do
  let x ← l[a]?
  let y ← l[b]?
  return (l.set a y).set b x

def swapRemove (l : List α) (a : ℕ) : Option (List α) := do
  let _ ← l[a]?
  let y ← l.getLast?
  return (l.set a y).dropLast

lemma exchange_eq (ha : l[a]? = some x) (hb : l[b]? = some y) :
    exchange l a b = some ((l.set a y).set b x) := by
  simp [exchange, ha, hb]

lemma getElem?_exchange (ha : l[a]? = some x) (hb : l[b]? = some y) (i : ℕ) :
    ((l.set a y).set b x)[i]? = if i = b then some x else if i = a then some y else l[i]? := by
  have hla : a < l.length := (List.getElem?_eq_some_iff.mp ha).1
  have hlb : b < l.length := (List.getElem?_eq_some_iff.mp hb).1
  by_cases hib : i = b
  · subst hib
    simp [hlb]
  · by_cases hia : i = a
    · subst hia
      simp [hib, Ne.symm hib, hla]
    · simp [hib, hia, Ne.symm hib, Ne.symm hia]

lemma exchange_perm (ha : l[a]? = some x) (hb : l[b]? = some y) : ((l.set a y).set b x).Perm l := by
  obtain ⟨hla, rfl⟩ := List.getElem?_eq_some_iff.mp ha
  obtain ⟨hlb, rfl⟩ := List.getElem?_eq_some_iff.mp hb
  exact set_set_perm hla hlb

lemma swapRemove_concat (l : List α) (y : α) (ha : a ≤ l.length) :
    swapRemove (l ++ [y]) a = some (l.set a y) := by
  have hlt : a < (l ++ [y]).length := by simp; omega
  have hset : ((l ++ [y]).set a y).dropLast = l.set a y := by
    by_cases hl : a < l.length
    · rw [set_append_left _ _ hl, dropLast_concat]
    · have heq : a = l.length := by omega
      subst heq
      simp [set_eq_of_length_le]
  simp [swapRemove, getElem?_eq_getElem hlt, hset]

lemma perm_swapRemove (ha : (l ++ [y])[a]? = some x) :
    (l ++ [y]).Perm (x :: l.set a y) := by
  by_cases hl : a < l.length
  · rw [getElem?_append_left hl] at ha
    obtain ⟨_, rfl⟩ := List.getElem?_eq_some_iff.mp ha
    calc
      List.Perm (l ++ [y]) (y :: l) := perm_append_singleton y l
      List.Perm _ (y :: l[a] :: l.eraseIdx a) := (getElem_cons_eraseIdx_perm hl).symm.cons y
      List.Perm _ (l[a] :: y :: l.eraseIdx a) := .swap _ _ _
      List.Perm _ (l[a] :: l.set a y) := (set_perm_cons_eraseIdx hl y).symm.cons _
  · have hlt := (List.getElem?_eq_some_iff.mp ha).1
    rw [length_append, length_singleton] at hlt
    have heq : a = l.length := by omega
    subst heq
    rw [getElem?_concat_length, some.injEq] at ha
    rw [set_eq_of_length_le le_rfl, ← ha]
    exact perm_append_singleton y l

variable [LinearOrder α]

def IsHeap (l : List α) : Prop :=
  ∀ i x y, 0 < i → l[parent i]? = some x → l[i]? = some y → x ≤ y

def Spans (l : List α) (p : ℕ) : Prop :=
  ∀ i x y, 0 < p → 0 < i → parent i = p → l[parent p]? = some x → l[i]? = some y → x ≤ y

/-- A heap, but for one entry that may be below its parent. -/
structure HeapUp (l : List α) (p : ℕ) : Prop where
  ordered : ∀ i x y, 0 < i → i ≠ p → l[parent i]? = some x → l[i]? = some y → x ≤ y
  spans : Spans l p

/-- A heap, but for one entry that may be above its children. -/
structure HeapDown (l : List α) (p : ℕ) : Prop where
  ordered : ∀ i x y, 0 < i → parent i ≠ p → l[parent i]? = some x → l[i]? = some y → x ≤ y
  spans : Spans l p

/-- A heap, but for one entry about which nothing is known. -/
structure HeapAround (l : List α) (p : ℕ) : Prop where
  ordered : ∀ i x y, 0 < i → i ≠ p → parent i ≠ p → l[parent i]? = some x → l[i]? = some y → x ≤ y
  spans : Spans l p

lemma isHeap_nil : IsHeap ([] : List α) := by
  intro i x y _ hx
  simp at hx

theorem IsHeap.head_le (h : IsHeap l) (hx : l[0]? = some x) (hy : y ∈ l) :
    x ≤ y := by
  obtain ⟨i, hi⟩ := getElem?_of_mem hy
  induction i using Nat.strongRecOn generalizing y with
  | ind i ih =>
    by_cases hzero : i = 0
    · subst hzero
      rw [hx, some.injEq] at hi
      exact hi.le
    · have hpos := Nat.pos_of_ne_zero hzero
      have hparent := parent_lt hpos
      have hlength := (List.getElem?_eq_some_iff.mp hi).1
      obtain ⟨z, hz⟩ := exists_getElem? (hparent.trans hlength)
      exact (ih (parent i) hparent (mem_of_getElem? hz) hz).trans (h i z y hpos hz hi)

/-! ### Upwards -/

lemma HeapUp.stop (h : HeapUp l p)
    (hp : ∀ x y, 0 < p → l[parent p]? = some x → l[p]? = some y → x ≤ y) : IsHeap l := by
  intro i x y hpos hx hy
  by_cases hi : i = p
  · subst hi
    exact hp x y hpos hx hy
  · exact h.ordered i x y hpos hi hx hy

lemma HeapUp.step (h : HeapUp l p) (hpos : 0 < p) (hx : l[parent p]? = some x) (hy : l[p]? = some y)
    (hlt : y < x) :
    HeapUp ((l.set (parent p) y).set p x) (parent p) := by
  have hparent := parent_lt hpos
  have hget := getElem?_exchange hx hy
  refine ⟨fun i u v hi hne hu hv => ?_, fun i u v hq hi hchild hu hv => ?_⟩
  · rw [hget] at hu hv
    by_cases hip : i = p
    · subst hip
      rw [if_neg hparent.ne, if_pos rfl, some.injEq] at hu
      rw [if_pos rfl, some.injEq] at hv
      exact hu ▸ hv ▸ hlt.le
    · rw [if_neg hip, if_neg hne] at hv
      by_cases hchild : parent i = p
      · rw [if_pos hchild, some.injEq] at hu
        exact hu ▸ h.spans i x v hpos hi hchild hx hv
      · rw [if_neg hchild] at hu
        by_cases hsibling : parent i = parent p
        · rw [if_pos hsibling, some.injEq] at hu
          exact hu ▸ hlt.le.trans (h.ordered i x v hi hip (hsibling ▸ hx) hv)
        · rw [if_neg hsibling] at hu
          exact h.ordered i u v hi hip hu hv
  · have hgrand := parent_lt hq
    rw [hget] at hu hv
    rw [if_neg (hgrand.trans hparent).ne, if_neg hgrand.ne] at hu
    have hux := h.ordered (parent p) u x hq hparent.ne hu hx
    by_cases hip : i = p
    · rw [if_pos hip, some.injEq] at hv
      exact hv ▸ hux
    · have hiq : i ≠ parent p := by
        rintro rfl
        exact (parent_lt hi).ne hchild
      rw [if_neg hip, if_neg hiq] at hv
      exact hux.trans (h.ordered i x v hi hip (hchild ▸ hx) hv)

/-! ### Downwards -/

lemma HeapDown.stop (h : HeapDown l p)
    (hp : ∀ i x y, 0 < i → parent i = p → l[p]? = some x → l[i]? = some y → x ≤ y) : IsHeap l := by
  intro i x y hpos hx hy
  by_cases hi : parent i = p
  · exact hp i x y hpos hi (hi ▸ hx) hy
  · exact h.ordered i x y hpos hi hx hy

lemma HeapDown.step {c : ℕ} (h : HeapDown l p) (hpos : 0 < c) (hc : parent c = p)
    (hx : l[p]? = some x) (hy : l[c]? = some y) (hlt : y < x)
    (hleast : ∀ i z, 0 < i → parent i = p → l[i]? = some z → y ≤ z) :
    HeapDown ((l.set p y).set c x) c := by
  have hpc : p < c := hc ▸ parent_lt hpos
  have hget := getElem?_exchange hx hy
  refine ⟨fun i u v hi hne hu hv => ?_, fun i u v _ hi hchild hu hv => ?_⟩
  · rw [hget] at hu hv
    rw [if_neg hne] at hu
    by_cases hchild : parent i = p
    · rw [if_pos hchild, some.injEq] at hu
      subst hu
      by_cases hic : i = c
      · rw [if_pos hic, some.injEq] at hv
        exact hv ▸ hlt.le
      · have hip : i ≠ p := by
          rintro rfl
          exact (parent_lt hi).ne hchild
        rw [if_neg hic, if_neg hip] at hv
        exact hleast i v hi hchild hv
    · rw [if_neg hchild] at hu
      have hic : i ≠ c := by
        rintro rfl
        exact hchild hc
      rw [if_neg hic] at hv
      by_cases hip : i = p
      · subst hip
        rw [if_pos rfl, some.injEq] at hv
        exact hv ▸ h.spans c u y hi hpos hc hu hy
      · rw [if_neg hip] at hv
        exact h.ordered i u v hi hchild hu hv
  · rw [hget] at hu hv
    rw [hc, if_neg hpc.ne, if_pos rfl, some.injEq] at hu
    have hci : c < i := hchild ▸ parent_lt hi
    rw [if_neg hci.ne', if_neg (hpc.trans hci).ne'] at hv
    exact hu ▸ h.ordered i y v hi (hchild ▸ hpc.ne') (hchild ▸ hy) hv

/-! ### Changes of one entry -/

lemma HeapAround.up (h : HeapAround l p) (hx : l[parent p]? = some x) (hy : l[p]? = some y)
    (hpos : 0 < p) (hlt : y < x) :
    HeapUp l p := by
  refine ⟨fun i u v hi hne hu hv => ?_, h.spans⟩
  by_cases hchild : parent i = p
  · rw [hchild, hy, some.injEq] at hu
    exact hu ▸ hlt.le.trans (h.spans i x v hpos hi hchild hx hv)
  · exact h.ordered i u v hi hne hchild hu hv

lemma HeapAround.down (h : HeapAround l p)
    (hp : ∀ x y, 0 < p → l[parent p]? = some x → l[p]? = some y → x ≤ y) : HeapDown l p := by
  refine ⟨fun i u v hi hchild hu hv => ?_, h.spans⟩
  by_cases hip : i = p
  · subst hip
    exact hp u v hi hu hv
  · exact h.ordered i u v hi hip hchild hu hv

lemma IsHeap.around {l' : List α} (h : IsHeap l) (hx : l[p]? = some x)
    (hsame : ∀ i y, i ≠ p → l'[i]? = some y → l[i]? = some y) : HeapAround l' p := by
  refine ⟨fun i u v hi hip hchild hu hv => ?_, fun i u v hp hi hchild hu hv => ?_⟩
  · exact h i u v hi (hsame _ u hchild hu) (hsame i v hip hv)
  · have hip : i ≠ p := by
      rintro rfl
      exact (parent_lt hi).ne hchild
    have hparent := h p u x hp (hsame _ u (parent_lt hp).ne hu) hx
    exact hparent.trans (h i x v hi (hchild ▸ hx) (hsame i v hip hv))

lemma IsHeap.concat (h : IsHeap l) (x : α) : HeapUp (l ++ [x]) l.length := by
  have hlt : ∀ i y, i ≠ l.length → (l ++ [x])[i]? = some y → l[i]? = some y := by
    intro i y hne hy
    have hlength := (List.getElem?_eq_some_iff.mp hy).1
    rw [length_append, length_singleton] at hlength
    rwa [getElem?_append_left (by omega)] at hy
  refine ⟨fun i u v hi hne hu hv => ?_, fun i u v _ hi hchild _ hv => ?_⟩
  · have hilt := (List.getElem?_eq_some_iff.mp (hlt i v hne hv)).1
    have hparent := parent_lt hi
    exact h i u v hi (hlt _ u (by omega) hu) (hlt i v hne hv)
  · have hlength := (List.getElem?_eq_some_iff.mp hv).1
    rw [length_append, length_singleton] at hlength
    have hparent := parent_lt hi
    omega

end BinaryHeap

end MasqueServer
