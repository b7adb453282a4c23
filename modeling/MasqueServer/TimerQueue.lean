import Mathlib.Data.Prod.Lex
import MasqueServer.BinaryHeap
import MasqueServer.FiniteTable
import MasqueServer.Runs

/-!
# The deadline queue

An indexed binary heap: the timers in an array, and for every connection index its place in the
array. An operation has no result where the code would panic, at an array access out of range or at
an index without a place.
-/
namespace MasqueServer

open List Option Table

open BinaryHeap

/-- A wakeup, ordered by its deadline and then by the index of its connection. -/
structure Timer where
  deadline : ℕ
  index : ℕ
  deriving DecidableEq, Repr

namespace Timer

lemma toLex_injective :
    Function.Injective fun t : Timer => toLex (t.deadline, t.index) := by
  rintro ⟨d, i⟩ ⟨d', i'⟩ h
  simpa using h

instance : LinearOrder Timer := LinearOrder.lift' _ toLex_injective

lemma lt_iff {t u : Timer} :
    t < u ↔ t.deadline < u.deadline ∨ t.deadline = u.deadline ∧ t.index < u.index :=
  Prod.Lex.toLex_lt_toLex

lemma deadline_le {t u : Timer} (h : t ≤ u) : t.deadline ≤ u.deadline := by
  obtain heq | hlt := h.eq_or_lt
  · exact heq ▸ le_rfl
  · obtain hd | ⟨hd, -⟩ := lt_iff.mp hlt
    · exact hd.le
    · exact hd.le

end Timer

structure TimerQueue where
  heap : List Timer := []
  positions : Table ℕ ℕ := ∅

namespace TimerQueue

def recordPosition (positions : Table ℕ ℕ) (index position : ℕ) : Option (Table ℕ ℕ) :=
  if positions.contains index then some (positions.put index position) else none

def swap (q : TimerQueue) (a b : ℕ) : Option TimerQueue := do
  let heap ← exchange q.heap a b
  let first ← heap[a]?
  let positions ← recordPosition q.positions first.index a
  let second ← heap[b]?
  let positions ← recordPosition positions second.index b
  return ⟨heap, positions⟩

def siftUpFrom : ℕ → TimerQueue → ℕ → Option TimerQueue
  | 0, _, _ => none
  | fuel + 1, q, position =>
    if position = 0 then some q else do
      let above ← q.heap[parent position]?
      let timer ← q.heap[position]?
      if above ≤ timer then some q else do
        let q' ← q.swap (parent position) position
        siftUpFrom fuel q' (parent position)

def siftUp (q : TimerQueue) (position : ℕ) : Option TimerQueue :=
  siftUpFrom (position + 1) q position

def smallerChild (q : TimerQueue) (left : ℕ) : Option ℕ :=
  if left + 1 < q.heap.length then do
    let rightTimer ← q.heap[left + 1]?
    let leftTimer ← q.heap[left]?
    return if rightTimer < leftTimer then left + 1 else left
  else some left

def siftDownFrom : ℕ → TimerQueue → ℕ → Option TimerQueue
  | 0, _, _ => none
  | fuel + 1, q, position =>
    if q.heap.length ≤ 2 * position + 1 then some q else do
      let child ← q.smallerChild (2 * position + 1)
      let timer ← q.heap[position]?
      let below ← q.heap[child]?
      if timer ≤ below then some q else do
        let q' ← q.swap position child
        siftDownFrom fuel q' child

def risesAt (q : TimerQueue) (position : ℕ) : Option Bool :=
  if position = 0 then some false else do
    let timer ← q.heap[position]?
    let above ← q.heap[parent position]?
    return decide (timer < above)

def repair (q : TimerQueue) (position : ℕ) : Option TimerQueue := do
  if ← q.risesAt position then q.siftUp position
  else siftDownFrom q.heap.length q position

def schedule (q : TimerQueue) (index deadline : ℕ) : Option TimerQueue :=
  match q.positions.get index with
  | some position => do
    let timer ← q.heap[position]?
    let heap := q.heap.set position { timer with deadline }
    repair { q with heap } position
  | none =>
    let position := q.heap.length
    siftUp ⟨q.heap ++ [⟨deadline, index⟩], q.positions.put index position⟩ position

def cancel (q : TimerQueue) (index : ℕ) : Option TimerQueue :=
  match q.positions.get index with
  | none => some q
  | some position => do
    let positions := q.positions.remove index
    let heap ← swapRemove q.heap position
    if position < heap.length then do
      let moved ← heap[position]?
      let positions ← recordPosition positions moved.index position
      repair ⟨heap, positions⟩ position
    else some ⟨heap, positions⟩

def nextWakeup (q : TimerQueue) : Option (ℕ × ℕ) :=
  q.heap.head?.map fun timer => (timer.index, timer.deadline)

def deadlineOf (q : TimerQueue) (index : ℕ) : Option ℕ := do
  let position ← q.positions.get index
  let timer ← q.heap[position]?
  return timer.deadline

def expireFrom : ℕ → TimerQueue → ℕ → Option (TimerQueue × List (ℕ × ℕ))
  | 0, _, _ => none
  | fuel + 1, q, now =>
    match q.heap.head? with
    | none => some (q, [])
    | some timer =>
      if now < timer.deadline then some (q, [])
      else do
        let q' ← q.cancel timer.index
        let (q'', fired) ← expireFrom fuel q' now
        return (q'', (timer.index, timer.deadline) :: fired)

def expire (q : TimerQueue) (now : ℕ) : Option (TimerQueue × List (ℕ × ℕ)) :=
  expireFrom (q.heap.length + 1) q now

/-! ### Places -/

/-- The places and the array are inverse to each other. -/
def Indexed (q : TimerQueue) : Prop :=
  ∀ index position, q.positions.get index = some position ↔
    ∃ timer, q.heap[position]? = some timer ∧ timer.index = index

namespace Indexed

variable {q : TimerQueue} {a b position : ℕ} {timer x y : Timer}

lemma get_eq (h : q.Indexed) (ht : q.heap[position]? = some timer) :
    q.positions.get timer.index = some position :=
  (h _ _).mpr ⟨timer, ht, rfl⟩

lemma contains (h : q.Indexed) (ht : q.heap[position]? = some timer) :
    q.positions.contains timer.index = true :=
  Table.contains_iff.mpr ⟨position, h.get_eq ht⟩

lemma position_eq (h : q.Indexed) (hx : q.heap[a]? = some x) (hy : q.heap[b]? = some y)
    (hindex : x.index = y.index) : a = b := by
  have hget := h.get_eq hx
  rw [hindex, h.get_eq hy, some.injEq] at hget
  exact hget.symm

lemma exchange (h : q.Indexed) (ha : q.heap[a]? = some x) (hb : q.heap[b]? = some y)
    (hne : a ≠ b) :
    Indexed ⟨(q.heap.set a y).set b x, (q.positions.put y.index a).put x.index b⟩ := by
  have hxy : x.index ≠ y.index := fun heq => hne (h.position_eq ha hb heq)
  intro index position
  have hget := h index position
  simp only [get_put, getElem?_exchange ha hb]
  constructor
  · intro hp
    grind
  · rintro ⟨timer, ht, rfl⟩
    have hx : q.heap[position]? = some timer → _ := fun hp => h.position_eq hp ha
    have hy : q.heap[position]? = some timer → _ := fun hp => h.position_eq hp hb
    grind

lemma set (h : q.Indexed) (hx : q.heap[a]? = some x) (hindex : y.index = x.index) :
    Indexed { q with heap := q.heap.set a y } := by
  have hlength := (List.getElem?_eq_some_iff.mp hx).1
  intro index position
  rw [h index position]
  by_cases hp : position = a
  · subst hp
    rw [hx, getElem?_set_self hlength]
    simp [hindex]
  · simp [getElem?_set_ne (Ne.symm hp)]

lemma concat (h : q.Indexed) (hx : q.positions.get x.index = none) :
    Indexed ⟨q.heap ++ [x], q.positions.put x.index q.heap.length⟩ := by
  intro index position
  have hget := h index position
  simp only [get_put, getElem?_append, getElem?_singleton]
  constructor
  · intro hp
    grind
  · rintro ⟨timer, ht, rfl⟩
    grind

lemma getElem?_init {l : List Timer} (hheap : q.heap = l ++ [x]) (ht : l[position]? = some timer) :
    q.heap[position]? = some timer := by
  rw [hheap, getElem?_append_left (List.getElem?_eq_some_iff.mp ht).1, ht]

lemma dropLast {l : List Timer} (h : q.Indexed) (hheap : q.heap = l ++ [x]) :
    Indexed ⟨l, q.positions.remove x.index⟩ := by
  have hlast : q.heap[l.length]? = some x := by rw [hheap]; simp
  intro index position
  have hget := h index position
  simp only [Table.get_remove]
  constructor
  · intro hp
    rw [hheap, getElem?_append, getElem?_singleton] at hget
    grind
  · rintro ⟨timer, ht, rfl⟩
    have hne : timer.index ≠ x.index := fun heq =>
      (List.getElem?_eq_some_iff.mp ht).1.ne (h.position_eq (getElem?_init hheap ht) hlast heq)
    rw [if_neg hne]
    exact h.get_eq (getElem?_init hheap ht)

lemma swapRemove {l : List Timer} (h : q.Indexed) (hheap : q.heap = l ++ [y])
    (hx : l[a]? = some x) :
    Indexed ⟨l.set a y, (q.positions.remove x.index).put y.index a⟩ := by
  have hlength := (List.getElem?_eq_some_iff.mp hx).1
  have hlast : q.heap[l.length]? = some y := by rw [hheap]; simp
  intro index position
  have hget := h index position
  simp only [get_put, Table.get_remove, getElem?_set]
  constructor
  · intro hp
    rw [hheap, getElem?_append, getElem?_singleton] at hget
    grind
  · rintro ⟨timer, ht, rfl⟩
    by_cases hpa : a = position
    · subst hpa
      rw [if_pos rfl, if_pos hlength, some.injEq] at ht
      rw [if_pos (by rw [ht])]
    · rw [if_neg hpa] at ht
      have hne : timer.index ≠ y.index := fun heq =>
        (List.getElem?_eq_some_iff.mp ht).1.ne (h.position_eq (getElem?_init hheap ht) hlast heq)
      have hnex : timer.index ≠ x.index := fun heq =>
        hpa (h.position_eq (getElem?_init hheap ht) (getElem?_init hheap hx) heq).symm
      rw [if_neg hne, if_neg hnex]
      exact h.get_eq (getElem?_init hheap ht)

end Indexed

/-! ### Repairs -/

/-- In order, with every timer at its recorded place. -/
structure Sound (q : TimerQueue) : Prop where
  indexed : q.Indexed
  ordered : IsHeap q.heap

variable {q : TimerQueue} {a b fuel position index deadline : ℕ}

lemma swap_spec {x y : Timer} (h : q.Indexed) (ha : q.heap[a]? = some x)
    (hb : q.heap[b]? = some y) (hne : a ≠ b) :
    ∃ q', q.swap a b = some q' ∧ q'.Indexed ∧ q'.heap = (q.heap.set a y).set b x := by
  have hget := getElem?_exchange ha hb
  have hx : (q.positions.put y.index a).contains x.index = true := by
    rw [Table.contains_iff]
    by_cases hindex : x.index = y.index
    · exact ⟨a, by rw [get_put, if_pos hindex]⟩
    · exact ⟨a, by rw [get_put, if_neg hindex, h.get_eq ha]⟩
  refine ⟨_, ?_, h.exchange ha hb hne, rfl⟩
  simp only [swap, exchange_eq ha hb, hget, recordPosition, bind_eq_bind, bind_some,
    if_neg hne, if_pos, h.contains hb, hx, Option.pure_def]

lemma siftUpFrom_spec (h : q.Indexed) (hup : HeapUp q.heap position) (hfuel : position < fuel)
    (hlength : position < q.heap.length) :
    ∃ q', siftUpFrom fuel q position = some q' ∧ q'.Sound ∧ q'.heap.Perm q.heap := by
  induction fuel generalizing q position with
  | zero => omega
  | succ fuel ih =>
    unfold siftUpFrom
    by_cases hzero : position = 0
    · rw [if_pos hzero]
      exact ⟨q, rfl, ⟨h, hup.stop fun _ _ hpos => absurd hzero hpos.ne'⟩, .refl _⟩
    · have hpos := Nat.pos_of_ne_zero hzero
      have hparent := parent_lt hpos
      obtain ⟨y, hy⟩ := exists_getElem? hlength
      obtain ⟨x, hx⟩ := exists_getElem? (hparent.trans hlength)
      simp only [if_neg hzero, hx, hy, bind_eq_bind, bind_some]
      by_cases hle : x ≤ y
      · rw [if_pos hle]
        refine ⟨q, rfl, ⟨h, hup.stop fun u v _ hu hv => ?_⟩, .refl _⟩
        rw [hx, some.injEq] at hu
        rw [hy, some.injEq] at hv
        exact hu ▸ hv ▸ hle
      · rw [if_neg hle]
        obtain ⟨q₁, hswap, hindexed, hheap⟩ := swap_spec h hx hy hparent.ne
        have hup₁ : HeapUp q₁.heap (parent position) :=
          hheap ▸ hup.step hpos hx hy (not_le.mp hle)
        have hperm : q₁.heap.Perm q.heap := hheap ▸ exchange_perm hx hy
        obtain ⟨q', hq', hsound, hperm'⟩ := ih hindexed hup₁ (by omega)
          (hperm.length_eq ▸ hparent.trans hlength)
        exact ⟨q', by rw [hswap, bind_some, hq'], hsound, hperm'.trans hperm⟩

lemma smallerChild_spec (hleft : 2 * position + 1 < q.heap.length) :
    ∃ child timer, q.smallerChild (2 * position + 1) = some child ∧ 0 < child ∧
      parent child = position ∧ q.heap[child]? = some timer ∧
      ∀ i u, 0 < i → parent i = position → q.heap[i]? = some u → timer ≤ u := by
  obtain ⟨x, hx⟩ := exists_getElem? hleft
  have hxchild : parent (2 * position + 1) = position := by unfold parent; omega
  have hychild : parent (2 * position + 2) = position := by unfold parent; omega
  unfold smallerChild
  by_cases hright : 2 * position + 1 + 1 < q.heap.length
  · obtain ⟨y, hy⟩ := exists_getElem? hright
    simp only [if_pos hright, hx, hy, bind_eq_bind, bind_some, Option.pure_def]
    have hchildren : ∀ i u, 0 < i → parent i = position → q.heap[i]? = some u → u = x ∨ u = y := by
      intro i u hpos hi hu
      obtain rfl | rfl := (parent_eq_iff hpos).mp hi
      · rw [hx, some.injEq] at hu
        exact .inl hu.symm
      · rw [hy, some.injEq] at hu
        exact .inr hu.symm
    by_cases hlt : y < x
    · refine ⟨_, y, by rw [if_pos hlt], by omega, hychild, hy, fun i u hpos hi hu => ?_⟩
      obtain rfl | rfl := hchildren i u hpos hi hu
      · exact hlt.le
      · exact le_rfl
    · refine ⟨_, x, by rw [if_neg hlt], by omega, hxchild, hx, fun i u hpos hi hu => ?_⟩
      obtain rfl | rfl := hchildren i u hpos hi hu
      · exact le_rfl
      · exact not_lt.mp hlt
  · rw [if_neg hright]
    refine ⟨_, x, rfl, by omega, hxchild, hx, fun i u hpos hi hu => ?_⟩
    obtain rfl | rfl := (parent_eq_iff hpos).mp hi
    · rw [hx, some.injEq] at hu
      exact hu.le
    · exact absurd (List.getElem?_eq_some_iff.mp hu).1 hright

lemma siftDownFrom_spec (h : q.Indexed) (hdown : HeapDown q.heap position)
    (hlength : position < q.heap.length) (hfuel : q.heap.length ≤ fuel + position) :
    ∃ q', siftDownFrom fuel q position = some q' ∧ q'.Sound ∧ q'.heap.Perm q.heap := by
  induction fuel generalizing q position with
  | zero => omega
  | succ fuel ih =>
    unfold siftDownFrom
    by_cases hleaf : q.heap.length ≤ 2 * position + 1
    · rw [if_pos hleaf]
      refine ⟨q, rfl, ⟨h, hdown.stop fun i _ _ hpos hi _ hv => ?_⟩, .refl _⟩
      have hlt := (List.getElem?_eq_some_iff.mp hv).1
      obtain rfl | rfl := (parent_eq_iff hpos).mp hi <;> omega
    · obtain ⟨child, y, hchild, hpos, hparent, hy, hleast⟩ := smallerChild_spec (not_le.mp hleaf)
      obtain ⟨x, hx⟩ := exists_getElem? hlength
      simp only [if_neg hleaf, hchild, hx, hy, bind_eq_bind, bind_some]
      by_cases hle : x ≤ y
      · rw [if_pos hle]
        refine ⟨q, rfl, ⟨h, hdown.stop fun i u v hi hip hu hv => ?_⟩, .refl _⟩
        rw [hx, some.injEq] at hu
        exact hu ▸ hle.trans (hleast i v hi hip hv)
      · rw [if_neg hle]
        have hlt : position < child := hparent ▸ parent_lt hpos
        obtain ⟨q₁, hswap, hindexed, hheap⟩ := swap_spec h hx hy hlt.ne
        have hdown₁ : HeapDown q₁.heap child :=
          hheap ▸ hdown.step hpos hparent hx hy (not_le.mp hle) hleast
        have hperm : q₁.heap.Perm q.heap := hheap ▸ exchange_perm hx hy
        have hchildlt := (List.getElem?_eq_some_iff.mp hy).1
        obtain ⟨q', hq', hsound, hperm'⟩ := ih hindexed hdown₁ (hperm.length_eq ▸ hchildlt)
          (by rw [hperm.length_eq]; omega)
        exact ⟨q', by rw [hswap, bind_some, hq'], hsound, hperm'.trans hperm⟩

lemma repair_spec (h : q.Indexed) (haround : HeapAround q.heap position)
    (hlength : position < q.heap.length) :
    ∃ q', q.repair position = some q' ∧ q'.Sound ∧ q'.heap.Perm q.heap := by
  have hdown (hdown : HeapDown q.heap position) :=
    siftDownFrom_spec h hdown hlength (Nat.le_add_right q.heap.length position)
  unfold repair risesAt
  by_cases hzero : position = 0
  · simp only [if_pos hzero, bind_eq_bind, bind_some, Bool.false_eq_true, if_false]
    exact hdown (haround.down fun _ _ hpos => absurd hzero hpos.ne')
  · have hpos := Nat.pos_of_ne_zero hzero
    obtain ⟨y, hy⟩ := exists_getElem? hlength
    obtain ⟨x, hx⟩ := exists_getElem? ((parent_lt hpos).trans hlength)
    simp only [if_neg hzero, hx, hy, bind_eq_bind, bind_some, Option.pure_def,
      decide_eq_true_eq]
    by_cases hlt : y < x
    · rw [if_pos hlt]
      exact siftUpFrom_spec h (haround.up hx hy hpos hlt) (Nat.lt_succ_self position) hlength
    · rw [if_neg hlt]
      refine hdown (haround.down fun u v _ hu hv => ?_)
      rw [hx, some.injEq] at hu
      rw [hy, some.injEq] at hv
      exact hu ▸ hv ▸ not_lt.mp hlt

/-! ### Operations -/

lemma Indexed.eq_of_index (h : q.Indexed) {t u : Timer} (ht : t ∈ q.heap) (hu : u ∈ q.heap)
    (hindex : t.index = u.index) : t = u := by
  obtain ⟨a, ha⟩ := getElem?_of_mem ht
  obtain ⟨b, hb⟩ := getElem?_of_mem hu
  have hab := h.position_eq ha hb hindex
  rw [hab, hb, some.injEq] at ha
  exact ha.symm

lemma Indexed.index_ne (h : q.Indexed) (hget : q.positions.get index = none) {t : Timer}
    (ht : t ∈ q.heap) : t.index ≠ index := by
  rintro rfl
  obtain ⟨a, ha⟩ := getElem?_of_mem ht
  rw [h.get_eq ha] at hget
  cases hget

lemma Indexed.mem_set (h : q.Indexed) {x y : Timer} (hx : q.heap[position]? = some x)
    (hindex : y.index = x.index) (t : Timer) :
    t ∈ q.heap.set position y ↔ t = y ∨ t ∈ q.heap ∧ t.index ≠ x.index := by
  have hlength := (List.getElem?_eq_some_iff.mp hx).1
  have hy : y ∈ q.heap.set position y := List.mem_set hlength y
  constructor
  · intro ht
    by_cases heq : t.index = x.index
    · exact .inl ((h.set hx hindex).eq_of_index ht hy (heq.trans hindex.symm))
    · have hmem := (mem_or_eq_of_mem_set ht).resolve_right fun he => heq (he ▸ hindex)
      exact .inr ⟨hmem, heq⟩
  · rintro (rfl | ⟨ht, hne⟩)
    · exact hy
    · obtain ⟨i, hi⟩ := getElem?_of_mem ht
      have hip : position ≠ i := by
        rintro rfl
        rw [hx, some.injEq] at hi
        exact hne (hi ▸ rfl)
      exact mem_of_getElem? ((getElem?_set_ne hip).trans hi)

lemma Indexed.mem_removed {q₁ : TimerQueue} {x : Timer} (h : q₁.Indexed)
    (hget : q₁.positions.get x.index = none) (hperm : q.heap.Perm (x :: q₁.heap)) (t : Timer) :
    t ∈ q₁.heap ↔ t ∈ q.heap ∧ t.index ≠ x.index := by
  rw [hperm.mem_iff, mem_cons]
  refine ⟨fun ht => ⟨.inr ht, h.index_ne hget ht⟩, ?_⟩
  rintro ⟨rfl | ht, hne⟩
  · exact absurd rfl hne
  · exact ht

theorem schedule_spec (h : q.Sound) (index deadline : ℕ) :
    ∃ q', q.schedule index deadline = some q' ∧ q'.Sound ∧
      ∀ t, t ∈ q'.heap ↔ t = ⟨deadline, index⟩ ∨ t ∈ q.heap ∧ t.index ≠ index := by
  unfold schedule
  cases hget : q.positions.get index with
  | none =>
    obtain ⟨q', hq', hsound, hperm⟩ := siftUpFrom_spec
      (q := ⟨q.heap ++ [⟨deadline, index⟩], q.positions.put index q.heap.length⟩)
      (h.indexed.concat hget) (h.ordered.concat _) (Nat.lt_succ_self q.heap.length) (by simp)
    refine ⟨q', hq', hsound, fun t => ?_⟩
    rw [hperm.mem_iff, mem_append, mem_singleton, or_comm]
    exact or_congr_right (iff_self_and.mpr fun ht => h.indexed.index_ne hget ht)
  | some position =>
    obtain ⟨timer, ht, rfl⟩ := (h.indexed index position).mp hget
    have hlength := (List.getElem?_eq_some_iff.mp ht).1
    simp only [ht, bind_eq_bind, bind_some]
    have haround : HeapAround (q.heap.set position { timer with deadline }) position :=
      h.ordered.around ht fun i y hne hy => by rwa [getElem?_set_ne hne.symm] at hy
    obtain ⟨q', hq', hsound, hperm⟩ := repair_spec
      (q := { q with heap := q.heap.set position { timer with deadline } })
      (h.indexed.set ht rfl) haround (by simpa using hlength)
    refine ⟨q', hq', hsound, fun t => ?_⟩
    rw [hperm.mem_iff]
    exact h.indexed.mem_set (y := { timer with deadline }) ht rfl t

theorem cancel_spec (h : q.Sound) (index : ℕ) :
    ∃ q', q.cancel index = some q' ∧ q'.Sound ∧
      (∀ t, t ∈ q'.heap ↔ t ∈ q.heap ∧ t.index ≠ index) ∧
      ((∃ t ∈ q.heap, t.index = index) → q'.heap.length < q.heap.length) := by
  unfold cancel
  cases hget : q.positions.get index with
  | none =>
    refine ⟨q, rfl, h, fun t => iff_self_and.mpr fun ht => h.indexed.index_ne hget ht, ?_⟩
    rintro ⟨t, ht, hindex⟩
    exact absurd hindex (h.indexed.index_ne hget ht)
  | some position =>
    obtain ⟨timer, ht, rfl⟩ := (h.indexed index position).mp hget
    have hlength := (List.getElem?_eq_some_iff.mp ht).1
    obtain ⟨l, y, hheap⟩ : ∃ l y, q.heap = l ++ [y] :=
      ⟨_, _, (dropLast_append_getLast (ne_nil_of_length_pos (by omega))).symm⟩
    have hle : position ≤ l.length := by
      rw [hheap, length_append, length_singleton] at hlength
      omega
    have hperm := perm_swapRemove (hheap ▸ ht)
    rw [← hheap] at hperm
    have hswap : BinaryHeap.swapRemove q.heap position = some (l.set position y) :=
      hheap ▸ swapRemove_concat l y hle
    have hlt : ∀ {l' : List Timer}, l'.Perm (l.set position y) → l'.length < q.heap.length := by
      intro l' hl'
      rw [hl'.length_eq, hperm.length_eq, length_cons]
      exact Nat.lt_succ_self _
    simp only [hswap, bind_eq_bind, bind_some]
    by_cases hmoved : position < l.length
    · have hl : l[position]? = some timer := by
        rwa [hheap, getElem?_append_left hmoved] at ht
      have hlast : q.heap[l.length]? = some y := by rw [hheap]; simp
      have hne : timer.index ≠ y.index := fun heq =>
        hmoved.ne (h.indexed.position_eq ht hlast heq)
      have hy : (q.positions.remove timer.index).contains y.index = true := by
        rw [Table.contains_iff]
        exact ⟨l.length, by rw [Table.get_remove, if_neg hne.symm, h.indexed.get_eq hlast]⟩
      have hindexed := h.indexed.swapRemove hheap hl
      have haround : HeapAround (l.set position y) position :=
        h.ordered.around ht fun i u hip hu => by
          rw [getElem?_set_ne hip.symm] at hu
          exact Indexed.getElem?_init hheap hu
      obtain ⟨q', hq', hsound, hperm'⟩ := repair_spec hindexed haround (by simpa using hmoved)
      rw [if_pos (by simpa using hmoved), getElem?_set_self hmoved]
      simp only [bind_some, recordPosition, if_pos hy]
      refine ⟨q', hq', hsound, fun t => ?_, fun _ => hlt hperm'⟩
      rw [hperm'.mem_iff]
      exact hindexed.mem_removed (by rw [get_put, if_neg hne, Table.get_remove, if_pos rfl])
        hperm t
    · have heq : position = l.length := by omega
      subst heq
      rw [hheap, getElem?_concat_length, some.injEq] at ht
      subst ht
      rw [set_eq_of_length_le le_rfl] at hperm hlt ⊢
      rw [if_neg hmoved]
      have hindexed := h.indexed.dropLast hheap
      refine ⟨_, rfl, ⟨hindexed, ?_⟩, ?_, fun _ => hlt (.refl l)⟩
      · intro i u v hpos hu hv
        exact h.ordered i u v hpos (Indexed.getElem?_init hheap hu) (Indexed.getElem?_init hheap hv)
      · exact hindexed.mem_removed (by rw [Table.get_remove, if_pos rfl]) hperm

/-! ### The finite map -/

/-- The order of wakeups given as index and deadline. -/
def Earlier (e e' : ℕ × ℕ) : Prop := e.2 < e'.2 ∨ e.2 = e'.2 ∧ e.1 < e'.1

/-- What there is to wake up next, when the deadlines are those of a map. -/
def IsNext (deadlines : Table ℕ ℕ) : Option (ℕ × ℕ) → Prop
  | none => ∀ index, deadlines.get index = none
  | some (index, deadline) =>
    deadlines.get index = some deadline ∧
      ∀ index' deadline', deadlines.get index' = some deadline' →
        (index', deadline') = (index, deadline) ∨ Earlier (index, deadline) (index', deadline')

inductive Operation where
  | schedule (index deadline : ℕ)
  | cancel (index : ℕ)
  | expire (now : ℕ)

def perform (q : TimerQueue) : Operation → Option (TimerQueue × List (ℕ × ℕ))
  | .schedule index deadline => (q.schedule index deadline).map fun q' => (q', [])
  | .cancel index => (q.cancel index).map fun q' => (q', [])
  | .expire now => q.expire now

/-- What an operation does to the map from an index to its deadline. -/
inductive MapStep : Table ℕ ℕ → Operation → List (ℕ × ℕ) → Table ℕ ℕ → Prop
  | schedule (deadlines : Table ℕ ℕ) (index deadline : ℕ) :
    MapStep deadlines (.schedule index deadline) [] (deadlines.put index deadline)
  | cancel (deadlines : Table ℕ ℕ) (index : ℕ) :
    MapStep deadlines (.cancel index) [] (deadlines.remove index)
  | expire {deadlines : Table ℕ ℕ} {now : ℕ} {fired : List (ℕ × ℕ)}
    (hdue : ∀ index deadline, (index, deadline) ∈ fired ↔
      deadlines.get index = some deadline ∧ deadline ≤ now)
    (hsorted : fired.Pairwise Earlier) :
    MapStep deadlines (.expire now) fired
      (deadlines.retain fun _ deadline => decide (now < deadline))

/-- A sound queue whose timers are the entries of a map. -/
structure Refines (q : TimerQueue) (deadlines : Table ℕ ℕ) : Prop where
  sound : q.Sound
  entries : ∀ index deadline,
    deadlines.get index = some deadline ↔ ⟨deadline, index⟩ ∈ q.heap

variable {deadlines : Table ℕ ℕ}

lemma refines_empty : Refines {} ∅ := by
  refine ⟨⟨fun index position => ?_, isHeap_nil⟩, fun index deadline => ?_⟩ <;> simp

lemma Refines.deadlineOf_eq (h : q.Refines deadlines) (index : ℕ) :
    q.deadlineOf index = deadlines.get index := by
  unfold deadlineOf
  cases hget : q.positions.get index with
  | none =>
    refine (eq_none_iff_forall_ne_some.mpr fun deadline hdeadline => ?_).symm
    have hmem := (h.entries index deadline).mp hdeadline
    exact absurd rfl (h.sound.indexed.index_ne hget hmem)
  | some position =>
    obtain ⟨timer, ht, rfl⟩ := (h.sound.indexed index position).mp hget
    simp only [ht, bind_eq_bind, bind_some, Option.pure_def]
    exact ((h.entries _ _).mpr (mem_of_getElem? ht)).symm

lemma Refines.schedule (h : q.Refines deadlines) (index deadline : ℕ) :
    ∃ q', q.schedule index deadline = some q' ∧ q'.Refines (deadlines.put index deadline) := by
  obtain ⟨q', hq', hsound, hmem⟩ := schedule_spec h.sound index deadline
  refine ⟨q', hq', hsound, fun i d => ?_⟩
  rw [hmem, get_put]
  by_cases hi : i = index
  · simp [hi, eq_comm]
  · simp [hi, h.entries]

lemma Refines.cancel (h : q.Refines deadlines) (index : ℕ) :
    ∃ q', q.cancel index = some q' ∧ q'.Refines (deadlines.remove index) := by
  obtain ⟨q', hq', hsound, hmem, -⟩ := cancel_spec h.sound index
  refine ⟨q', hq', hsound, fun i d => ?_⟩
  rw [hmem, Table.get_remove]
  by_cases hi : i = index
  · simp [hi]
  · simp [hi, h.entries]

lemma Refines.isNext (h : q.Refines deadlines) : IsNext deadlines q.nextWakeup := by
  unfold nextWakeup
  cases hheap : q.heap with
  | nil =>
    intro index
    rw [eq_none_iff_forall_ne_some]
    intro deadline hget
    have hmem := (h.entries index deadline).mp hget
    simp [hheap] at hmem
  | cons timer rest =>
    refine ⟨(h.entries _ _).mpr (by simp [hheap]), fun i d hget => ?_⟩
    have hle := h.sound.ordered.head_le (x := timer) (by simp [hheap]) ((h.entries i d).mp hget)
    obtain heq | hlt := hle.eq_or_lt
    · subst heq
      exact .inl rfl
    · exact .inr (Timer.lt_iff.mp hlt)

lemma expireFrom_spec (h : q.Sound) (hfuel : q.heap.length < fuel) (now : ℕ) :
    ∃ q' fired, expireFrom fuel q now = some (q', fired) ∧ q'.Sound ∧
      (∀ t, t ∈ q'.heap ↔ t ∈ q.heap ∧ now < t.deadline) ∧
      (∀ index deadline, (index, deadline) ∈ fired ↔
        ⟨deadline, index⟩ ∈ q.heap ∧ deadline ≤ now) ∧
      fired.Pairwise Earlier := by
  induction fuel generalizing q with
  | zero => omega
  | succ fuel ih =>
    unfold expireFrom
    cases hheap : q.heap.head? with
    | none =>
      rw [head?_eq_none_iff] at hheap
      exact ⟨q, [], rfl, h, by simp [hheap], by simp [hheap], .nil⟩
    | some timer =>
      have hleast : ∀ t ∈ q.heap, timer ≤ t := fun t ht =>
        h.ordered.head_le (by rw [← head?_eq_getElem?, hheap]) ht
      by_cases hdue : now < timer.deadline
      · simp only [if_pos hdue]
        have hlate : ∀ t ∈ q.heap, now < t.deadline := fun t ht =>
          hdue.trans_le (Timer.deadline_le (hleast t ht))
        refine ⟨q, [], rfl, h, fun t => iff_self_and.mpr (hlate t), fun i d => ?_, .nil⟩
        simpa using hlate ⟨d, i⟩
      · have htimer : timer ∈ q.heap := mem_of_mem_head? hheap
        obtain ⟨q₁, hq₁, hsound₁, hmem₁, hlength⟩ := cancel_spec h timer.index
        have hlt := hlength ⟨timer, htimer, rfl⟩
        obtain ⟨q', fired, hq', hsound', hmem', hfired, hsorted⟩ := ih hsound₁ (by omega)
        refine ⟨q', (timer.index, timer.deadline) :: fired, ?_, hsound', fun t => ?_,
          fun i d => ?_, pairwise_cons.mpr ⟨?_, hsorted⟩⟩
        · simp only [if_neg hdue, hq₁, hq', bind_eq_bind, bind_some, Option.pure_def]
        · rw [hmem', hmem₁]
          refine ⟨fun ht => ⟨ht.1.1, ht.2⟩, fun ht => ⟨⟨ht.1, fun heq => hdue ?_⟩, ht.2⟩⟩
          exact h.indexed.eq_of_index ht.1 htimer heq ▸ ht.2
        · rw [mem_cons, hfired, hmem₁]
          constructor
          · rintro (heq | ⟨⟨ht, -⟩, hd⟩)
            · obtain ⟨rfl, rfl⟩ := Prod.mk.inj heq
              exact ⟨htimer, not_lt.mp hdue⟩
            · exact ⟨ht, hd⟩
          · rintro ⟨ht, hd⟩
            by_cases heq : i = timer.index
            · obtain rfl := h.indexed.eq_of_index ht htimer heq
              exact .inl rfl
            · exact .inr ⟨⟨ht, heq⟩, hd⟩
        · rintro ⟨i, d⟩ hmem
          rw [hfired, hmem₁] at hmem
          refine Timer.lt_iff.mp ((hleast _ hmem.1.1).lt_of_ne fun heq => hmem.1.2 ?_)
          exact heq ▸ rfl

lemma Refines.expire (h : q.Refines deadlines) (now : ℕ) :
    ∃ q' fired, q.expire now = some (q', fired) ∧
      q'.Refines (deadlines.retain fun _ deadline => decide (now < deadline)) ∧
      (∀ index deadline, (index, deadline) ∈ fired ↔
        deadlines.get index = some deadline ∧ deadline ≤ now) ∧
      fired.Pairwise Earlier := by
  obtain ⟨q', fired, hq', hsound, hmem, hfired, hsorted⟩ :=
    expireFrom_spec h.sound (Nat.lt_succ_self q.heap.length) now
  refine ⟨q', fired, hq', ⟨hsound, fun i d => ?_⟩, fun i d => ?_, hsorted⟩
  · rw [hmem, ← h.entries, get_retain, filter_eq_some_iff]
    simp
  · rw [hfired, h.entries]

/-- Every sequence of operations goes through on the queue, and does on it what it does on the
map: the reports are the same, the queue stays in order with every timer at its place and holds
the entries of the map, and what it wakes up next is the least of them. -/
theorem timerQueue_refines_map (operations : List Operation) :
    ∃ reports q deadlines,
      Performs (fun q operation fired q' => perform q operation = some (q', fired)) {} operations
        reports q ∧
      Performs MapStep ∅ operations reports deadlines ∧
      q.Refines deadlines ∧ IsNext deadlines q.nextWakeup := by
  have hsim : ∀ q deadlines operation, Refines q deadlines → ∃ fired q' deadlines',
      perform q operation = some (q', fired) ∧ MapStep deadlines operation fired deadlines' ∧
        q'.Refines deadlines' := by
    intro q deadlines operation h
    cases operation with
    | schedule index deadline =>
      obtain ⟨q', hq', h'⟩ := h.schedule index deadline
      exact ⟨[], q', _, by simp [perform, hq'], .schedule deadlines index deadline, h'⟩
    | cancel index =>
      obtain ⟨q', hq', h'⟩ := h.cancel index
      exact ⟨[], q', _, by simp [perform, hq'], .cancel deadlines index, h'⟩
    | expire now =>
      obtain ⟨q', fired, hq', h', hdue, hsorted⟩ := h.expire now
      exact ⟨fired, q', _, hq', .expire hdue hsorted, h'⟩
  obtain ⟨reports, q, deadlines, hqueue, hmap, h⟩ :=
    performs_of_simulation hsim refines_empty operations
  exact ⟨reports, q, deadlines, hqueue, hmap, h, h.isNext⟩

end TimerQueue

end MasqueServer
