import Mathlib.Order.Nat

/-!
# A shared value with a generation counter

Writers store a new value first and advance the counter afterwards, in two separate steps; readers
read the two in either order. All versions stored so far are kept, numbered from zero in the order
of the stores.
-/
namespace MasqueServer

open List

structure VersionedCell (α : Type*) where
  initial : α
  replacements : List α
  generation : ℕ
  generation_le : generation ≤ replacements.length

namespace VersionedCell

variable {α : Type*}

def new (a : α) : VersionedCell α := ⟨a, [], 0, Nat.zero_le _⟩

variable (c : VersionedCell α)

def versions : List α := c.initial :: c.replacements

def load : α := c.replacements.getLastD c.initial

def store (a : α) : VersionedCell α :=
  ⟨c.initial, c.replacements ++ [a], c.generation, by
    have h := c.generation_le
    rw [length_append]
    omega⟩

/-- The second half of a replacement, enabled while some store has not been counted yet. -/
def advance : Option (VersionedCell α) :=
  if h : c.generation < c.replacements.length then
    some ⟨c.initial, c.replacements, c.generation + 1, h⟩
  else none

def replace (a : α) : VersionedCell α :=
  ⟨c.initial, c.replacements ++ [a], c.generation + 1, by
    have h := c.generation_le
    rw [length_append, length_singleton]
    omega⟩

@[simp] theorem load_replace (a : α) : (c.replace a).load = a := by
  simp [load, replace]

/-- Some version numbered `g` or later has the property. -/
def Since (g : ℕ) (p : α → Prop) : Prop :=
  ∃ n a, g ≤ n ∧ c.versions[n]? = some a ∧ p a

/-- The cell after any number of further stores and advances. -/
structure Later (c c' : VersionedCell α) : Prop where
  kept : c.versions <+: c'.versions
  counted : c.generation ≤ c'.generation

theorem store_later (a : α) : c.Later (c.store a) :=
  ⟨⟨[a], rfl⟩, le_rfl⟩

theorem advance_later {c c' : VersionedCell α} (h : c.advance = some c') : c.Later c' := by
  unfold advance at h
  split_ifs at h
  cases h
  exact ⟨prefix_rfl, Nat.le_succ _⟩

theorem Since.later {c c' : VersionedCell α} {g : ℕ} {p : α → Prop} (h : c.Since g p)
    (hlater : c.Later c') : c'.Since g p := by
  obtain ⟨n, a, hn, ha, hp⟩ := h
  obtain ⟨rest, hrest⟩ := hlater.kept
  refine ⟨n, a, hn, ?_, hp⟩
  rw [← hrest, getElem?_append_left (List.getElem?_eq_some_iff.mp ha).1, ha]

theorem since_load {c : VersionedCell α} {g : ℕ} {p : α → Prop} (hg : g ≤ c.generation)
    (hp : p c.load) : c.Since g p := by
  refine ⟨c.replacements.length, c.load, hg.trans c.generation_le, ?_, hp⟩
  have h : c.versions.getLast? = some c.load := by
    rw [versions, getLast?_cons, load, getLastD_eq_getLast?]
  rw [getLast?_eq_getElem?] at h
  simpa [versions] using h

end VersionedCell

end MasqueServer
