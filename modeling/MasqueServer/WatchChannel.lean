import Mathlib.Order.Nat

/-!
# Watch channels

A watch channel holds the value sent last and counts the sends. A receiver remembers the version it
read last and sleeps until the channel has another one.
-/
namespace MasqueServer

structure Watch (α : Type*) where
  value : α
  version : ℕ

namespace Watch

variable {α : Type*} {w : Watch α} {p : α → Prop} {seen : ℕ}

def new (a : α) : Watch α := ⟨a, 0⟩

def sendReplace (w : Watch α) (a : α) : Watch α := ⟨a, w.version + 1⟩

def changed (w : Watch α) (seen : ℕ) : Bool := w.version != seen

@[simp] theorem value_new (a : α) : (new a).value = a := rfl

@[simp] theorem value_sendReplace (w : Watch α) (a : α) : (w.sendReplace a).value = a := rfl

/-- A receiver sleeps after it read version `seen`, whose value satisfied `p`. -/
structure Awaits (w : Watch α) (p : α → Prop) (seen : ℕ) : Prop where
  seen_le : seen ≤ w.version
  holds : seen = w.version → p w.value

theorem awaits_version (h : p w.value) : w.Awaits p w.version := ⟨le_rfl, fun _ => h⟩

theorem Awaits.sendReplace (h : w.Awaits p seen) (a : α) : (w.sendReplace a).Awaits p seen := by
  have hle := h.seen_le
  refine ⟨hle.trans (Nat.le_succ _), fun heq => ?_⟩
  have hversion : (w.sendReplace a).version = w.version + 1 := rfl
  omega

theorem Awaits.changed (h : w.Awaits p seen) (hvalue : ¬p w.value) : w.changed seen = true := by
  rw [Watch.changed, bne_iff_ne]
  exact fun heq => hvalue (h.holds heq.symm)

end Watch

end MasqueServer
