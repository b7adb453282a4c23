import Mathlib.Data.List.Forall2

/-!
# Collecting fallible results

Running a fallible step over a list stops at the first error. A collected list is the list of the
single results, and it exists exactly when every step succeeds.
-/
namespace MasqueServer

open List Option

def checkedSub (counter amount : ℕ) : Option ℕ :=
  if amount ≤ counter then some (counter - amount) else none

lemma checkedSub_eq {counter amount : ℕ} (h : amount ≤ counter) :
    checkedSub counter amount = some (counter - amount) := if_pos h

variable {α β ε : Type}

variable (f : α → Except ε β)

lemma mapM_cons_ok_iff (x : α) (xs : List α) (r : List β) :
    (x :: xs).mapM f = .ok r ↔ ∃ y ys, f x = .ok y ∧ xs.mapM f = .ok ys ∧ r = y :: ys := by
  rw [mapM_cons]
  cases f x with
  | error e => simp [bind, Except.bind]
  | ok y =>
    cases xs.mapM f with
    | error e => simp [bind, Except.bind]
    | ok ys => simp [bind, Except.bind, pure, Except.pure, eq_comm]

/-- A collected list is the list of the single results, in order. -/
theorem mapM_ok_iff (xs : List α) (ys : List β) :
    xs.mapM f = .ok ys ↔ List.Forall₂ (fun x y => f x = .ok y) xs ys := by
  induction xs generalizing ys with
  | nil => simp [pure, Except.pure, eq_comm]
  | cons x xs ih =>
    simp only [mapM_cons_ok_iff, ih, List.forall₂_cons_left_iff]

theorem exists_mem_of_mapM {f : α → Except ε β} {xs : List α} {ys : List β}
    (h : xs.mapM f = .ok ys) (p : β → Prop) :
    (∃ y ∈ ys, p y) ↔ ∃ x ∈ xs, ∃ y, f x = .ok y ∧ p y := by
  rw [mapM_ok_iff] at h
  induction h with
  | nil => simp
  | cons hxy _ ih => simp [hxy, ih]

/-- Collecting succeeds exactly when every single step does. -/
theorem exists_mapM_ok_iff (xs : List α) :
    (∃ ys, xs.mapM f = .ok ys) ↔ ∀ x ∈ xs, ∃ y, f x = .ok y := by
  induction xs with
  | nil => simp [pure, Except.pure]
  | cons x xs ih =>
    simp only [mapM_cons_ok_iff, mem_cons, forall_eq_or_imp, ← ih]
    exact ⟨fun ⟨_, y, ys, hy, hys, _⟩ => ⟨⟨y, hy⟩, ys, hys⟩,
      fun ⟨⟨y, hy⟩, ys, hys⟩ => ⟨_, y, ys, hy, hys, rfl⟩⟩

lemma option_mapM_ok_iff (x : Option α) (r : Option β) :
    x.mapM f = .ok r ↔ (x = none ∧ r = none) ∨ ∃ a b, x = some a ∧ f a = .ok b ∧ r = some b := by
  cases x with
  | none => simp [pure, Except.pure, eq_comm]
  | some a =>
    cases h : f a with
    | error e => simp [h, Functor.map, Except.map]
    | ok b => simp [h, Functor.map, Except.map, eq_comm]

theorem exists_option_mapM_ok_iff (x : Option α) :
    (∃ r, x.mapM f = .ok r) ↔ ∀ a ∈ x, ∃ b, f a = .ok b := by
  simp only [option_mapM_ok_iff, mem_def]
  cases x with
  | none => simp
  | some a =>
    refine ⟨?_, fun h => ?_⟩
    · intro h a' ha'
      obtain ⟨r, ⟨hn, _⟩ | ⟨c, b, hc, hb, _⟩⟩ := h
      · cases hn
      · exact ⟨b, by rw [← some.inj (hc.symm.trans ha')]; exact hb⟩
    · obtain ⟨b, hb⟩ := h a rfl
      exact ⟨some b, .inr ⟨a, b, rfl, hb, rfl⟩⟩

lemma bind_ok_iff {x : Except ε α} {f : α → Except ε β} {r : β} :
    x >>= f = .ok r ↔ ∃ a, x = .ok a ∧ f a = .ok r := by
  cases x <;> simp [bind, Except.bind]

@[simp] lemma mapError_ok_iff {ε' : Type} {x : Except ε α} {f : ε → ε'} {r : α} :
    x.mapError f = .ok r ↔ x = .ok r := by
  cases x <;> simp [Except.mapError]

@[simp] lemma map_ok_iff {x : Except ε α} {f : α → β} {r : β} :
    x.map f = .ok r ↔ ∃ a, x = .ok a ∧ f a = r := by
  cases x <;> simp [Except.map]

@[simp] lemma elim_ok_iff {x : Option α} {e : ε} {r : α} :
    x.elim (Except.error e) Except.ok = .ok r ↔ x = some r := by
  cases x <;> simp

def ensure (condition : Bool) (error : ε) : Except ε Unit :=
  if condition then .ok () else .error error

lemma ensure_ok {condition : Bool} (error : ε) (h : condition = true) :
    ensure condition error = .ok () := if_pos h

@[simp] lemma ensure_ok_iff {condition : Bool} {error : ε} {r : Unit} :
    ensure condition error = .ok r ↔ condition = true := by
  cases condition <;> simp [ensure]

/-- A loop that appends to its accumulator appends everything in turn. -/
theorem foldlM_append_eq {α β : Type} {step : List β → α → Option (List β)} {g : α → List β}
    {xs : List α} (h : ∀ x ∈ xs, ∀ acc, step acc x = some (acc ++ g x)) (acc : List β) :
    xs.foldlM step acc = some (acc ++ xs.flatMap g) := by
  induction xs generalizing acc with
  | nil => simp
  | cons x xs ih =>
    rw [foldlM_cons, h x mem_cons_self, bind_eq_bind, bind_some,
      ih fun y hy => h y (mem_cons_of_mem x hy), flatMap_cons, append_assoc]

end MasqueServer
