import MasqueServer.FallibleLists

/-!
# All-or-nothing computations over a shared state

A transaction reads and writes a shared state and may fail; a failure keeps whatever was written
before it, so being all-or-nothing is a property to prove. The rules follow how such a computation
is written: steps that only read, then one step that is all-or-nothing itself, then writes that
cannot fail.
-/
namespace MasqueServer

abbrev Transaction (σ ε : Type) := ExceptT ε (StateM σ)

namespace Transaction

variable {σ ε α β : Type}

def perform (x : Transaction σ ε α) (s : σ) : Except ε α × σ := x.run.run s

def require (result : Except ε α) : Transaction σ ε α := fun s => (result, s)

def attempt (step : σ → Except ε σ) : Transaction σ ε Unit := fun s =>
  match step s with
  | .ok s' => (.ok (), s')
  | .error e => (.error e, s)

def write (step : σ → α × σ) : Transaction σ ε α := fun s => (.ok (step s).1, (step s).2)

@[simp] lemma perform_pure (a : α) (s : σ) : (pure a : Transaction σ ε α).perform s = (.ok a, s) :=
  rfl

@[simp] lemma perform_get (s : σ) : (get : Transaction σ ε σ).perform s = (.ok s, s) := rfl

@[simp] lemma perform_require (result : Except ε α) (s : σ) :
    (require result : Transaction σ ε α).perform s = (result, s) := rfl

@[simp] lemma perform_write (step : σ → α × σ) (s : σ) :
    (write step : Transaction σ ε α).perform s = (.ok (step s).1, (step s).2) := rfl

lemma perform_bind (x : Transaction σ ε α) (f : α → Transaction σ ε β) (s : σ) :
    (x >>= f).perform s = match x.perform s with
      | (.ok a, s') => (f a).perform s'
      | (.error e, s') => (.error e, s') := by
  change (ExceptT.bindCont f (x s).1 : StateM σ (Except ε β)) (x s).2 = _
  unfold perform
  change _ = match x s with
    | (.ok a, s') => f a s'
    | (.error e, s') => (.error e, s')
  rcases x s with ⟨_ | a, s'⟩ <;> rfl

variable {f : α → Transaction σ ε β} {s : σ}

lemma perform_bind_ok {x : Transaction σ ε α} {s' : σ} {a : α} (h : x.perform s = (.ok a, s')) :
    (x >>= f).perform s = (f a).perform s' := by
  rw [perform_bind, h]

lemma perform_require_ok {result : Except ε α} {a : α} (h : result = .ok a) :
    (require result >>= f).perform s = (f a).perform s :=
  perform_bind_ok (by rw [perform_require, h])

lemma ok_of_perform_require {result : Except ε α} {s' : σ} {b : β}
    (h : (require result >>= f).perform s = (.ok b, s')) :
    ∃ a, result = .ok a ∧ (f a).perform s = (.ok b, s') := by
  rw [perform_bind, perform_require] at h
  cases result with
  | error e => cases h
  | ok a => exact ⟨a, rfl, h⟩

/-- From a state with `P` the computation either fails and leaves the state as it was, or
succeeds as `Q` says. -/
def AllOrNothing (P : σ → Prop) (x : Transaction σ ε α) (Q : σ → α → σ → Prop) : Prop :=
  ∀ s, P s → match x.perform s with
    | (.ok a, s') => Q s a s'
    | (.error _, s') => s' = s

namespace AllOrNothing

variable {P : σ → Prop} {Q : σ → β → σ → Prop} {x : Transaction σ ε α}
  {f : α → Transaction σ ε β}

lemma read : AllOrNothing P (get : Transaction σ ε σ) fun s a s' => s' = s ∧ a = s :=
  fun _ _ => ⟨rfl, rfl⟩

lemma require (result : Except ε α) :
    AllOrNothing P (Transaction.require result) fun s a s' => s' = s ∧ result = .ok a := by
  intro s _
  rw [perform_require]
  cases result with
  | error e => rfl
  | ok a => exact ⟨rfl, rfl⟩

lemma attempt (f : σ → Except ε σ) :
    AllOrNothing P (Transaction.attempt f) fun s _ s' => f s = .ok s' := by
  intro s _
  have h : (Transaction.attempt f : Transaction σ ε Unit).perform s = match f s with
      | .ok s' => (.ok (), s')
      | .error e => (.error e, s) := rfl
  rw [h]
  cases hf : f s with
  | error e => rfl
  | ok s' => exact hf

theorem bind_read {A : σ → α → Prop} (hx : AllOrNothing P x fun s a s' => s' = s ∧ A s a)
    (hf : ∀ a, AllOrNothing (fun s => P s ∧ A s a) (f a) Q) : AllOrNothing P (x >>= f) Q := by
  intro s hs
  have h := hx s hs
  rw [perform_bind]
  generalize x.perform s = result at h ⊢
  obtain ⟨_ | a, s'⟩ := result
  · exact h
  · obtain ⟨rfl, ha⟩ := h
    exact hf a s' ⟨hs, ha⟩

theorem bind_write {R : σ → α → σ → Prop} (hx : AllOrNothing P x R)
    (hf : ∀ s a s', P s → R s a s' →
      ∃ b s'', (f a).perform s' = (.ok b, s'') ∧ Q s b s'') : AllOrNothing P (x >>= f) Q := by
  intro s hs
  have h := hx s hs
  rw [perform_bind]
  generalize x.perform s = result at h ⊢
  obtain ⟨_ | a, s'⟩ := result
  · exact h
  · obtain ⟨b, s'', hperform, hq⟩ := hf s a s' hs h
    dsimp only
    rw [hperform]
    exact hq

end AllOrNothing

def cleaningUp (x : Transaction σ ε α) (cleanup : σ → σ) : Transaction σ ε α := fun s =>
  match x.perform s with
  | (.ok a, s') => (.ok a, s')
  | (.error e, s') => (.error e, cleanup s')

section Cleanup

variable {x : Transaction σ ε α} {cleanup : σ → σ} {s s' : σ}

lemma perform_cleaningUp_ok {a : α} (h : x.perform s = (.ok a, s')) :
    (x.cleaningUp cleanup).perform s = (.ok a, s') := by
  change x.cleaningUp cleanup s = _
  rw [cleaningUp, h]

lemma perform_cleaningUp_error {e : ε} (h : x.perform s = (.error e, s')) :
    (x.cleaningUp cleanup).perform s = (.error e, cleanup s') := by
  change x.cleaningUp cleanup s = _
  rw [cleaningUp, h]

end Cleanup

/-- Whatever the result, the state left behind is related to the first one. -/
def Within (R : σ → σ → Prop) (x : Transaction σ ε α) : Prop := ∀ s, R s (x.perform s).2

/-- A failure leaves a state related to the first one. -/
def FailsWithin (R : σ → σ → Prop) (x : Transaction σ ε α) : Prop :=
  ∀ s e s', x.perform s = (.error e, s') → R s s'

section Within

variable {R : σ → σ → Prop} {x : Transaction σ ε α} {f : α → Transaction σ ε β}

lemma Within.require (hrefl : ∀ s, R s s) (result : Except ε α) :
    Within R (Transaction.require result) := fun s => hrefl s

lemma Within.get (hrefl : ∀ s, R s s) : Within R (MonadState.get : Transaction σ ε σ) :=
  fun s => hrefl s

variable (htrans : ∀ a b c, R a b → R b c → R a c)
include htrans

theorem Within.bind (hx : Within R x) (hf : ∀ a, Within R (f a)) : Within R (x >>= f) := by
  intro s
  have hs := hx s
  rw [perform_bind]
  generalize x.perform s = result at hs ⊢
  obtain ⟨_ | a, s'⟩ := result
  · exact hs
  · exact htrans _ _ _ hs (hf a s')

theorem FailsWithin.bind (hx : Within R x) (hf : ∀ a, FailsWithin R (f a)) :
    FailsWithin R (x >>= f) := by
  intro s e s'' hperform
  have hs := hx s
  rw [perform_bind] at hperform
  generalize x.perform s = result at hs hperform
  obtain ⟨_ | a, s'⟩ := result
  · cases hperform
    exact hs
  · exact htrans _ _ _ hs (hf a s' e s'' hperform)

theorem FailsWithin.cleaningUp (hx : FailsWithin R x) {cleanup : σ → σ}
    (hcleanup : ∀ s, R s (cleanup s)) : FailsWithin R (x.cleaningUp cleanup) := by
  intro s e s'' hperform
  obtain ⟨_ | a, s', hfirst⟩ : ∃ result s', x.perform s = (result, s') := ⟨_, _, rfl⟩
  · rw [perform_cleaningUp_error hfirst] at hperform
    cases hperform
    exact htrans _ _ _ (hx s _ s' hfirst) (hcleanup s')
  · rw [perform_cleaningUp_ok hfirst] at hperform
    cases hperform

end Within

end Transaction

end MasqueServer
