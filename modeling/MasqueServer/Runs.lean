import Mathlib.Data.Nat.Notation

/-!
# Runs of a transition function

A step function takes a state and an event and answers a next state, or no state when the event is
not enabled there. A run folds it over a list of events.
-/
namespace MasqueServer

open List Option

variable {σ ε : Type*}

def run (step : σ → ε → Option σ) : σ → List ε → Option σ
  | s, [] => some s
  | s, e :: es => (step s e).bind fun s' => run step s' es

/-- Every step of the run meets a condition on its source state and event. -/
def Meets (allowed : σ → ε → Prop) (step : σ → ε → Option σ) : σ → List ε → Prop
  | _, [] => True
  | s, e :: es => allowed s e ∧ ∀ s', step s e = some s' → Meets allowed step s' es

instance decidableMeets {allowed : σ → ε → Prop} [∀ s e, Decidable (allowed s e)]
    {step : σ → ε → Option σ} : ∀ s es, Decidable (Meets allowed step s es)
  | _, [] => isTrue trivial
  | s, e :: es =>
    match h : step s e with
    | none => decidable_of_iff (allowed s e) (by simp [Meets, h])
    | some s' =>
      have : Decidable (Meets allowed step s' es) := decidableMeets s' es
      decidable_of_iff (allowed s e ∧ Meets allowed step s' es) (by simp [Meets, h])

variable {step : σ → ε → Option σ} {allowed : σ → ε → Prop} {Inv : σ → Prop} {s s' : σ}
  {es : List ε}

theorem meets_of_forall_mem {allowed : ε → Prop} (h : ∀ e ∈ es, allowed e) :
    Meets (fun _ e => allowed e) step s es := by
  induction es generalizing s with
  | nil => trivial
  | cons e es ih =>
    refine ⟨h e mem_cons_self, fun s' _ => ih fun e' he' => ?_⟩
    exact h e' (mem_cons_of_mem e he')

theorem Meets.and {allowed' : σ → ε → Prop} (h : Meets allowed step s es)
    (h' : Meets allowed' step s es) :
    Meets (fun s e => allowed s e ∧ allowed' s e) step s es := by
  induction es generalizing s with
  | nil => trivial
  | cons e es ih => exact ⟨⟨h.1, h'.1⟩, fun s' hs => ih (h.2 s' hs) (h'.2 s' hs)⟩

@[simp] theorem run_nil (step : σ → ε → Option σ) (s : σ) : run step s [] = some s := rfl

theorem run_cons (step : σ → ε → Option σ) (s : σ) (e : ε) (es : List ε) :
    run step s (e :: es) = (step s e).bind fun s' => run step s' es := rfl

theorem run_append (step : σ → ε → Option σ) (s : σ) (es es' : List ε) :
    run step s (es ++ es') = (run step s es).bind fun s' => run step s' es' := by
  induction es generalizing s with
  | nil => rfl
  | cons e es ih =>
    simp only [cons_append, run_cons, bind_assoc]
    congr 1
    funext s'
    exact ih s'

theorem run_invariant (hstep : ∀ s e s', Inv s → allowed s e → step s e = some s' → Inv s')
    {s s' : σ} {es : List ε} (hs : Inv s) (hall : Meets allowed step s es)
    (hrun : run step s es = some s') : Inv s' := by
  induction es generalizing s with
  | nil =>
    cases hrun
    exact hs
  | cons e es ih =>
    rw [run_cons, bind_eq_some_iff] at hrun
    obtain ⟨t, ht, hrest⟩ := hrun
    exact ih (hstep s e t hs hall.1 ht) (hall.2 t ht) hrest

theorem run_preserves (hstep : ∀ s e s', Inv s → step s e = some s' → Inv s') {s s' : σ}
    {es : List ε} (hs : Inv s) (hrun : run step s es = some s') : Inv s' := by
  induction es generalizing s with
  | nil =>
    cases hrun
    exact hs
  | cons e es ih =>
    rw [run_cons, bind_eq_some_iff] at hrun
    obtain ⟨t, ht, hrest⟩ := hrun
    exact ih (hstep s e t hs ht) hrest

theorem run_total_of_meets (hstep : ∀ s e, Inv s → allowed s e → ∃ s', step s e = some s' ∧ Inv s')
    (hs : Inv s) (hall : Meets allowed step s es) : ∃ s', run step s es = some s' ∧ Inv s' := by
  induction es generalizing s with
  | nil => exact ⟨s, rfl, hs⟩
  | cons e es ih =>
    obtain ⟨t, ht, hinv⟩ := hstep s e hs hall.1
    obtain ⟨s', hs', hinv'⟩ := ih hinv (hall.2 t ht)
    exact ⟨s', by rw [run_cons, ht, bind_some, hs'], hinv'⟩

theorem run_total (hstep : ∀ s e, Inv s → ∃ s', step s e = some s' ∧ Inv s') (hs : Inv s)
    (es : List ε) :
    ∃ s', run step s es = some s' ∧ Inv s' := by
  have hall : Meets (fun _ _ => True) step s es := meets_of_forall_mem fun _ _ => trivial
  exact run_total_of_meets (fun s e hinv _ => hstep s e hinv) hs hall

/-- A run that leaves no lasting damage consists of allowed steps, when every step that is
not allowed does such damage. -/
theorem run_meets {Bad : σ → Prop}
    (hstep : ∀ s e s', Inv s → allowed s e → step s e = some s' → Inv s')
    (hbad : ∀ s e s', Inv s → ¬allowed s e → step s e = some s' → Bad s')
    (hlasts : ∀ s e s', Bad s → step s e = some s' → Bad s') (hs : Inv s)
    (hrun : run step s es = some s') (hgood : ¬Bad s') : Meets allowed step s es := by
  induction es generalizing s with
  | nil => trivial
  | cons e es ih =>
    rw [run_cons, bind_eq_some_iff] at hrun
    obtain ⟨t, ht, hrest⟩ := hrun
    by_cases ha : allowed s e
    · refine ⟨ha, fun t' ht' => ?_⟩
      rw [ht, some.injEq] at ht'
      subst ht'
      exact ih (hstep s e t hs ha ht) hrest
    · exact absurd (run_preserves hlasts (hbad s e t hs ha ht) hrest) hgood

theorem run_repeat {block : List ε} (family : ℕ → σ) (n : ℕ)
    (hblock : ∀ k < n, run step (family k) block = some (family (k + 1))) :
    run step (family 0) (List.replicate n block).flatten = some (family n) := by
  induction n with
  | zero => rfl
  | succ n ih =>
    have hbefore := ih fun k hk => hblock k (Nat.lt_succ_of_lt hk)
    rw [replicate_succ', flatten_append, run_append, hbefore, bind_some,
      flatten_singleton]
    exact hblock n (Nat.lt_succ_self n)

/-! ### Logs -/

/-- What the events bring along a run, each where it is taken. -/
def collect {α : Type*} (brings : σ → ε → List α) (step : σ → ε → Option σ) : σ → List ε → List α
  | _, [] => []
  | s, e :: es => brings s e ++ (step s e).elim [] fun s' => collect brings step s' es

/-- A log to which every step adds what its event brings holds what all events brought. -/
theorem run_collects {α : Type*} {brings : σ → ε → List α} {log : σ → List α}
    (hstep : ∀ s e s', Inv s → allowed s e → step s e = some s' →
      Inv s' ∧ log s' = log s ++ brings s e)
    (hs : Inv s) (hall : Meets allowed step s es) (hrun : run step s es = some s') :
    log s' = log s ++ collect brings step s es := by
  induction es generalizing s with
  | nil =>
    cases hrun
    exact (append_nil _).symm
  | cons e es ih =>
    rw [run_cons, bind_eq_some_iff] at hrun
    obtain ⟨t, ht, hrest⟩ := hrun
    obtain ⟨hinv, hlog⟩ := hstep s e t hs hall.1 ht
    rw [ih hinv (hall.2 t ht) hrest, hlog, append_assoc, collect, ht, elim_some]

/-! ### Runs with reports -/

/-- A run of a relation each of whose steps also reports something. -/
inductive Performs {ο : Type*} (step : σ → ε → ο → σ → Prop) : σ → List ε → List ο → σ → Prop
  | nil (s : σ) : Performs step s [] [] s
  | cons {s s' s'' : σ} {e : ε} {es : List ε} {report : ο} {reports : List ο}
    (hstep : step s e report s') (hrest : Performs step s' es reports s'') :
    Performs step s (e :: es) (report :: reports) s''

/-- When related states can take every event with the same report and stay related, so can they
take every list of events. -/
theorem performs_of_simulation {τ ο : Type*} {step : σ → ε → ο → σ → Prop}
    {step' : τ → ε → ο → τ → Prop} {R : σ → τ → Prop}
    (hsim : ∀ s t e, R s t → ∃ report s' t', step s e report s' ∧ step' t e report t' ∧ R s' t')
    {t : τ} (hstart : R s t) (es : List ε) :
    ∃ reports s' t', Performs step s es reports s' ∧ Performs step' t es reports t' ∧ R s' t' := by
  induction es generalizing s t with
  | nil => exact ⟨[], s, t, .nil s, .nil t, hstart⟩
  | cons e es ih =>
    obtain ⟨report, s', t', hs, ht, hrelated⟩ := hsim s t e hstart
    obtain ⟨reports, s'', t'', hs', ht', hend⟩ := ih hrelated
    exact ⟨report :: reports, s'', t'', .cons hs hs', .cons ht ht', hend⟩

/-! ### Requests and answers along a history -/

variable {ρ : Type*} {P : List ρ → Prop} {Q : List ρ → ρ → Prop} {request answer record : ρ}
  {history : List ρ}

/-- Some request in the history, made when `P` held of what came before it, has not been
answered since. -/
def Outstanding (P : List ρ → Prop) (request answer : ρ) (history : List ρ) : Prop :=
  ∃ before after, history = before ++ request :: after ∧ P before ∧ answer ∉ after

lemma not_outstanding_nil : ¬Outstanding P request answer [] := by
  rintro ⟨before, after, h, -⟩
  simp at h

lemma outstanding_concat :
    Outstanding P request answer (history ++ [record]) ↔
      record = request ∧ P history ∨ record ≠ answer ∧ Outstanding P request answer history := by
  refine ⟨?_, ?_⟩
  · rintro ⟨before, after, h, hp, hnot⟩
    obtain rfl | ⟨after', last, rfl⟩ := after.eq_nil_or_concat
    · obtain ⟨rfl, hlast⟩ := append_inj' h rfl
      exact .inl ⟨(List.cons.inj hlast).1, hp⟩
    · rw [concat_eq_append, ← cons_append, ← append_assoc] at h
      obtain ⟨rfl, hlast⟩ := append_inj' h rfl
      obtain rfl := (List.cons.inj hlast).1
      rw [concat_eq_append, mem_append, mem_singleton, not_or] at hnot
      exact .inr ⟨fun he => hnot.2 he.symm, before, after', rfl, hp, hnot.1⟩
  · rintro (⟨rfl, hp⟩ | ⟨hne, before, after, rfl, hp, hnot⟩)
    · exact ⟨history, [], rfl, hp, not_mem_nil⟩
    · refine ⟨before, after ++ [record], by simp, hp, ?_⟩
      rw [mem_append, mem_singleton, not_or]
      exact ⟨hnot, hne.symm⟩

def ExtendsBy (P : ρ → Prop) (history history' : List ρ) : Prop :=
  ∃ records, history' = history ++ records ∧ ∀ r ∈ records, P r

namespace ExtendsBy

variable {Q : ρ → Prop} {history' history'' : List ρ}

lemma refl (history : List ρ) : ExtendsBy Q history history := ⟨[], by simp⟩

lemma concat (history : List ρ) (h : Q record) : ExtendsBy Q history (history ++ [record]) :=
  ⟨[record], rfl, by simpa using h⟩

lemma trans (h : ExtendsBy Q history history') (h' : ExtendsBy Q history' history'') :
    ExtendsBy Q history history'' := by
  obtain ⟨records, rfl, hrecords⟩ := h
  obtain ⟨records', rfl, hrecords'⟩ := h'
  refine ⟨records ++ records', append_assoc history records records', fun r hr => ?_⟩
  exact (mem_append.mp hr).elim (hrecords r) (hrecords' r)

lemma mem_of_not (h : ExtendsBy Q history history') (hmem : record ∈ history') (hnot : ¬Q record) :
    record ∈ history := by
  obtain ⟨records, rfl, hrecords⟩ := h
  exact (mem_append.mp hmem).resolve_right fun hr => hnot (hrecords record hr)

end ExtendsBy

/-- Every record of the history was in order, given what came before it. -/
def Justified (Q : List ρ → ρ → Prop) (history : List ρ) : Prop :=
  ∀ before r after, history = before ++ r :: after → Q before r

lemma justified_nil : Justified Q [] := by
  intro before r after h
  simp at h

lemma justified_concat :
    Justified Q (history ++ [record]) ↔ Justified Q history ∧ Q history record := by
  refine ⟨fun h => ⟨fun before r after heq => ?_, h history record [] rfl⟩, ?_⟩
  · exact h before r (after ++ [record]) (by simp [heq])
  · rintro ⟨hhistory, hrecord⟩ before r after heq
    obtain rfl | ⟨after', last, rfl⟩ := after.eq_nil_or_concat
    · obtain ⟨rfl, hlast⟩ := append_inj' heq rfl
      exact (List.cons.inj hlast).1 ▸ hrecord
    · rw [concat_eq_append, ← cons_append, ← append_assoc] at heq
      exact hhistory before r after' (append_inj' heq rfl).1

lemma Justified.extend {R : ρ → Prop} {history' : List ρ} (h : Justified Q history)
    (hextends : ExtendsBy R history history') (hjustified : ∀ r before, R r → Q before r) :
    Justified Q history' := by
  obtain ⟨records, rfl, hrecords⟩ := hextends
  induction records generalizing history with
  | nil => rwa [append_nil]
  | cons r records ih =>
    rw [← singleton_append, ← append_assoc]
    have hr := hjustified r history (hrecords r mem_cons_self)
    refine ih (justified_concat.mpr ⟨h, hr⟩) fun r' hr' => ?_
    exact hrecords r' (mem_cons_of_mem r hr')

end MasqueServer
