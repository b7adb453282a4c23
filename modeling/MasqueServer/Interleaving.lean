import Mathlib.Data.List.Basic
import Mathlib.Tactic

/-!
# Interleaving two lists

Two lists are woven into one by taking an element of each in turn; when one list ends, the rest
of the other follows. When a test tells the elements of the two lists apart, each list can be
read off the result, and the result alternates between them until one is used up.
-/
namespace MasqueServer

open List

variable {α : Type*}

def weave : List α → List α → List α
  | [], ys => ys
  | x :: xs, ys => x :: weave ys xs
termination_by xs ys => xs.length + ys.length
decreasing_by
  simp only [length_cons]
  omega

@[simp] lemma weave_nil_left (ys : List α) : weave [] ys = ys := by rw [weave]

@[simp] lemma weave_cons (x : α) (xs ys : List α) : weave (x :: xs) ys = x :: weave ys xs := by
  rw [weave]

@[simp] lemma weave_nil_right (xs : List α) : weave xs [] = xs := by
  cases xs <;> simp

lemma weave_perm (xs ys : List α) : (weave xs ys).Perm (xs ++ ys) := by
  induction xs, ys using weave.induct with
  | case1 ys => simp
  | case2 x xs ys ih =>
    rw [weave_cons, cons_append]
    exact (ih.trans perm_append_comm).cons x

lemma weave_filter {p : α → Bool} {xs ys : List α} (hxs : ∀ x ∈ xs, p x = true)
    (hys : ∀ y ∈ ys, p y = false) :
    (weave xs ys).filter p = xs ∧ (weave ys xs).filter p = xs := by
  have hyes (zs : List α) (h : ∀ z ∈ zs, p z = true) : zs.filter p = zs :=
    filter_eq_self.mpr h
  have hno (zs : List α) (h : ∀ z ∈ zs, p z = false) : zs.filter p = [] :=
    filter_eq_nil_iff.mpr fun z hz => by simp [h z hz]
  induction xs generalizing ys with
  | nil => simp [hno ys hys]
  | cons x xs ih =>
    have hx := hxs x mem_cons_self
    have hrest : ∀ z ∈ xs, p z = true := fun z hz => hxs z (mem_cons_of_mem _ hz)
    refine ⟨?_, ?_⟩
    · rw [weave_cons, filter_cons_of_pos hx, (ih hrest hys).2]
    · cases ys with
      | nil => simp [hyes _ hxs]
      | cons y ys =>
        have hy := hys y mem_cons_self
        have hys' : ∀ z ∈ ys, p z = false := fun z hz => hys z (mem_cons_of_mem _ hz)
        rw [weave_cons, weave_cons, filter_cons_of_neg (by simp [hy]),
          filter_cons_of_pos hx, (ih hrest hys').2]

def AlternatesUntilExhausted (kind : α → Bool) (l : List α) : Prop :=
  ∀ i a b, l[i]? = some a → l[i + 1]? = some b → kind a = kind b →
    ∀ c ∈ l.drop i, kind c = kind a

lemma alternates_of_forall {kind : α → Bool} {k : Bool} {l : List α}
    (h : ∀ x ∈ l, kind x = k) : AlternatesUntilExhausted kind l := by
  intro i a _ ha _ _ c hc
  rw [h a (mem_of_getElem? ha), h c (mem_of_mem_drop hc)]

lemma weave_alternates {kind : α → Bool} {k : Bool} {xs ys : List α}
    (hxs : ∀ x ∈ xs, kind x = k) (hys : ∀ y ∈ ys, kind y = !k) :
    AlternatesUntilExhausted kind (weave xs ys) := by
  induction xs, ys using weave.induct generalizing k with
  | case1 ys =>
    rw [weave_nil_left]
    exact alternates_of_forall hys
  | case2 x xs ys ih =>
    have hx := hxs x mem_cons_self
    have hrest : ∀ z ∈ xs, kind z = k := fun z hz => hxs z (mem_cons_of_mem _ hz)
    have halternates := ih hys (by simpa using hrest)
    rw [weave_cons]
    intro i a b ha hb hab c hc
    cases i with
    | succ i => exact halternates i a b ha hb hab c hc
    | zero =>
      rw [getElem?_cons_zero, Option.some.injEq] at ha
      subst ha
      cases ys with
      | nil =>
        rw [weave_nil_left, drop_zero] at hc
        rw [hxs c hc, hx]
      | cons y ys =>
        rw [weave_cons, getElem?_cons_succ, getElem?_cons_zero, Option.some.injEq] at hb
        subst hb
        rw [hx, hys y mem_cons_self] at hab
        cases k <;> cases hab

/-- A list reordered so that the two kinds alternate: the first element stays first, and
elements of one kind keep their order. -/
structure Interleaved (kind : α → Bool) (input output : List α) : Prop where
  perm : output.Perm input
  head : output.head? = input.head?
  order : ∀ k, output.filter (kind · == k) = input.filter (kind · == k)
  alternates : AlternatesUntilExhausted kind output

theorem weave_interleaved (kind : α → Bool) (first : α) (rest : List α) :
    Interleaved kind (first :: rest)
      (weave ((first :: rest).filter (kind · == kind first))
        ((first :: rest).filter (kind · == !kind first))) := by
  have hmine : ∀ x ∈ (first :: rest).filter (kind · == kind first), kind x = kind first :=
    fun x hx => by simpa using (mem_filter.mp hx).2
  have hother : ∀ x ∈ (first :: rest).filter (kind · == !kind first), kind x = !kind first :=
    fun x hx => by simpa using (mem_filter.mp hx).2
  refine ⟨?_, ?_, fun k => ?_, weave_alternates hmine hother⟩
  · have hcompl : (fun x => kind x == !kind first) = fun x => !(kind x == kind first) := by
      funext x
      cases kind x <;> cases kind first <;> rfl
    rw [hcompl]
    exact (weave_perm _ _).trans (filter_append_perm _ _)
  · rw [filter_cons_of_pos (by simp), weave_cons]
    rfl
  · by_cases hk : k = kind first
    · subst hk
      exact (weave_filter (fun x hx => by simp [hmine x hx])
        (fun x hx => by simp [hother x hx])).1
    · have hk' : k = !kind first := by cases k <;> cases hf : kind first <;> simp_all
      subst hk'
      exact (weave_filter (fun x hx => by simp [hother x hx])
        (fun x hx => by simp [hmine x hx])).2

end MasqueServer
