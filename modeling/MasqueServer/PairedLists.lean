import Mathlib.Data.List.Forall2
import Mathlib.Data.List.Nodup

/-!
# Lists changed at one position

Two lists related element by element stay so when both are changed at the same position, and a
search that agrees on related elements finds the same position in both. In a list whose keys are
distinct, changing the element at a position is changing the elements of its key.
-/
namespace MasqueServer

open List Option

section Pairs

variable {α β : Type} {R : α → β → Prop} {l : List α} {l' : List β}

lemma mapM_eq_some_iff {f : α → Option β} :
    l.mapM f = some l' ↔ List.Forall₂ (fun a b => f a = some b) l l' := by
  induction l generalizing l' with
  | nil => simp [eq_comm]
  | cons a l ih =>
    simp only [mapM_cons, bind_eq_bind, Option.pure_def, bind_eq_some_iff,
      some.injEq, List.forall₂_cons_left_iff, ih]
    constructor
    · rintro ⟨b, hb, bs, hbs, rfl⟩
      exact ⟨b, bs, hb, hbs, rfl⟩
    · rintro ⟨b, bs, hb, hbs, rfl⟩
      exact ⟨b, hb, bs, hbs, rfl⟩

variable (h : List.Forall₂ R l l')
include h

lemma forall₂_imp_of_mem {S : α → β → Prop} (himp : ∀ a, ∀ b ∈ l', R a b → S a b) :
    List.Forall₂ S l l' := by
  obtain ⟨hlength, hzip⟩ := List.forall₂_iff_zip.mp h
  exact List.forall₂_iff_zip.mpr ⟨hlength, fun {a b} hmem =>
    himp a b (of_mem_zip hmem).2 (hzip hmem)⟩

lemma forall₂_getElem? {i : ℕ} {b : β} (hb : l'[i]? = some b) : ∃ a, l[i]? = some a ∧ R a b := by
  induction h generalizing i with
  | nil => cases hb
  | @cons a' b' l l' hab _ ih =>
    cases i with
    | zero =>
      cases hb
      exact ⟨a', rfl, hab⟩
    | succ i => exact ih hb

lemma forall₂_modify {f : α → α} {g : β → β} (hfg : ∀ a b, R a b → R (f a) (g b)) (i : ℕ) :
    List.Forall₂ R (l.modify i f) (l'.modify i g) := by
  induction h generalizing i with
  | nil => cases i <;> exact .nil
  | cons hhead htail ih =>
    cases i with
    | zero => exact .cons (hfg _ _ hhead) htail
    | succ i => exact .cons hhead (ih i)

lemma forall₂_eraseIdx (i : ℕ) : List.Forall₂ R (l.eraseIdx i) (l'.eraseIdx i) := by
  induction h generalizing i with
  | nil => exact .nil
  | cons hhead htail ih =>
    cases i with
    | zero => exact htail
    | succ i => exact .cons hhead (ih i)

lemma findIdx?_eq_of_forall₂ {p : α → Bool} {q : β → Bool} (hpq : ∀ a b, R a b → p a = q b) :
    l.findIdx? p = l'.findIdx? q := by
  induction h with
  | nil => rfl
  | cons hhead _ ih => rw [findIdx?_cons, findIdx?_cons, hpq _ _ hhead, ih]

end Pairs

lemma forall_mem_modify {α : Type} {P : α → Prop} {l : List α} (h : ∀ a ∈ l, P a) {f : α → α}
    (hf : ∀ a ∈ l, P (f a)) (i : ℕ) : ∀ a ∈ l.modify i f, P a := by
  intro a ha
  obtain ⟨j, hj⟩ := mem_iff_getElem?.mp ha
  rw [getElem?_modify] at hj
  obtain ⟨before, hbefore, rfl⟩ := map_eq_some_iff.mp hj
  split_ifs
  · exact hf before (mem_of_getElem? hbefore)
  · exact h before (mem_of_getElem? hbefore)

section Keys

variable {α κ : Type} [DecidableEq κ] {key : α → κ} {l : List α}

lemma eraseIdx_eq_filter (hkeys : (l.map key).Nodup) {i : ℕ} {a : α} (ha : l[i]? = some a) :
    l.eraseIdx i = l.filter fun x => key x ≠ key a := by
  induction l generalizing i with
  | nil => cases ha
  | cons x l ih =>
    obtain ⟨hnotin, hnodup⟩ := nodup_cons.mp hkeys
    have hothers : ∀ y ∈ l, key x ≠ key y := fun y hy heq => hnotin (heq ▸ mem_map_of_mem hy)
    cases i with
    | zero =>
      cases ha
      rw [eraseIdx_cons_zero, filter_cons_of_neg (by simp)]
      exact (filter_eq_self.mpr fun y hy => decide_eq_true (hothers y hy).symm).symm
    | succ i =>
      rw [eraseIdx_cons_succ, ih hnodup ha]
      exact (filter_cons_of_pos (by simpa using hothers a (mem_of_getElem? ha))).symm

lemma modify_eq_map (hkeys : (l.map key).Nodup) {i : ℕ} {a : α} (ha : l[i]? = some a) (f : α → α) :
    l.modify i f = l.map fun x => if key x = key a then f x else x := by
  induction l generalizing i with
  | nil => cases ha
  | cons x l ih =>
    obtain ⟨hnotin, hnodup⟩ := nodup_cons.mp hkeys
    have hothers : ∀ y ∈ l, key x ≠ key y := fun y hy heq => hnotin (heq ▸ mem_map_of_mem hy)
    cases i with
    | zero =>
      cases ha
      rw [modify_zero_cons, map_cons, if_pos rfl]
      refine congrArg _ ((List.map_id l).symm.trans (map_congr_left fun y hy => ?_))
      rw [if_neg (hothers y hy).symm, id]
    | succ i =>
      rw [modify_succ_cons, ih hnodup ha, map_cons, if_neg (hothers a (mem_of_getElem? ha))]

end Keys

end MasqueServer
