import Mathlib.Data.List.Basic
import Mathlib.Tactic

/-!
# Splitting texts at separators

A text is a list of symbols. Splitting it at the first or at the last separator is determined by
what the parts are: they make up the text, and one of them is free of the separator.
-/
namespace MasqueServer

open List Option

variable {α : Type*} [DecidableEq α] {sep first second : α} {text front back : List α}

def splitOnce (sep : α) : List α → Option (List α × List α)
  | [] => none
  | a :: rest =>
    if a = sep then some ([], rest)
    else (splitOnce sep rest).map fun parts => (a :: parts.1, parts.2)

def rsplitOnce (sep : α) : List α → Option (List α × List α)
  | [] => none
  | a :: rest =>
    match rsplitOnce sep rest with
    | some (front, back) => some (a :: front, back)
    | none => if a = sep then some ([], rest) else none

def splitOncePair (first second : α) : List α → Option (List α × List α)
  | a :: b :: rest =>
    if a = first ∧ b = second then some ([], rest)
    else (splitOncePair first second (b :: rest)).map fun parts => (a :: parts.1, parts.2)
  | _ => none

lemma splitOnce_eq_none_iff : splitOnce sep text = none ↔ sep ∉ text := by
  induction text with
  | nil => simp [splitOnce]
  | cons a rest ih =>
    by_cases ha : a = sep
    · simp [splitOnce, ha]
    · simp [splitOnce, ha, ih, Ne.symm ha]

theorem splitOnce_eq_some_iff :
    splitOnce sep text = some (front, back) ↔ text = front ++ sep :: back ∧ sep ∉ front := by
  induction text generalizing front with
  | nil => simp [splitOnce]
  | cons a rest ih =>
    by_cases ha : a = sep
    · subst ha
      cases front with
      | nil => simp [splitOnce]
      | cons b front => simp +contextual [splitOnce]
    · cases front with
      | nil => simp [splitOnce, ha]
      | cons b front =>
        simp only [splitOnce, if_neg ha, map_eq_some_iff, Prod.exists, Prod.mk.injEq,
          List.cons.injEq, cons_append, mem_cons, not_or]
        constructor
        · rintro ⟨front', back', hsplit, ⟨rfl, rfl⟩, rfl⟩
          obtain ⟨htext, hfree⟩ := ih.mp hsplit
          exact ⟨⟨rfl, htext⟩, fun h => ha h.symm, hfree⟩
        · rintro ⟨⟨rfl, htext⟩, -, hfree⟩
          exact ⟨front, back, ih.mpr ⟨htext, hfree⟩, ⟨rfl, rfl⟩, rfl⟩

lemma rsplitOnce_eq_none_iff : rsplitOnce sep text = none ↔ sep ∉ text := by
  induction text with
  | nil => simp [rsplitOnce]
  | cons a rest ih =>
    rw [rsplitOnce]
    cases hrest : rsplitOnce sep rest with
    | none =>
      have hfree := ih.mp hrest
      by_cases ha : a = sep
      · simp [ha]
      · simp [ha, hfree, Ne.symm ha]
    | some parts =>
      have hmem : sep ∈ rest := by
        by_contra hfree
        rw [ih.mpr hfree] at hrest
        exact some_ne_none _ hrest.symm
      simp [hmem]

theorem rsplitOnce_eq_some_iff :
    rsplitOnce sep text = some (front, back) ↔ text = front ++ sep :: back ∧ sep ∉ back := by
  induction text generalizing front back with
  | nil => simp [rsplitOnce]
  | cons a rest ih =>
    rw [rsplitOnce]
    cases hrest : rsplitOnce sep rest with
    | none =>
      have hfree := rsplitOnce_eq_none_iff.mp hrest
      cases front with
      | nil =>
        by_cases ha : a = sep
        · simp only [ha, if_pos, some.injEq, Prod.mk.injEq, true_and, nil_append,
            List.cons.injEq]
          exact ⟨fun h => ⟨h, h ▸ hfree⟩, fun h => h.1⟩
        · simp [ha]
      | cons b front =>
        have hsplit : ¬ rest = front ++ sep :: back := fun h => hfree (by simp [h])
        by_cases ha : a = sep <;> simp [ha, hsplit]
    | some parts =>
      obtain ⟨front', back'⟩ := parts
      obtain ⟨htext, hback⟩ := ih.mp hrest
      cases front with
      | nil =>
        simp only [some.injEq, Prod.mk.injEq, cons_ne_nil, false_and, false_iff,
          nil_append, List.cons.injEq, not_and, not_not]
        rintro ⟨-, rfl⟩
        simp [htext]
      | cons b front =>
        simp only [some.injEq, Prod.mk.injEq, List.cons.injEq, cons_append]
        constructor
        · rintro ⟨⟨rfl, rfl⟩, rfl⟩
          exact ⟨⟨rfl, htext⟩, hback⟩
        · rintro ⟨⟨rfl, hrest'⟩, hfree⟩
          have hsame := (ih.mpr ⟨hrest', hfree⟩).symm.trans hrest
          simp only [some.injEq, Prod.mk.injEq] at hsame
          exact ⟨⟨rfl, hsame.1.symm⟩, hsame.2.symm⟩

lemma eq_of_splitOncePair (h : splitOncePair first second text = some (front, back)) :
    text = front ++ first :: second :: back := by
  induction text generalizing front with
  | nil => simp [splitOncePair] at h
  | cons a rest ih =>
    cases rest with
    | nil => simp [splitOncePair] at h
    | cons b rest =>
      rw [splitOncePair] at h
      split_ifs at h with hpair
      · simp only [some.injEq, Prod.mk.injEq] at h
        obtain ⟨rfl, rfl⟩ := h
        simp [hpair.1, hpair.2]
      · simp only [map_eq_some_iff, Prod.exists, Prod.mk.injEq] at h
        obtain ⟨front', back', hsplit, rfl, rfl⟩ := h
        rw [ih hsplit, cons_append]

lemma splitOncePair_append (hfree : first ∉ front) :
    splitOncePair first second (front ++ first :: second :: back) = some (front, back) := by
  induction front with
  | nil => simp [splitOncePair]
  | cons a front ih =>
    simp only [mem_cons, not_or] at hfree
    have hrest := ih hfree.2
    cases front with
    | nil => simp [splitOncePair, Ne.symm hfree.1]
    | cons b front =>
      rw [cons_append] at hrest
      simp [splitOncePair, Ne.symm hfree.1, hrest]

lemma notMem_of_mem_splitOn {part : List α} (h : part ∈ text.splitOn sep) : sep ∉ part := by
  induction text generalizing part with
  | nil =>
    rw [splitOn_nil, mem_singleton] at h
    simp [h]
  | cons a rest ih =>
    rw [splitOn_cons_eq_if_modifyHead] at h
    split_ifs at h with ha
    · rcases mem_cons.mp h with rfl | h
      · simp
      · exact ih h
    · cases hsplit : rest.splitOn sep with
      | nil => exact absurd hsplit (splitOn_ne_nil sep rest)
      | cons head tail =>
        rw [hsplit, modifyHead_cons, mem_cons] at h
        rcases h with rfl | h
        · have hhead := ih (hsplit ▸ mem_cons_self)
          simp only [beq_iff_eq] at ha
          simp [hhead, Ne.symm ha]
        · exact ih (hsplit ▸ mem_cons_of_mem _ h)

section Joining

variable {β : Type*} {sep a : β} {part : List β} {parts : List (List β)}

lemma eq_or_mem_of_mem_intercalate
    (h : a ∈ [sep].intercalate parts) : a = sep ∨ ∃ part ∈ parts, a ∈ part := by
  induction parts with
  | nil => simp at h
  | cons part rest ih =>
    cases rest with
    | nil => exact Or.inr ⟨part, mem_cons_self, by simpa using h⟩
    | cons next rest =>
      rw [intercalate_cons_cons, mem_append, mem_append, mem_singleton] at h
      rcases h with (h | h) | h
      · exact Or.inr ⟨part, mem_cons_self, h⟩
      · exact Or.inl h
      · exact (ih h).imp_right fun ⟨p, hp, hmem⟩ => ⟨p, mem_cons_of_mem _ hp, hmem⟩

lemma mem_intercalate_of_mem (hpart : part ∈ parts) (h : a ∈ part) :
    a ∈ [sep].intercalate parts := by
  induction parts with
  | nil => cases hpart
  | cons first rest ih =>
    cases rest with
    | nil =>
      rw [mem_singleton.mp hpart] at h
      simpa using h
    | cons next rest =>
      rw [intercalate_cons_cons, mem_append, mem_append]
      rcases mem_cons.mp hpart with rfl | hpart
      · exact Or.inl (Or.inl h)
      · exact Or.inr (ih hpart)

lemma intercalate_append {parts' : List (List β)} (hne : parts ≠ []) (hne' : parts' ≠ []) :
    [sep].intercalate (parts ++ parts') =
      [sep].intercalate parts ++ sep :: [sep].intercalate parts' := by
  induction parts with
  | nil => exact absurd rfl hne
  | cons part rest ih =>
    cases rest with
    | nil =>
      rw [singleton_append, intercalate_cons_of_ne_nil hne', intercalate_singleton,
        append_assoc, singleton_append]
    | cons next rest =>
      rw [cons_append, intercalate_cons_of_ne_nil (by simp), ih (by simp),
        intercalate_cons_cons, append_assoc _ ([sep].intercalate _)]

end Joining

end MasqueServer
