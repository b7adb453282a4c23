import Mathlib.Data.List.Nodup
import Mathlib.Data.List.Pairwise

/-!
# First occurrences in a list

The elements of a list without their repeats, each where it occurs first. Appending an element
unless it is there already builds such a list one element at a time.
-/
namespace MasqueServer

open List

variable {α : Type*} [DecidableEq α]

def pushUnique (unique : List α) (a : α) : List α :=
  if unique.contains a then unique else unique ++ [a]

/-- The first occurrences of a list's elements, in their order. -/
structure FirstOccurrences (all firsts : List α) : Prop where
  nodup : firsts.Nodup
  sublist : firsts.Sublist all
  mem_iff : ∀ a, a ∈ firsts ↔ a ∈ all
  ordered : firsts.Pairwise fun a b => all.idxOf a < all.idxOf b

lemma FirstOccurrences.nil : FirstOccurrences ([] : List α) [] :=
  ⟨nodup_nil, List.Sublist.refl _, fun _ => Iff.rfl, List.Pairwise.nil⟩

lemma FirstOccurrences.ordered_append {all firsts : List α} (h : FirstOccurrences all firsts)
    (a : α) : firsts.Pairwise fun x y => (all ++ [a]).idxOf x < (all ++ [a]).idxOf y := by
  refine h.ordered.imp_of_mem fun {x y} hx hy hlt => ?_
  rwa [idxOf_append_of_mem ((h.mem_iff x).mp hx),
    idxOf_append_of_mem ((h.mem_iff y).mp hy)]

lemma FirstOccurrences.push {all firsts : List α} (h : FirstOccurrences all firsts) (a : α) :
    FirstOccurrences (all ++ [a]) (pushUnique firsts a) := by
  unfold pushUnique
  split_ifs with hseen
  · have hmem : a ∈ all := (h.mem_iff a).mp (contains_iff_mem.mp hseen)
    refine ⟨h.nodup, h.sublist.trans (sublist_append_left _ _), fun x => ?_,
      h.ordered_append a⟩
    rw [h.mem_iff, mem_append, mem_singleton]
    exact ⟨.inl, fun hx => hx.elim id fun he => he ▸ hmem⟩
  · have hnew : a ∉ all := fun hmem =>
      hseen (contains_iff_mem.mpr ((h.mem_iff a).mpr hmem))
    have hfresh : a ∉ firsts := fun hmem => hnew ((h.mem_iff a).mp hmem)
    refine ⟨?_, h.sublist.append (List.Sublist.refl _), fun x => ?_, ?_⟩
    · rw [← concat_eq_append]
      exact h.nodup.concat hfresh
    · simp only [mem_append, h.mem_iff]
    · rw [pairwise_append]
      refine ⟨h.ordered_append a, pairwise_singleton _ _, fun x hx y hy => ?_⟩
      obtain rfl := mem_singleton.mp hy
      have hxall : x ∈ all := (h.mem_iff x).mp hx
      rw [idxOf_append_of_mem hxall, idxOf_append_of_notMem hnew]
      have hlt := idxOf_lt_length_of_mem hxall
      omega

lemma firstOccurrences_foldl {before firsts : List α} (h : FirstOccurrences before firsts)
    (all : List α) : FirstOccurrences (before ++ all) (all.foldl pushUnique firsts) := by
  induction all generalizing before firsts with
  | nil => rwa [append_nil]
  | cons a all ih =>
    have hrest := ih (h.push a)
    rwa [append_assoc, singleton_append] at hrest

end MasqueServer
