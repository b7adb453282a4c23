import Mathlib.Data.List.Defs
import Mathlib.Data.List.Basic
import Mathlib.Order.Nat

/-!
# Pieces of one size

A list is cut into pieces of a given size, of which the last may be shorter. Pieces that follow
each other evenly, all of the size but a shorter last one, are what the cut of their
concatenation gives back.
-/
namespace MasqueServer

open List

namespace Segmentation

variable {α : Type*}

def cut : ℕ → List α → List (List α)
  | 0, _ => []
  | size + 1, l => (l.toChunksAux size 0).2

lemma cut_nil (size : ℕ) : cut size ([] : List α) = [] := by
  cases size <;> rfl

lemma toChunksAux_append (size : ℕ) (piece rest : List α) :
    (piece ++ rest).toChunksAux size piece.length = (piece, cut (size + 1) rest) := by
  induction piece with
  | nil =>
    cases rest with
    | nil => rfl
    | cons x rest => simp [List.toChunksAux, cut]
  | cons x piece ih => simp [List.toChunksAux, ih]

variable {piece : List α} {size : ℕ} {pieces : List (List α)}

lemma toChunksAux_of_length_le (size : ℕ) {i : ℕ} (h : piece.length ≤ i) :
    piece.toChunksAux size i = (piece, []) := by
  induction piece generalizing i with
  | nil => rfl
  | cons x piece ih =>
    cases i with
    | zero => simp at h
    | succ i => simp [List.toChunksAux, ih (Nat.le_of_succ_le_succ h)]

lemma cut_append (hsize : 0 < size) (hpiece : piece.length = size) (rest : List α) :
    cut size (piece ++ rest) = piece :: cut size rest := by
  cases piece with
  | nil => simp at hpiece; omega
  | cons x piece =>
    subst hpiece
    simp [cut, List.toChunksAux, toChunksAux_append piece.length piece rest]

lemma cut_of_length_le (hpos : piece ≠ []) (hle : piece.length ≤ size) :
    cut size piece = [piece] := by
  cases piece with
  | nil => exact absurd rfl hpos
  | cons x piece =>
    cases size with
    | zero => simp at hle
    | succ size =>
      simp [cut, List.toChunksAux, toChunksAux_of_length_le size (Nat.le_of_succ_le_succ hle)]

/-- All pieces have the size, but for the last one that may be shorter, though not empty. -/
def Evenly (size : ℕ) : List (List α) → Prop
  | [] => True
  | [piece] => piece ≠ [] ∧ piece.length ≤ size
  | piece :: next :: rest => piece.length = size ∧ Evenly size (next :: rest)

theorem cut_flatten (hsize : 0 < size) (h : Evenly size pieces) :
    cut size pieces.flatten = pieces := by
  induction pieces with
  | nil => exact cut_nil size
  | cons piece pieces ih =>
    cases pieces with
    | nil => simpa using cut_of_length_le h.1 h.2
    | cons next rest => rw [flatten_cons, cut_append hsize h.1, ih h.2]

lemma Evenly.mem (h : Evenly size pieces) (hsize : 0 < size) (hpiece : piece ∈ pieces) :
    piece ≠ [] ∧ piece.length ≤ size := by
  induction pieces with
  | nil => cases hpiece
  | cons first pieces ih =>
    cases pieces with
    | nil =>
      rw [mem_singleton.mp hpiece]
      exact h
    | cons next rest =>
      obtain rfl | hrest := mem_cons.mp hpiece
      · exact ⟨length_pos_iff.mp (h.1 ▸ hsize), h.1.le⟩
      · exact ih h.2 hrest

lemma Evenly.dropLast (h : Evenly size pieces) (hpiece : piece ∈ pieces.dropLast) :
    piece.length = size := by
  induction pieces with
  | nil => cases hpiece
  | cons first pieces ih =>
    cases pieces with
    | nil => cases hpiece
    | cons next rest =>
      rw [dropLast_cons_cons] at hpiece
      obtain rfl | hrest := mem_cons.mp hpiece
      · exact h.1
      · exact ih h.2 hrest

lemma evenly_singleton (h : piece ≠ []) : Evenly piece.length [piece] :=
  ⟨h, le_rfl⟩

lemma Evenly.concat (h : Evenly size pieces) (hfull : size ∣ pieces.flatten.length)
    (hpos : piece ≠ []) (hle : piece.length ≤ size) : Evenly size (pieces ++ [piece]) := by
  induction pieces with
  | nil => exact ⟨hpos, hle⟩
  | cons first pieces ih =>
    cases pieces with
    | nil =>
      have hdvd : size ∣ first.length := by simpa using hfull
      have hlength := Nat.le_of_dvd (length_pos_iff.mpr h.1) hdvd
      exact ⟨le_antisymm h.2 hlength, hpos, hle⟩
    | cons next rest =>
      refine ⟨h.1, ih h.2 ?_⟩
      rw [flatten_cons, length_append, h.1] at hfull
      exact (Nat.dvd_add_right (Nat.dvd_refl size)).mp hfull

end Segmentation

end MasqueServer
