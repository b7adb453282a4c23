import MasqueServer.DistinctLists
import MasqueServer.ShardTimers

/-!
# Rounds of the dirty set

Marks, takes and round ends come in any order. Within a round the set remembers what was marked
after it has handed it out, so that what the takes of a round append is each marked index once,
in the order of the first marks.
-/
namespace MasqueServer.DirtySet

open List

def endRound (d : DirtySet) : DirtySet := { d with pending := [], seen := [] }

inductive Call
  | mark (index : ℕ)
  | takeInto (out : List ℕ)
  | endRound
  deriving DecidableEq

def perform (d : DirtySet) : Call → DirtySet
  | .mark index => d.mark index
  | .takeInto out => (d.takeInto out).1
  | .endRound => d.endRound

def performAll (d : DirtySet) (calls : List Call) : DirtySet := calls.foldl perform d

def taken : DirtySet → List Call → List (List ℕ × List ℕ)
  | _, [] => []
  | d, .takeInto out :: calls => (out, (d.takeInto out).2) :: taken (d.takeInto out).1 calls
  | d, .mark index :: calls => taken (d.mark index) calls
  | d, .endRound :: calls => taken d.endRound calls

def marks : List Call → List ℕ
  | [] => []
  | .mark index :: calls => index :: marks calls
  | .takeInto _ :: calls => marks calls
  | .endRound :: calls => marks calls

/-- What each take among the calls appends to the vector it is given. -/
def Delivers (d : DirtySet) (calls : List Call) (deliveries : List (List ℕ)) : Prop :=
  List.Forall₂ (fun vectors delivery => vectors.2 = vectors.1 ++ delivery) (d.taken calls)
    deliveries

/-- In the middle of a round: what was marked so far and what was delivered of it. -/
structure Tracks (d : DirtySet) (marked delivered : List ℕ) : Prop where
  firsts : FirstOccurrences marked (delivered ++ d.pending)
  seen_iff : ∀ index, index ∈ d.seen ↔ index ∈ marked

variable {d : DirtySet} {marked delivered : List ℕ}

lemma Tracks.mark (h : d.Tracks marked delivered) (index : ℕ) :
    (d.mark index).Tracks (marked ++ [index]) delivered := by
  have hfirsts := h.firsts.push index
  have hseen : index ∈ d.seen ↔ index ∈ delivered ++ d.pending := by
    rw [h.seen_iff, h.firsts.mem_iff]
  unfold pushUnique at hfirsts
  unfold DirtySet.mark
  by_cases hmem : index ∈ d.seen
  · rw [if_pos (contains_iff_mem.mpr (hseen.mp hmem))] at hfirsts
    rw [if_pos hmem]
    refine ⟨hfirsts, fun i => ?_⟩
    rw [h.seen_iff, mem_append, mem_singleton]
    exact ⟨.inl, fun hi => hi.elim id fun heq => heq ▸ (h.seen_iff index).mp hmem⟩
  · rw [if_neg (fun hin => hmem (hseen.mpr (contains_iff_mem.mp hin))), append_assoc]
      at hfirsts
    rw [if_neg hmem]
    refine ⟨hfirsts, fun i => ?_⟩
    rw [mem_cons, h.seen_iff, mem_append, mem_singleton, or_comm]

lemma Tracks.takeInto (h : d.Tracks marked delivered) (out : List ℕ) :
    (d.takeInto out).1.Tracks marked (delivered ++ d.pending) := by
  refine ⟨?_, h.seen_iff⟩
  rw [DirtySet.takeInto, append_nil]
  exact h.firsts

lemma tracks_start {before : List Call}
    (hstart : before = [] ∨ before.getLast? = some .endRound) :
    (performAll {} before).Tracks [] [] := by
  obtain rfl | hlast := hstart
  · exact ⟨FirstOccurrences.nil, fun _ => Iff.rfl⟩
  · obtain ⟨earlier, rfl⟩ := getLast?_eq_some_iff.mp hlast
    rw [performAll, foldl_append]
    exact ⟨FirstOccurrences.nil, fun _ => Iff.rfl⟩

lemma Tracks.run (h : d.Tracks marked delivered) {calls : List Call} (hround : .endRound ∉ calls) :
    ∃ deliveries, d.Delivers calls deliveries ∧
      (d.performAll calls).Tracks (marked ++ marks calls) (delivered ++ deliveries.flatten) := by
  induction calls generalizing d marked delivered with
  | nil =>
    refine ⟨[], .nil, ?_⟩
    rw [marks, flatten_nil, append_nil, append_nil]
    exact h
  | cons c calls ih =>
    rw [mem_cons, not_or] at hround
    cases c with
    | mark index =>
      obtain ⟨deliveries, hdelivers, htracks⟩ := ih (h.mark index) hround.2
      rw [append_assoc] at htracks
      exact ⟨deliveries, hdelivers, htracks⟩
    | takeInto out =>
      obtain ⟨deliveries, hdelivers, htracks⟩ := ih (h.takeInto out) hround.2
      rw [append_assoc] at htracks
      exact ⟨d.pending :: deliveries, .cons rfl hdelivers, htracks⟩
    | endRound => exact absurd rfl hround.1

lemma taken_eq_nil {calls : List Call} (h : ∀ out, .takeInto out ∉ calls) : d.taken calls = [] := by
  induction calls generalizing d with
  | nil => rfl
  | cons c calls ih =>
    have hrest : ∀ out, .takeInto out ∉ calls := fun out hmem => h out (mem_cons_of_mem c hmem)
    cases c with
    | mark index => exact ih hrest
    | takeInto out => exact absurd mem_cons_self (h out)
    | endRound => exact ih hrest

lemma taken_append (d : DirtySet) (calls later : List Call) :
    d.taken (calls ++ later) = d.taken calls ++ (d.performAll calls).taken later := by
  induction calls generalizing d with
  | nil => rfl
  | cons c calls ih =>
    cases c with
    | mark index => exact ih (d.mark index)
    | takeInto out =>
      rw [cons_append, taken, taken, ih, cons_append]
      rfl
    | endRound => exact ih d.endRound

/-- In any history, the takes of a round append the indices marked before the last of them, each
once and in the order of the first marks; and what is marked after a round end is delivered
again. -/
theorem takes_deliver_first_marks :
    (∀ before earlier later out, (before = [] ∨ before.getLast? = some .endRound) →
      .endRound ∉ earlier → (∀ out', .takeInto out' ∉ later) →
      ∃ deliveries,
        (performAll {} before).Delivers (earlier ++ .takeInto out :: later) deliveries ∧
        FirstOccurrences (marks earlier) deliveries.flatten) ∧
    ∀ history index out,
      (performAll {} (history ++ [.endRound])).Delivers [.mark index, .takeInto out] [[index]] := by
  refine ⟨fun before earlier later out hstart hearlier htakes => ?_, fun history index out => ?_⟩
  · obtain ⟨deliveries, hdelivers, htracks⟩ := (tracks_start hstart).run hearlier
    rw [nil_append, nil_append] at htracks
    have hlast := (htracks.takeInto out).firsts
    rw [DirtySet.takeInto, append_nil] at hlast
    refine ⟨deliveries ++ [((performAll {} before).performAll earlier).pending], ?_, ?_⟩
    · unfold Delivers
      rw [taken_append, taken, taken_eq_nil htakes]
      exact rel_append hdelivers (.cons rfl .nil)
    · rw [flatten_append, flatten_singleton]
      exact hlast
  · rw [performAll, foldl_append]
    exact .cons rfl .nil

/-- A connection marked again after it was taken is not delivered again in the round. -/
theorem takes_deliver_first_marks_repeated :
    ∃ deliveries,
      (performAll {} [.mark 5, .endRound]).Delivers
        [.mark 7, .mark 3, .mark 7, .takeInto [], .mark 3, .mark 9, .takeInto [7, 3], .mark 1]
        deliveries ∧
      FirstOccurrences [7, 3, 7, 3, 9] deliveries.flatten :=
  takes_deliver_first_marks.1 [.mark 5, .endRound]
    [.mark 7, .mark 3, .mark 7, .takeInto [], .mark 3, .mark 9] [.mark 1] [7, 3] (.inr rfl)
    (by decide) (fun _ => by simp)

end MasqueServer.DirtySet
