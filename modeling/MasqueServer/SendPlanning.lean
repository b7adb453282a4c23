import MasqueServer.TargetSending

/-!
# Planning the messages for a target

The groups that are planned for a batch follow each other without gap or overlap. A group of several
datagrams can be cut again into exactly these datagrams, because all but the last have one size and
none is empty.
-/
namespace MasqueServer

open List

open Segmentation

def planBatch (payloads : List Bytes) (enableGso : Bool) : List SendGroup :=
  planSend enableGso (payloads.take targetBatchSize).length 0 (payloads.take targetBatchSize)

def writtenGroups (payloads : List Bytes) (enableGso : Bool) : List SendGroup :=
  planBatch payloads
    (enableGso && payloads.head?.any fun first => decide (udpMinGsoSegmentSize ≤ first.length))

/-! ### The size of a group -/

lemma extendGroup_le (segmentSize segments total : ℕ) (rest : List Bytes) :
    extendGroup segmentSize segments total rest ≤ segments + rest.length := by
  induction rest generalizing segments total with
  | nil => exact le_rfl
  | cons next rest ih =>
    have hrest := ih (segments + 1) (total + next.length)
    unfold extendGroup
    rw [length_cons]
    split_ifs <;> omega

lemma groupSegments_le (enableGso : Bool) (payload : Bytes) (rest : List Bytes) :
    groupSegments enableGso payload rest ≤ (payload :: rest).length := by
  have hextend := extendGroup_le payload.length 1 payload.length rest
  unfold groupSegments
  rw [length_cons]
  split_ifs <;> omega

lemma extendGroup_total {segmentSize segments total : ℕ} {rest : List Bytes}
    (h : segments < extendGroup segmentSize segments total rest) :
    total + (rest.take (extendGroup segmentSize segments total rest - segments)).flatten.length ≤
      udpMaxGsoPayload := by
  induction rest generalizing segments total with
  | nil => exact absurd h (lt_irrefl segments)
  | cons next rest ih =>
    unfold extendGroup at h ⊢
    by_cases hfull : targetBatchSize ≤ segments
    · rw [if_pos hfull] at h
      omega
    rw [if_neg hfull] at h ⊢
    by_cases hstop : next.length = 0 ∨ segmentSize < next.length ∨
        udpMaxGsoPayload < total + next.length
    · rw [if_pos hstop] at h
      omega
    rw [if_neg hstop] at h ⊢
    have hfits : total + next.length ≤ udpMaxGsoPayload := by omega
    by_cases hshort : next.length < segmentSize
    · rw [if_pos hshort, Nat.add_sub_cancel_left, take_succ_cons, take_zero,
        flatten_singleton]
      exact hfits
    rw [if_neg hshort] at h ⊢
    obtain ⟨k, hk⟩ := Nat.exists_eq_add_of_le
      (le_extendGroup segmentSize (segments + 1) (total + next.length) rest)
    have hlength : extendGroup segmentSize (segments + 1) (total + next.length) rest - segments =
        k + 1 := by omega
    rw [hlength, take_succ_cons, flatten_cons, length_append]
    cases k with
    | zero => simpa using hfits
    | succ k =>
      have hmore : segments + 1 <
          extendGroup segmentSize (segments + 1) (total + next.length) rest := by omega
      have hrest := ih hmore
      rw [hk, Nat.add_sub_cancel_left] at hrest
      omega

/-- What the datagrams of one message have in common. -/
structure Resplits (segmentSize : ℕ) (members : List Bytes) : Prop where
  total : members.flatten.length ≤ udpMaxGsoPayload
  member : ∀ payload ∈ members, payload ≠ [] ∧ payload.length ≤ segmentSize
  full : ∀ payload ∈ members.dropLast, payload.length = segmentSize
  cut_eq : cut segmentSize members.flatten = members

lemma groupSegments_resplits {enableGso : Bool} {payload : Bytes} {rest : List Bytes}
    (h : 1 < groupSegments enableGso payload rest) :
    Resplits payload.length ((payload :: rest).take (groupSegments enableGso payload rest)) := by
  unfold groupSegments at h ⊢
  split_ifs at h ⊢ with hgso
  · simp only [Bool.and_eq_true, decide_eq_true_eq] at hgso
    have hpos : 0 < payload.length := by
      have hmin := hgso.1.2
      unfold udpMinGsoSegmentSize at hmin
      omega
    have htotal := extendGroup_total h
    have hevenly := evenly_extendGroup rfl hpos 1 payload.length rest
    obtain ⟨k, hk⟩ := Nat.exists_eq_add_of_le h.le
    rw [hk, Nat.add_sub_cancel_left] at htotal hevenly
    rw [hk, Nat.add_comm 1 k, take_succ_cons]
    exact ⟨by simpa using htotal, fun _ hmem => hevenly.mem hpos hmem,
      fun _ hmem => hevenly.dropLast hmem, cut_flatten hpos hevenly⟩
  · exact absurd h (lt_irrefl 1)

/-! ### All groups of a batch -/

lemma planSend_covers (enableGso : Bool) {rest : List Bytes} {rounds : ℕ}
    (hrounds : rest.length ≤ rounds) (first : ℕ) :
    ((planSend enableGso rounds first rest).flatMap fun g => List.range' g.first g.segments) =
      List.range' first rest.length := by
  induction rounds generalizing first rest with
  | zero => rw [length_eq_zero_iff.mp (Nat.le_zero.mp hrounds)]; rfl
  | succ rounds ih =>
    cases rest with
    | nil => rfl
    | cons payload rest =>
      have hone := one_le_groupSegments enableGso payload rest
      have hle := groupSegments_le enableGso payload rest
      have hrest : ((payload :: rest).drop (groupSegments enableGso payload rest)).length ≤
        rounds := by
        rw [length_drop]
        omega
      rw [planSend, flatMap_cons, ih hrest, length_drop, range'_append_1,
        Nat.add_sub_cancel' hle]

lemma planSend_group {enableGso : Bool} {payloads rest : List Bytes} {rounds first : ℕ}
    (hrest : payloads.drop first = rest) {g : SendGroup}
    (hg : g ∈ planSend enableGso rounds first rest) :
    ∃ payload tail, payloads.drop g.first = payload :: tail ∧ g.segmentSize = payload.length ∧
      g.segments = groupSegments enableGso payload tail := by
  induction rounds generalizing first rest with
  | zero => cases hg
  | succ rounds ih =>
    cases rest with
    | nil => cases hg
    | cons payload tail =>
      rw [planSend] at hg
      obtain rfl | hg := mem_cons.mp hg
      · exact ⟨payload, tail, hrest, rfl, rfl⟩
      · refine ih ?_ hg
        rw [← drop_drop, hrest]

variable {payloads : List Bytes} {enableGso : Bool} {g : SendGroup}

lemma planBatch_group (hg : g ∈ planBatch payloads enableGso) :
    ∃ payload tail, g.segmentSize = payload.length ∧
      g.segments = groupSegments enableGso payload tail ∧
      g.buffers payloads = (payload :: tail).take g.segments := by
  obtain ⟨payload, tail, hdrop, hsize, hsegments⟩ := planSend_group drop_zero hg
  refine ⟨payload, tail, hsize, hsegments, ?_⟩
  have hle := groupSegments_le enableGso payload tail
  have hlength := congrArg List.length hdrop
  rw [length_drop, length_take] at hlength
  have hwithin : (payloads.take targetBatchSize).drop g.first =
      (payloads.drop g.first).take (targetBatchSize - g.first) := drop_take
  unfold SendGroup.buffers
  rw [← hdrop, hwithin, take_take]
  congr 1
  omega

lemma length_buffers (hg : g ∈ planBatch payloads enableGso) :
    (g.buffers payloads).length = g.segments := by
  obtain ⟨payload, tail, -, hsegments, hbuffers⟩ := planBatch_group hg
  have hle := groupSegments_le enableGso payload tail
  rw [hbuffers, length_take]
  omega

lemma segments_of_not_gso (hg : g ∈ planBatch payloads false) : g.segments = 1 := by
  obtain ⟨payload, tail, -, hsegments, -⟩ := planBatch_group hg
  rw [hsegments]
  rfl

lemma planBatch_covers (payloads : List Bytes) (enableGso : Bool) :
    ((planBatch payloads enableGso).flatMap fun g => List.range' g.first g.segments) =
      List.range (min payloads.length targetBatchSize) := by
  rw [planBatch, planSend_covers enableGso le_rfl, length_take, min_comm, range_eq_range']

lemma length_planBatch_false (payloads : List Bytes) :
    (planBatch payloads false).length = min payloads.length targetBatchSize := by
  have h := congrArg List.length (planBatch_covers payloads false)
  rw [length_flatMap, length_range] at h
  rw [← h]
  have hones : (planBatch payloads false).map (fun g => (List.range' g.first g.segments).length) =
      (planBatch payloads false).map fun _ => 1 := by
    refine map_congr_left fun g hg => ?_
    rw [length_range', segments_of_not_gso hg]
  rw [hones]
  simp

lemma sendMmsg_count (payloads : List Bytes) (enableGso : Bool) (n : ℕ) :
    (sendMmsg payloads enableGso (.accepted n)).result =
      .ok (((writtenGroups payloads enableGso).take n).map SendGroup.segments).sum := by
  unfold sendMmsg writtenGroups
  cases payloads with
  | nil => cases enableGso <;> cases n <;> rfl
  | cons first rest =>
    have htake : (first :: rest).take targetBatchSize = first :: rest.take 15 := rfl
    rw [htake]
    dsimp only [head?_cons, Option.any_some]
    by_cases hplain : (!enableGso || decide (first.length < udpMinGsoSegmentSize)) = true
    · have hoff : (enableGso && decide (udpMinGsoSegmentSize ≤ first.length)) = false := by
        rw [Bool.or_eq_true, Bool.not_eq_true', decide_eq_true_eq] at hplain
        rw [Bool.and_eq_false_iff, decide_eq_false_iff_not]
        exact hplain.imp id not_le.mpr
      rw [if_pos hplain, hoff]
      have hones : ((planBatch (first :: rest) false).take n).map SendGroup.segments =
          ((planBatch (first :: rest) false).take n).map fun _ => 1 :=
        map_congr_left fun g hg => segments_of_not_gso (mem_of_mem_take hg)
      rw [hones, map_const', sum_replicate, length_take, length_planBatch_false,
        smul_eq_mul, Nat.mul_one]
      have hlength : (first :: rest.take 15).length =
        min (first :: rest).length targetBatchSize := by
        rw [← htake, length_take, min_comm]
      simp only [sendMmsgPlain, hlength, min_assoc, min_self]
    · have hon : (enableGso && decide (udpMinGsoSegmentSize ≤ first.length)) = true := by
        rw [Bool.or_eq_true, Bool.not_eq_true', decide_eq_true_eq, not_or, Bool.not_eq_false,
          not_lt] at hplain
        rw [Bool.and_eq_true, decide_eq_true_eq]
        exact hplain
      rw [if_neg hplain, hon]
      have hgroups : planSend true (first :: rest.take 15).length 0 (first :: rest.take 15) =
          planBatch (first :: rest) true := by
        rw [← htake]
        rfl
      rw [hgroups, ← take_eq_take_min]

/-- The groups partition the first positions into consecutive ranges; a group of several
datagrams is within the limit of a message and is cut again into just these datagrams; and a
write counts the datagrams of the groups that were accepted. -/
theorem planSend_partitions (payloads : List Bytes) (enableGso : Bool) :
    ((planBatch payloads enableGso).flatMap fun g => List.range' g.first g.segments) =
        List.range (min payloads.length targetBatchSize) ∧
    (∀ g ∈ planBatch payloads enableGso, 1 ≤ g.segments ∧
      (1 < g.segments → Resplits g.segmentSize (g.buffers payloads))) ∧
    ∀ n, (sendMmsg payloads enableGso (.accepted n)).result =
      .ok (((writtenGroups payloads enableGso).take n).map fun g =>
        (g.buffers payloads).length).sum := by
  refine ⟨planBatch_covers payloads enableGso, fun g hg => ?_, fun n => ?_⟩
  · obtain ⟨payload, tail, hsize, hsegments, hbuffers⟩ := planBatch_group hg
    refine ⟨hsegments ▸ one_le_groupSegments enableGso payload tail, fun hmany => ?_⟩
    rw [hsegments] at hmany
    rw [hbuffers, hsize, hsegments]
    exact groupSegments_resplits hmany
  · have hcounts : ((writtenGroups payloads enableGso).take n).map
      (fun g => (g.buffers payloads).length) =
        ((writtenGroups payloads enableGso).take n).map SendGroup.segments :=
      map_congr_left fun g hg => length_buffers (mem_of_mem_take hg)
    rw [hcounts, sendMmsg_count]

end MasqueServer
