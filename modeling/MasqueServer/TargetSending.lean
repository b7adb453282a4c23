import MasqueServer.BatchSending

/-!
# Sending to the target of a tunnel

The datagrams for a target are staged, in buffers that are reused, and written in one batch over a
connected socket. Runs of equal datagrams, with a shorter last one, become one message whose buffers
the kernel cuts into the datagrams again.
-/
namespace MasqueServer

open List Option

open Segmentation

def targetBatchSize : ℕ := 16

def udpMinGsoSegmentSize : ℕ := 512

/-- A run of staged datagrams that is one message. -/
structure SendGroup where
  first : ℕ
  segments : ℕ
  segmentSize : ℕ

def extendGroup (segmentSize : ℕ) : ℕ → ℕ → List Bytes → ℕ
  | segments, _, [] => segments
  | segments, total, next :: rest =>
    if targetBatchSize ≤ segments then segments
    else if next.length = 0 ∨ segmentSize < next.length ∨
      udpMaxGsoPayload < total + next.length then
      segments
    else if next.length < segmentSize then segments + 1
    else extendGroup segmentSize (segments + 1) (total + next.length) rest

def groupSegments (enableGso : Bool) (payload : Bytes) (rest : List Bytes) : ℕ :=
  if enableGso && udpMinGsoSegmentSize ≤ payload.length && payload.length < 2 ^ 16 then
    extendGroup payload.length 1 payload.length rest
  else 1

def planSend (enableGso : Bool) : ℕ → ℕ → List Bytes → List SendGroup
  | 0, _, _ => []
  | _, _, [] => []
  | rounds + 1, first, payload :: rest =>
    let segments := groupSegments enableGso payload rest
    ⟨first, segments, payload.length⟩ ::
      planSend enableGso rounds (first + segments) ((payload :: rest).drop segments)

namespace SendGroup

def buffers (g : SendGroup) (payloads : List Bytes) : List Bytes :=
  (payloads.drop g.first).take g.segments

def datagrams (g : SendGroup) (payloads : List Bytes) : List Bytes :=
  if 1 < g.segments then cut (g.segmentSize % 2 ^ 16) (g.buffers payloads).flatten
  else [(g.buffers payloads).flatten]

end SendGroup

/-- The result of a batched write: the number of datagrams accepted, or an error, and the
datagrams that the kernel took. -/
structure TargetSend where
  result : Except KernelOutcome ℕ
  handed : List Bytes := []

def sendMmsgPlain (payloads : List Bytes) (outcome : KernelOutcome) : TargetSend :=
  let count := min payloads.length targetBatchSize
  match outcome with
  | .accepted n => ⟨.ok (min n count), payloads.take (min n count)⟩
  | error => ⟨.error error, []⟩

def sendMmsg (payloads : List Bytes) (enableGso : Bool) (outcome : KernelOutcome) :
    TargetSend :=
  let payloads := payloads.take targetBatchSize
  match payloads with
  | [] => ⟨.ok 0, []⟩
  | first :: _ =>
    if !enableGso || first.length < udpMinGsoSegmentSize then sendMmsgPlain payloads outcome
    else
      let groups := planSend true payloads.length 0 payloads
      match outcome with
      | .accepted n =>
        let sent := groups.take (min n groups.length)
        ⟨.ok (sent.map SendGroup.segments).sum, sent.flatMap fun g => g.datagrams payloads⟩
      | error => ⟨.error error, []⟩

structure UdpTunnel where
  sendStage : List Bytes
  staged : ℕ
  udpGso : Bool

namespace UdpTunnel

def stageToTarget (t : UdpTunnel) (payload : Bytes) : Option (UdpTunnel × Bool) := do
  let sendStage := if t.staged = t.sendStage.length then t.sendStage ++ [[]] else t.sendStage
  let _ ← sendStage[t.staged]?
  return ({ t with sendStage := sendStage.set t.staged payload, staged := t.staged + 1 },
    decide (targetBatchSize ≤ t.staged + 1))

def stageAll (t : UdpTunnel) (payloads : List Bytes) : Option UdpTunnel :=
  payloads.foldlM (fun t payload => (t.stageToTarget payload).map Prod.fst) t

def flushToTarget (t : UdpTunnel) (outcome retry : KernelOutcome) : UdpTunnel × TargetSend :=
  if t.staged = 0 then (t, ⟨.ok 0, []⟩)
  else
    let payloads := t.sendStage.take t.staged
    let send := sendMmsg payloads t.udpGso outcome
    match send.result with
    | .error .gsoError =>
      if t.udpGso then
        ({ t with staged := 0, udpGso := false }, sendMmsg payloads false retry)
      else ({ t with staged := 0 }, send)
    | _ => ({ t with staged := 0 }, send)

end UdpTunnel

/-! ### Groups -/

lemma le_extendGroup (segmentSize segments total : ℕ) (rest : List Bytes) :
    segments ≤ extendGroup segmentSize segments total rest := by
  induction rest generalizing segments total with
  | nil => exact le_rfl
  | cons next rest ih =>
    unfold extendGroup
    split_ifs
    · exact le_rfl
    · exact le_rfl
    · exact Nat.le_succ segments
    · exact (Nat.le_succ segments).trans (ih _ _)

lemma evenly_extendGroup {segmentSize : ℕ} {payload : Bytes}
    (hpayload : payload.length = segmentSize)
    (hpos : 0 < segmentSize) (segments total : ℕ) (rest : List Bytes) :
    Evenly segmentSize
      (payload :: rest.take (extendGroup segmentSize segments total rest - segments)) := by
  have hfirst : Evenly segmentSize [payload] :=
    ⟨length_pos_iff.mp (hpayload ▸ hpos), hpayload.le⟩
  induction rest generalizing payload segments total with
  | nil => simpa using hfirst
  | cons next rest ih =>
    unfold extendGroup
    by_cases hfull : targetBatchSize ≤ segments
    · simpa [if_pos hfull] using hfirst
    · rw [if_neg hfull]
      by_cases hstop : next.length = 0 ∨ segmentSize < next.length ∨
          udpMaxGsoPayload < total + next.length
      · rw [if_pos hstop, Nat.sub_self, take_zero]
        exact hfirst
      · rw [if_neg hstop]
        rw [not_or, not_or, not_lt] at hstop
        have hnext : next ≠ [] := fun hnil => hstop.1 (by rw [hnil, length_nil])
        by_cases hshort : next.length < segmentSize
        · rw [if_pos hshort, Nat.add_sub_cancel_left]
          exact ⟨hpayload, hnext, hstop.2.1⟩
        · rw [if_neg hshort]
          have hsame : next.length = segmentSize := le_antisymm hstop.2.1 (not_lt.mp hshort)
          have hmore := le_extendGroup segmentSize (segments + 1) (total + next.length) rest
          obtain ⟨k, hk⟩ := Nat.exists_eq_add_of_le hmore
          have hlength : extendGroup segmentSize (segments + 1) (total + next.length) rest -
              segments = k + 1 := by omega
          have hrest := ih hsame (segments + 1) (total + next.length) ⟨hnext, hsame.le⟩
          rw [hk, Nat.add_sub_cancel_left] at hrest
          rw [hlength, take_succ_cons]
          exact ⟨hpayload, hrest⟩

lemma one_le_groupSegments (enableGso : Bool) (payload : Bytes) (rest : List Bytes) :
    1 ≤ groupSegments enableGso payload rest := by
  unfold groupSegments
  split_ifs
  · exact le_extendGroup payload.length 1 payload.length rest
  · exact le_rfl

lemma datagrams_group (enableGso : Bool) {first : ℕ} {payload : Bytes}
    {payloads rest : List Bytes} (hfirst : payloads.drop first = payload :: rest) :
    SendGroup.datagrams ⟨first, groupSegments enableGso payload rest, payload.length⟩ payloads =
      (payload :: rest).take (groupSegments enableGso payload rest) := by
  simp only [SendGroup.datagrams, SendGroup.buffers, hfirst]
  obtain ⟨k, hk⟩ := Nat.exists_eq_add_of_le (one_le_groupSegments enableGso payload rest)
  rw [hk, Nat.add_comm 1 k, take_succ_cons]
  by_cases hmany : 1 < k + 1
  · rw [if_pos hmany]
    have hgroup : groupSegments enableGso payload rest ≠ 1 := by omega
    unfold groupSegments at hgroup hk
    split_ifs at hgroup hk with hgso
    · simp only [Bool.and_eq_true, decide_eq_true_eq] at hgso
      have hpos : 0 < payload.length := by
        have hmin := hgso.1.2
        unfold udpMinGsoSegmentSize at hmin
        omega
      have hevenly := evenly_extendGroup rfl hpos 1 payload.length rest
      rw [hk, Nat.add_sub_cancel_left] at hevenly
      rw [Nat.mod_eq_of_lt hgso.2, cut_flatten hpos hevenly]
    · exact absurd rfl hgroup
  · have hzero : k = 0 := by omega
    rw [if_neg hmany, hzero, take_zero, flatten_singleton]

lemma planSend_prefix (enableGso : Bool) {payloads rest : List Bytes} {rounds first : ℕ}
    (hrest : payloads.drop first = rest) (k : ℕ) :
    (((planSend enableGso rounds first rest).take k).flatMap fun g => g.datagrams payloads) <+:
      rest := by
  induction rounds generalizing first rest k with
  | zero => simp [planSend]
  | succ rounds ih =>
    cases rest with
    | nil => simp [planSend]
    | cons payload rest =>
      cases k with
      | zero => simp
      | succ k =>
        have hnext : payloads.drop (first + groupSegments enableGso payload rest) =
            (payload :: rest).drop (groupSegments enableGso payload rest) := by
          rw [← drop_drop, hrest]
        have hgroup := datagrams_group enableGso hrest
        rw [planSend, take_succ_cons, flatMap_cons, hgroup]
        have happend := (prefix_append_right_inj
          ((payload :: rest).take (groupSegments enableGso payload rest))).mpr (ih hnext k)
        rwa [take_append_drop] at happend

lemma sendMmsg_prefix (payloads : List Bytes) (enableGso : Bool) (outcome : KernelOutcome) :
    (sendMmsg payloads enableGso outcome).handed <+: payloads := by
  have htake := take_prefix targetBatchSize payloads
  unfold sendMmsg
  cases hpayloads : payloads.take targetBatchSize with
  | nil => exact nil_prefix
  | cons first rest =>
    rw [hpayloads] at htake
    refine List.IsPrefix.trans ?_ htake
    simp only
    split_ifs
    · cases outcome with
      | accepted n => exact take_prefix _ _
      | _ => exact nil_prefix
    · cases outcome with
      | accepted n => exact planSend_prefix true drop_zero _
      | _ => exact nil_prefix

namespace UdpTunnel

variable {t : UdpTunnel}

lemma flushToTarget_prefix (t : UdpTunnel) (outcome retry : KernelOutcome) :
    (t.flushToTarget outcome retry).2.handed <+: t.sendStage.take t.staged := by
  unfold flushToTarget
  split_ifs with hnone hgso
  · exact nil_prefix
  · simp only
    split
    · exact sendMmsg_prefix _ _ _
    · exact sendMmsg_prefix _ _ _
  · simp only
    split <;> exact sendMmsg_prefix _ _ _

lemma flushToTarget_staged (t : UdpTunnel) (outcome retry : KernelOutcome) :
    (t.flushToTarget outcome retry).1.staged = 0 := by
  unfold flushToTarget
  split_ifs with hnone hgso
  · exact hnone
  · simp only
    split <;> rfl
  · simp only
    split <;> rfl

lemma flushToTarget_of_unstaged {t : UdpTunnel} (h : t.staged = 0) (outcome retry : KernelOutcome) :
    t.flushToTarget outcome retry = (t, ⟨.ok 0, []⟩) := if_pos h

lemma stageToTarget_spec (hstaged : t.staged ≤ t.sendStage.length) (payload : Bytes) :
    ∃ t', (t.stageToTarget payload).map Prod.fst = some t' ∧ t'.staged ≤ t'.sendStage.length ∧
      t'.sendStage.take t'.staged = t.sendStage.take t.staged ++ [payload] := by
  obtain ⟨sendStage, hsendStage, hlt, htake⟩ := SendPacketBatch.exists_grown hstaged []
  simp only [stageToTarget, hsendStage, getElem?_eq_getElem hlt, bind_eq_bind,
    bind_some, Option.pure_def, map_some]
  refine ⟨_, rfl, by simpa using hlt, ?_⟩
  rw [SendPacketBatch.take_succ_set hlt, htake]

lemma stageAll_spec (hstaged : t.staged ≤ t.sendStage.length) (payloads : List Bytes) :
    ∃ t', t.stageAll payloads = some t' ∧
      t'.sendStage.take t'.staged = t.sendStage.take t.staged ++ payloads := by
  induction payloads generalizing t with
  | nil => exact ⟨t, rfl, (append_nil _).symm⟩
  | cons payload payloads ih =>
    obtain ⟨t₁, ht₁, hstaged₁, htake₁⟩ := stageToTarget_spec hstaged payload
    obtain ⟨t', ht', htake'⟩ := ih hstaged₁
    refine ⟨t', ?_, ?_⟩
    · rw [stageAll, foldlM_cons, ht₁]
      exact ht'
    · rw [htake', htake₁, append_assoc, singleton_append]

end UdpTunnel

lemma SendMessage.Sized.pieces_eq {m : SendMessage} (h : m.Sized) (hshaped : m.Shaped) :
    m.datagrams = m.pieces.map fun piece => (piece.1, piece.2.receiver) := by
  rw [← h.cut_eq hshaped.size_pos.ne', SendMessage.pieces, List.map_map]
  rfl

lemma datagrams_of_nonempty {b b' : SendPacketBatch} {pushes : List PacketPush}
    (hpush : b.clear.pushAll pushes = some b') (hsized : ∀ m ∈ b'.active, m.Sized)
    (hpackets : ∀ p ∈ pushes, p.packet ≠ []) :
    b'.active.flatMap SendMessage.datagrams = pushes.map fun p => (p.packet, p.info.receiver) := by
  obtain ⟨b₁, hb₁, hcontains⟩ := b.contains_clear.pushAll hpackets
  rw [hpush, some.injEq] at hb₁
  subst hb₁
  have hpieces : b'.active.flatMap SendMessage.datagrams =
      (b'.active.flatMap SendMessage.pieces).map fun piece => (piece.1, piece.2.receiver) := by
    rw [map_flatMap]
    exact flatMap_congr fun m hm => (hsized m hm).pieces_eq (hcontains.shaped m hm)
  rw [hpieces, hcontains.pieces, nil_append, List.map_map]
  rfl

/-- A batch that was filled by any pushes is sent while the socket's offload flag is set, or holds
no aggregate. Whatever the kernel answers, what it was handed begins the batch's packets in their
order; if the send succeeds it was handed all of them, each once, and these are the pushed
packets if none was empty; and every aggregate was passed with its segment size. A flush of
staged datagrams hands over some of the first of them, each once, and leaves none staged, so that
another flush hands over nothing. -/
theorem batchSending_once {b b' : SendPacketBatch} {pushes : List PacketPush} {udpGso : Bool}
    (hpush : b.clear.pushAll pushes = some b')
    (hgso : (∃ m ∈ b'.active, 1 < m.segments) → udpGso = true) :
    (∀ outcomes,
      (b'.sendBatch udpGso outcomes).handed <+: b'.active.flatMap SendMessage.datagrams ∧
      ((b'.sendBatch udpGso outcomes).status = .ok →
        (b'.sendBatch udpGso outcomes).handed = b'.active.flatMap SendMessage.datagrams ∧
        ((∀ p ∈ pushes, p.packet ≠ []) →
          (b'.sendBatch udpGso outcomes).handed =
            pushes.map fun p => (p.packet, p.info.receiver))) ∧
      ∀ m ∈ (b'.sendBatch udpGso outcomes).passed,
        1 < m.1.segments → m.2.control = some m.1.segmentSize) ∧
    ∀ sendStage targetGso payloads outcome retry,
      ∃ t, UdpTunnel.stageAll ⟨sendStage, 0, targetGso⟩ payloads = some t ∧
        t.sendStage.take t.staged = payloads ∧
        (t.flushToTarget outcome retry).2.handed <+: payloads ∧
        (t.flushToTarget outcome retry).1.staged = 0 ∧
        ∀ outcome' retry',
          ((t.flushToTarget outcome retry).1.flushToTarget outcome' retry').2.handed = [] := by
  have hsized := SendPacketBatch.sized_pushAll (Nat.zero_le _) (by simp [SendPacketBatch.clear,
    SendPacketBatch.active]) hpush
  refine ⟨fun outcomes => ?_, fun sendStage targetGso payloads outcome retry => ?_⟩
  · obtain ⟨hhanded, hpassed⟩ := sendMessages_spec outcomes fun m hm =>
      ⟨hsized m hm, fun hone => hgso ⟨m, hm, hone⟩⟩
    refine ⟨hhanded.1, fun hok => ⟨hhanded.2 hok, fun hpackets => ?_⟩, hpassed⟩
    rw [← datagrams_of_nonempty hpush hsized hpackets]
    exact hhanded.2 hok
  · obtain ⟨t, ht, htake⟩ := UdpTunnel.stageAll_spec
      (t := ⟨sendStage, 0, targetGso⟩) (Nat.zero_le _) payloads
    rw [take_zero, nil_append] at htake
    have hnone := t.flushToTarget_staged outcome retry
    refine ⟨t, ht, htake, ?_, hnone, fun outcome' retry' => ?_⟩
    · rw [← htake]
      exact t.flushToTarget_prefix outcome retry
    · rw [UdpTunnel.flushToTarget_of_unstaged hnone]

/-- One aggregate of two packets and a single one: the kernel takes the aggregate, then refuses
segmentation, and the last packet goes out by itself. Of two datagrams for a target the kernel
takes one. -/
theorem batchSending_once_fallback :
    ∃ b', SendPacketBatch.pushAll (SendPacketBatch.clear {})
        [⟨[1, 2], ⟨.v4 1 1, .v4 2 2⟩, true, 100⟩, ⟨[3], ⟨.v4 1 1, .v4 2 2⟩, true, 100⟩,
          ⟨[4], ⟨.v4 1 1, .v4 2 2⟩, true, 100⟩] = some b' ∧
      (b'.sendBatch true [.accepted 1, .gsoError, .accepted 1]).status = .ok ∧
      (b'.sendBatch true [.accepted 1, .gsoError, .accepted 1]).handed =
        [([1, 2], .v4 2 2), ([3], .v4 2 2), ([4], .v4 2 2)] ∧
      ∃ t, UdpTunnel.stageAll ⟨[[9]], 0, false⟩ [[5], [6]] = some t ∧
        (t.flushToTarget (.accepted 1) .gsoError).2.handed = [[5]] ∧
        ((t.flushToTarget (.accepted 1) .gsoError).1.flushToTarget (.accepted 1)
          .gsoError).2.handed = [] := by
  have hbatch : SendPacketBatch.pushAll (SendPacketBatch.clear {})
      [⟨[1, 2], ⟨.v4 1 1, .v4 2 2⟩, true, 100⟩, ⟨[3], ⟨.v4 1 1, .v4 2 2⟩, true, 100⟩,
        ⟨[4], ⟨.v4 1 1, .v4 2 2⟩, true, 100⟩] =
      some ⟨[⟨[1, 2, 3], 2, 2, ⟨.v4 1 1, .v4 2 2⟩⟩, ⟨[4], 1, 1, ⟨.v4 1 1, .v4 2 2⟩⟩], 2, 3, 4⟩ :=
        rfl
  obtain ⟨hbatches, hflushes⟩ := batchSending_once hbatch fun _ => rfl
  obtain ⟨t, ht, -, -, -, hagain⟩ := hflushes [[9]] false [[5], [6]] (.accepted 1) .gsoError
  refine ⟨_, hbatch, rfl, ((hbatches _).2.1 rfl).2 (by decide), t, ht, ?_, hagain _ _⟩
  rw [← some.inj ht]
  rfl

end MasqueServer
