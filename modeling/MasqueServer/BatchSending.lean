import MasqueServer.PacketBatch

/-!
# Sending batches

The kernel is given messages in order. A call accepts some of the leading messages, or fails having
accepted none.
-/
namespace MasqueServer

open List Option

open Segmentation

inductive KernelOutcome where
  /-- So many messages of a batch, or bytes of a datagram, were accepted. -/
  | accepted (n : ℕ)
  /-- One of the errors by which the kernel refuses segmentation. -/
  | gsoError
  | failed
  | wouldBlock
  deriving DecidableEq

/-- A message as it is passed to the kernel. -/
structure MessageHeader where
  data : Bytes
  receiver : SocketAddr
  control : Option ℕ
  deriving DecidableEq

def MessageHeader.datagrams (h : MessageHeader) : List (Bytes × SocketAddr) :=
  match h.control with
  | none => [(h.data, h.receiver)]
  | some size => (cut size h.data).map fun packet => (packet, h.receiver)

inductive SendStatus where
  | ok
  | error
  | panicked
  | waiting
  deriving DecidableEq

/-- What became of a batch: the result, the offload flag, the datagrams that the kernel took, and
every message that was passed to `sendmmsg`. -/
structure SendReturn where
  status : SendStatus
  udpGso : Bool
  handed : List (Bytes × SocketAddr) := []
  passed : List (SendMessage × MessageHeader) := []
  deriving DecidableEq

namespace SendMessage

def header (m : SendMessage) (enableGso : Bool) : MessageHeader where
  data := m.data
  receiver := m.info.receiver
  control := if enableGso && 1 < m.segments then some (m.segmentSize % 2 ^ 16) else none

def datagrams (m : SendMessage) : List (Bytes × SocketAddr) :=
  if 1 < m.segments then (cut m.segmentSize m.data).map fun packet => (packet, m.info.receiver)
  else [(m.data, m.info.receiver)]

end SendMessage

def sendTo (receiver : SocketAddr) :
    List KernelOutcome → List Bytes →
      SendStatus × List KernelOutcome × List (Bytes × SocketAddr)
  | outcomes, [] => (.ok, outcomes, [])
  | [], _ :: _ => (.waiting, [], [])
  | .wouldBlock :: outcomes, packets => sendTo receiver outcomes packets
  | .accepted written :: outcomes, packet :: packets =>
    if written = packet.length then
      let (status, outcomes, handed) := sendTo receiver outcomes packets
      (status, outcomes, (packet, receiver) :: handed)
    else (.error, outcomes, [(packet, receiver)])
  | .gsoError :: outcomes, _ => (.error, outcomes, [])
  | .failed :: outcomes, _ => (.error, outcomes, [])

/-- The fallback without segmentation. There are no pieces of size zero to cut into. -/
def sendIndividually :
    List SendMessage → List KernelOutcome → SendStatus × List (Bytes × SocketAddr)
  | [], _ => (.ok, [])
  | m :: messages, outcomes =>
    if m.segmentSize = 0 then (.panicked, [])
    else match sendTo m.info.receiver outcomes (cut m.segmentSize m.data) with
      | (.ok, outcomes, handed) =>
        let (status, rest) := sendIndividually messages outcomes
        (status, handed ++ rest)
      | (status, _, handed) => (status, handed)

def sendMessages (udpGso : Bool) : List KernelOutcome → List SendMessage → SendReturn
  | _, [] => { status := .ok, udpGso }
  | [], _ :: _ => { status := .waiting, udpGso }
  | outcome :: outcomes, messages =>
    let passed := (messages.take maxBatchPackets).map fun m => (m, m.header udpGso)
    match outcome with
    | .accepted n =>
      let count := min n passed.length
      if count = 0 then { status := .error, udpGso, passed }
      else
        let rest := sendMessages udpGso outcomes (messages.drop count)
        { rest with
          handed := ((passed.take count).flatMap fun m => m.2.datagrams) ++ rest.handed
          passed := passed ++ rest.passed }
    | .wouldBlock =>
      let rest := sendMessages udpGso outcomes messages
      { rest with passed := passed ++ rest.passed }
    | .gsoError =>
      if udpGso then
        let (status, handed) := sendIndividually messages outcomes
        { status, udpGso := false, handed, passed }
      else { status := .error, udpGso, passed }
    | .failed => { status := .error, udpGso, passed }

def SendPacketBatch.sendBatch (b : SendPacketBatch) (udpGso : Bool)
    (outcomes : List KernelOutcome) : SendReturn :=
  sendMessages udpGso outcomes b.active

/-! ### Messages of any packets -/

/-- A message that was built by pushes: one packet of the recorded size, or an aggregate whose
segment size is not zero and fits the kernel's limits. -/
structure SendMessage.Sized (m : SendMessage) : Prop where
  segments_pos : 1 ≤ m.segments
  single : ¬1 < m.segments → m.segmentSize = m.data.length
  aggregate : 1 < m.segments →
    0 < m.segmentSize ∧ m.segmentSize ≤ m.data.length ∧ m.data.length ≤ udpMaxGsoPayload

namespace SendPacketBatch

variable {b b' : SendPacketBatch} {p : PacketPush}

lemma sized_push (hused : b.used ≤ b.messages.length) (h : ∀ m ∈ b.active, m.Sized)
    (hpush : b.push p = some b') :
    b'.used ≤ b'.messages.length ∧ ∀ m ∈ b'.active, m.Sized := by
  obtain ⟨b₁, hb₁, hused₁, -, -, hactive⟩ := push_cases hused p
  rw [hpush, some.injEq] at hb₁
  subst hb₁
  refine ⟨hused₁, fun m hm => ?_⟩
  obtain ⟨before, last, hbefore, happend, -, hafter⟩ | hafter := hactive
  · have hlast := h last (by simp [hbefore])
    obtain ⟨hpos, -, -, -, -, hfits⟩ := SendMessage.canAppend_iff.mp happend
    have hsize : last.segmentSize ≤ last.data.length := by
      by_cases hone : 1 < last.segments
      · exact (hlast.aggregate hone).2.1
      · exact (hlast.single hone).le
    rw [hafter, mem_append, mem_singleton] at hm
    obtain hm | rfl := hm
    · exact h m (by simp [hbefore, hm])
    · have hlimit := hfits.trans (min_le_right _ _)
      refine ⟨Nat.le_add_left 1 last.segments, fun hone => ?_, fun _ => ⟨hpos, ?_, ?_⟩⟩
      · have hsegments := hlast.segments_pos
        exact absurd (Nat.lt_succ_of_le hsegments) hone
      · simp only [SendMessage.append, length_append]
        omega
      · simpa only [SendMessage.append, length_append] using hlimit
  · rw [hafter, mem_append, mem_singleton] at hm
    obtain hm | rfl := hm
    · exact h m hm
    · exact ⟨le_rfl, fun _ => rfl, fun hone => absurd hone (lt_irrefl 1)⟩

lemma sized_pushAll {pushes : List PacketPush} (hused : b.used ≤ b.messages.length)
    (h : ∀ m ∈ b.active, m.Sized) (hpush : b.pushAll pushes = some b') :
    ∀ m ∈ b'.active, m.Sized := by
  induction pushes generalizing b with
  | nil =>
    obtain rfl := some.inj hpush
    exact h
  | cons p pushes ih =>
    obtain ⟨b₁, hb₁, hrest⟩ := bind_eq_some_iff.mp hpush
    obtain ⟨hused₁, h₁⟩ := sized_push hused h hb₁
    exact ih hused₁ h₁ hrest

end SendPacketBatch

namespace SendMessage.Sized

variable {m : SendMessage}

lemma header (h : m.Sized) {udpGso : Bool} (hgso : 1 < m.segments → udpGso = true) :
    (1 < m.segments → (m.header udpGso).control = some m.segmentSize) ∧
      (m.header udpGso).datagrams = m.datagrams := by
  by_cases hone : 1 < m.segments
  · obtain ⟨-, hsize, hlength⟩ := h.aggregate hone
    have hmod : m.segmentSize % 2 ^ 16 = m.segmentSize := by
      refine Nat.mod_eq_of_lt ?_
      unfold udpMaxGsoPayload at hlength
      omega
    have hheader : m.header udpGso = ⟨m.data, m.info.receiver, some m.segmentSize⟩ := by
      simp only [SendMessage.header, hgso hone, hone, hmod, decide_true, Bool.and_self, if_true]
    simp [hheader, MessageHeader.datagrams, SendMessage.datagrams, hone]
  · simp [SendMessage.header, MessageHeader.datagrams, SendMessage.datagrams, hone]

lemma cut_eq (h : m.Sized) (hsize : m.segmentSize ≠ 0) :
    (cut m.segmentSize m.data).map (fun packet => (packet, m.info.receiver)) = m.datagrams := by
  unfold SendMessage.datagrams
  by_cases hone : 1 < m.segments
  · rw [if_pos hone]
  · rw [if_neg hone, h.single hone, cut_of_length_le ?_ le_rfl, map_singleton]
    rintro hnil
    rw [h.single hone, hnil] at hsize
    exact hsize rfl

end SendMessage.Sized

/-! ### Sends -/

def HandsOver (status : SendStatus) (handed whole : List (Bytes × SocketAddr)) : Prop :=
  handed <+: whole ∧ (status = .ok → handed = whole)

lemma handsOver_none {status : SendStatus} (h : status ≠ .ok)
    (whole : List (Bytes × SocketAddr)) : HandsOver status [] whole :=
  ⟨ nil_prefix, fun hok => absurd hok h⟩

lemma HandsOver.append {status : SendStatus} {handed whole : List (Bytes × SocketAddr)}
    (h : HandsOver status handed whole) (before : List (Bytes × SocketAddr)) :
    HandsOver status (before ++ handed) (before ++ whole) :=
  ⟨(prefix_append_right_inj before).mpr h.1, fun hok => by rw [h.2 hok]⟩

lemma sendTo_handsOver (receiver : SocketAddr) (outcomes : List KernelOutcome)
    (packets : List Bytes) :
    HandsOver (sendTo receiver outcomes packets).1 (sendTo receiver outcomes packets).2.2
      (packets.map fun packet => (packet, receiver)) := by
  induction outcomes generalizing packets with
  | nil =>
    cases packets with
    | nil => exact ⟨ nil_prefix, fun _ => rfl⟩
    | cons packet packets => exact handsOver_none (by simp [sendTo]) _
  | cons outcome outcomes ih =>
    cases packets with
    | nil => cases outcome <;> exact ⟨ nil_prefix, fun _ => rfl⟩
    | cons packet packets =>
      cases outcome with
      | accepted written =>
        unfold sendTo
        by_cases hwhole : written = packet.length
        · simp only [if_pos hwhole]
          exact (ih packets).append [(packet, receiver)]
        · simp only [if_neg hwhole]
          exact ⟨⟨packets.map fun packet => (packet, receiver), rfl⟩, by simp⟩
      | gsoError => exact handsOver_none (by simp [sendTo]) _
      | failed => exact handsOver_none (by simp [sendTo]) _
      | wouldBlock => exact ih (packet :: packets)

lemma sendIndividually_handsOver {messages : List SendMessage} (h : ∀ m ∈ messages, m.Sized)
    (outcomes : List KernelOutcome) :
    HandsOver (sendIndividually messages outcomes).1 (sendIndividually messages outcomes).2
      (messages.flatMap SendMessage.datagrams) := by
  induction messages generalizing outcomes with
  | nil => exact ⟨ nil_prefix, fun _ => rfl⟩
  | cons m messages ih =>
    unfold sendIndividually
    by_cases hzero : m.segmentSize = 0
    · simp only [if_pos hzero]
      exact handsOver_none (by simp) _
    · simp only [if_neg hzero]
      have hpackets := sendTo_handsOver m.info.receiver outcomes (cut m.segmentSize m.data)
      rw [(h m mem_cons_self).cut_eq hzero] at hpackets
      generalize sendTo m.info.receiver outcomes (cut m.segmentSize m.data) = sent at hpackets ⊢
      obtain ⟨status, outcomes', handed⟩ := sent
      rw [flatMap_cons]
      cases status with
      | ok =>
        have hrest := ih (fun m' hm' => h m' (mem_cons_of_mem m hm')) outcomes'
        rw [← hpackets.2 rfl]
        exact hrest.append handed
      | error => exact ⟨hpackets.1.trans (prefix_append _ _), by simp⟩
      | panicked => exact ⟨hpackets.1.trans (prefix_append _ _), by simp⟩
      | waiting => exact ⟨hpackets.1.trans (prefix_append _ _), by simp⟩

lemma datagrams_passed {udpGso : Bool} {messages : List SendMessage}
    (h : ∀ m ∈ messages, m.Sized ∧ (1 < m.segments → udpGso = true)) :
    ((messages.map fun m => (m, m.header udpGso)).flatMap fun m => m.2.datagrams) =
      messages.flatMap SendMessage.datagrams := by
  rw [flatMap_map]
  exact flatMap_congr fun m hm => ((h m hm).1.header (h m hm).2).2

lemma sendMessages_spec {udpGso : Bool} (outcomes : List KernelOutcome)
    {messages : List SendMessage}
    (h : ∀ m ∈ messages, m.Sized ∧ (1 < m.segments → udpGso = true)) :
    HandsOver (sendMessages udpGso outcomes messages).status
        (sendMessages udpGso outcomes messages).handed
        (messages.flatMap SendMessage.datagrams) ∧
      ∀ m ∈ (sendMessages udpGso outcomes messages).passed,
        1 < m.1.segments → m.2.control = some m.1.segmentSize := by
  have hpassed : ∀ {messages : List SendMessage},
      (∀ m ∈ messages, m.Sized ∧ (1 < m.segments → udpGso = true)) →
      ∀ m ∈ (messages.take maxBatchPackets).map fun m => (m, m.header udpGso),
        1 < m.1.segments → m.2.control = some m.1.segmentSize := by
    intro messages h m hm hone
    obtain ⟨m', hm', rfl⟩ := List.mem_map.mp hm
    have hsized := h m' (mem_of_mem_take hm')
    exact (hsized.1.header hsized.2).1 hone
  induction outcomes generalizing messages with
  | nil =>
    cases messages with
    | nil => exact ⟨⟨ nil_prefix, fun _ => rfl⟩, by simp [sendMessages]⟩
    | cons m messages => exact ⟨handsOver_none (by simp [sendMessages]) _, by simp [sendMessages]⟩
  | cons outcome outcomes ih =>
    obtain rfl | hne := eq_or_ne messages []
    · exact ⟨⟨ nil_prefix, fun _ => rfl⟩, by simp [sendMessages]⟩
    · obtain ⟨first, others, rfl⟩ := exists_cons_of_ne_nil hne
      cases outcome with
      | accepted n =>
        simp only [sendMessages]
        generalize first :: others = messages at h ⊢
        by_cases hzero : min n ((messages.take maxBatchPackets).map fun m =>
            (m, m.header udpGso)).length = 0
        · simp only [if_pos hzero]
          exact ⟨handsOver_none (by simp) _, hpassed h⟩
        · simp only [if_neg hzero]
          generalize hcount : min n ((messages.take maxBatchPackets).map fun m =>
            (m, m.header udpGso)).length = count
          have hle : count ≤ maxBatchPackets := by
            rw [← hcount, length_map, length_take]
            omega
          have hdrop : ∀ m ∈ messages.drop count, m.Sized ∧ (1 < m.segments → udpGso = true) :=
            fun m hm => h m (mem_of_mem_drop hm)
          obtain ⟨hrest, hrestPassed⟩ := ih hdrop
          refine ⟨?_, fun m hm => ?_⟩
          · have hsplit : messages.flatMap SendMessage.datagrams =
                (messages.take count).flatMap SendMessage.datagrams ++
                  (messages.drop count).flatMap SendMessage.datagrams := by
              rw [← flatMap_append, take_append_drop]
            rw [← map_take, take_take, min_eq_left hle,
              datagrams_passed fun m hm => h m (mem_of_mem_take hm), hsplit]
            exact hrest.append _
          · obtain hm | hm := mem_append.mp hm
            · exact hpassed h m hm
            · exact hrestPassed m hm
      | gsoError =>
        simp only [sendMessages]
        generalize first :: others = messages at h ⊢
        by_cases hgso : udpGso = true
        · simp only [if_pos hgso]
          exact ⟨sendIndividually_handsOver (fun m hm => (h m hm).1) outcomes, hpassed h⟩
        · simp only [if_neg hgso]
          exact ⟨handsOver_none (by simp) _, hpassed h⟩
      | failed => exact ⟨handsOver_none (by simp [sendMessages]) _, hpassed h⟩
      | wouldBlock =>
        obtain ⟨hrest, hrestPassed⟩ := ih h
        refine ⟨hrest, fun m hm => ?_⟩
        obtain hm | hm := mem_append.mp hm
        · exact hpassed h m hm
        · exact hrestPassed m hm

end MasqueServer
