import MasqueServer.RetryTokens
import MasqueServer.Segmentation

/-!
# Batches of outgoing packets

A batch holds messages for the kernel. A message is one packet, or an aggregate of packets from and
to the same addresses: packets of one size, and a shorter last one that closes the message.
-/
namespace MasqueServer

open Segmentation

def maxDatagramSize : ℕ := 65535

def maxBatchPackets : ℕ := 64

def udpMaxGsoPayload : ℕ := 65507

structure SendInfo where
  sender : SocketAddr
  receiver : SocketAddr
  deriving DecidableEq

structure SendMessage where
  data : Bytes
  segmentSize : ℕ
  segments : ℕ
  info : SendInfo
  deriving DecidableEq

namespace SendMessage

def empty : SendMessage := ⟨[], 0, 0, ⟨.v4 0 0, .v4 0 0⟩⟩

def reset (_ : SendMessage) (packet : Bytes) (info : SendInfo) : SendMessage :=
  ⟨packet, packet.length, 1, info⟩

def canAppend (m : SendMessage) (packetLen : ℕ) (info : SendInfo) (aggregateLimit : ℕ) : Bool :=
  0 < m.segmentSize && m.segments < maxBatchPackets && m.info.sender = info.sender &&
    m.info.receiver = info.receiver && m.segmentSize ∣ m.data.length && packetLen ≤ m.segmentSize &&
    m.data.length + packetLen ≤ aggregateLimit

def append (m : SendMessage) (packet : Bytes) : SendMessage :=
  { m with data := m.data ++ packet, segments := m.segments + 1 }

def pieces (m : SendMessage) : List (Bytes × SendInfo) :=
  (cut m.segmentSize m.data).map fun packet => (packet, m.info)

end SendMessage

structure SendPacketBatch where
  messages : List SendMessage := []
  used : ℕ := 0
  packetCount : ℕ := 0
  byteCount : ℕ := 0

/-- A packet, with the offload flag and the limit it is pushed with. -/
structure PacketPush where
  packet : Bytes
  info : SendInfo
  enableGso : Bool
  aggregateLimit : ℕ

namespace SendPacketBatch

variable (b : SendPacketBatch)

def clear : SendPacketBatch :=
  { b with used := 0, packetCount := 0, byteCount := 0 }

def active : List SendMessage := b.messages.take b.used

def pushMessage (packet : Bytes) (info : SendInfo) : Option SendPacketBatch := do
  let messages := if b.used = b.messages.length then b.messages ++ [.empty] else b.messages
  let slot ← messages[b.used]?
  return {
    messages := messages.set b.used (slot.reset packet info)
    used := b.used + 1
    packetCount := b.packetCount + 1
    byteCount := b.byteCount + packet.length }

def push (p : PacketPush) : Option SendPacketBatch :=
  let aggregateLimit := min (max p.aggregateLimit p.packet.length) udpMaxGsoPayload
  if p.enableGso && 0 < b.used then do
    let last ← b.messages[b.used - 1]?
    if last.canAppend p.packet.length p.info aggregateLimit then
      return { b with
        messages := b.messages.set (b.used - 1) (last.append p.packet)
        packetCount := b.packetCount + 1
        byteCount := b.byteCount + p.packet.length }
    else b.pushMessage p.packet p.info
  else b.pushMessage p.packet p.info

def pushAll (pushes : List PacketPush) : Option SendPacketBatch :=
  pushes.foldlM push b

end SendPacketBatch

structure RecvSlot where
  buffer : Bytes
  len : ℕ
  segmentSize : ℕ
  sender : Option SocketAddr

namespace RecvSlot

def packets (slot : RecvSlot) : List (Bytes × SocketAddr) :=
  match slot.sender with
  | none => []
  | some sender =>
    if slot.len = 0 then []
    else
      let segmentSize :=
        if 1 ≤ slot.segmentSize ∧ slot.segmentSize ≤ maxDatagramSize then
          min slot.segmentSize slot.len
        else slot.len
      (cut segmentSize (slot.buffer.take slot.len)).map fun packet => (packet, sender)

end RecvSlot

def forEachPacket (slots : List RecvSlot) (received : ℕ) : List (Bytes × SocketAddr) :=
  (slots.take received).flatMap RecvSlot.packets

namespace SendPacketBatch

variable {b b' : SendPacketBatch} {p : PacketPush}

lemma take_succ_set {α : Type*} {l : List α} {i : ℕ} (h : i < l.length) (x : α) :
    (l.set i x).take (i + 1) = l.take i ++ [x] := by
  rw [List.take_add_one, List.take_set_of_le le_rfl, List.getElem?_set_self h, Option.toList_some]

lemma exists_grown {α : Type*} {l : List α} {used : ℕ} (h : used ≤ l.length) (blank : α) :
    ∃ grown, (if used = l.length then l ++ [blank] else l) = grown ∧ used < grown.length ∧
      grown.take used = l.take used := by
  by_cases heq : used = l.length
  · refine ⟨_, if_pos heq, by simp [heq], ?_⟩
    rw [heq, List.take_left, List.take_length]
  · exact ⟨_, if_neg heq, by omega, rfl⟩

lemma pushMessage_spec (hused : b.used ≤ b.messages.length) (packet : Bytes)
    (info : SendInfo) :
    ∃ b', b.pushMessage packet info = some b' ∧ b'.used ≤ b'.messages.length ∧
      b'.packetCount = b.packetCount + 1 ∧ b'.byteCount = b.byteCount + packet.length ∧
      b'.active = b.active ++ [⟨packet, packet.length, 1, info⟩] := by
  obtain ⟨messages, hmessages, hlt, htake⟩ := exists_grown hused .empty
  simp only [pushMessage, hmessages, List.getElem?_eq_getElem hlt, Option.bind_eq_bind,
    Option.bind_some, Option.pure_def]
  refine ⟨_, rfl, by simpa using hlt, rfl, rfl, ?_⟩
  simp only [active, SendMessage.reset]
  rw [take_succ_set hlt, htake]

lemma push_cases (hused : b.used ≤ b.messages.length) (p : PacketPush) :
    ∃ b', b.push p = some b' ∧ b'.used ≤ b'.messages.length ∧
      b'.packetCount = b.packetCount + 1 ∧ b'.byteCount = b.byteCount + p.packet.length ∧
      ((∃ before last, b.active = before ++ [last] ∧
          last.canAppend p.packet.length p.info
            (min (max p.aggregateLimit p.packet.length) udpMaxGsoPayload) = true ∧
          p.enableGso = true ∧ b'.active = before ++ [last.append p.packet]) ∨
        b'.active = b.active ++ [⟨p.packet, p.packet.length, 1, p.info⟩]) := by
  obtain ⟨b₁, hb₁, hused₁, hcount₁, hbytes₁, hactive₁⟩ := pushMessage_spec hused p.packet p.info
  unfold push
  by_cases hgso : (p.enableGso && decide (0 < b.used)) = true
  · rw [if_pos hgso]
    rw [Bool.and_eq_true, decide_eq_true_eq] at hgso
    have hlt : b.used - 1 < b.messages.length := by omega
    simp only [List.getElem?_eq_getElem hlt, Option.bind_eq_bind, Option.bind_some,
      Option.pure_def]
    by_cases happend : b.messages[b.used - 1].canAppend p.packet.length p.info
        (min (max p.aggregateLimit p.packet.length) udpMaxGsoPayload) = true
    · rw [if_pos happend]
      have hsplit : ∀ m : SendMessage, (b.messages.set (b.used - 1) m).take b.used =
          b.messages.take (b.used - 1) ++ [m] := by
        intro m
        have hsucc := take_succ_set hlt m
        rwa [Nat.sub_add_cancel hgso.2] at hsucc
      refine ⟨_, rfl, by simpa using hused, rfl, rfl, .inl ⟨b.messages.take (b.used - 1), _, ?_,
        happend, hgso.1, hsplit _⟩⟩
      have hself := hsplit b.messages[b.used - 1]
      rwa [List.set_getElem_self] at hself
    · rw [if_neg happend]
      exact ⟨b₁, hb₁, hused₁, hcount₁, hbytes₁, .inr hactive₁⟩
  · rw [if_neg hgso]
    exact ⟨b₁, hb₁, hused₁, hcount₁, hbytes₁, .inr hactive₁⟩

end SendPacketBatch

/-! ### Aggregates -/

namespace SendMessage

/-- The segment size cuts the message evenly into the recorded number of packets, and an
aggregate is within the limits of the kernel. -/
structure Shaped (m : SendMessage) : Prop where
  size_pos : 0 < m.segmentSize
  evenly : Evenly m.segmentSize (cut m.segmentSize m.data)
  flatten : (cut m.segmentSize m.data).flatten = m.data
  segments_eq : m.segments = (cut m.segmentSize m.data).length
  limits : 1 < m.segments → m.data.length ≤ udpMaxGsoPayload ∧ m.segments ≤ maxBatchPackets

variable {m : SendMessage} {packet : Bytes} {info : SendInfo} {limit : ℕ}

lemma shaped_single (hpacket : packet ≠ []) (info : SendInfo) :
    Shaped ⟨packet, packet.length, 1, info⟩ ∧
      pieces ⟨packet, packet.length, 1, info⟩ = [(packet, info)] := by
  have hcut : cut packet.length packet = [packet] := cut_of_length_le hpacket le_rfl
  refine ⟨⟨List.length_pos_iff.mpr hpacket, ?_, ?_, ?_, fun h => absurd h (lt_irrefl 1)⟩, ?_⟩
  · rw [hcut]
    exact evenly_singleton hpacket
  · simp only [hcut, List.flatten_singleton]
  · simp only [hcut, List.length_singleton]
  · simp only [pieces, hcut, List.map_cons, List.map_nil]

lemma canAppend_iff : m.canAppend packet.length info limit = true ↔
    0 < m.segmentSize ∧ m.segments < maxBatchPackets ∧ m.info = info ∧
      m.segmentSize ∣ m.data.length ∧ packet.length ≤ m.segmentSize ∧
      m.data.length + packet.length ≤ limit := by
  have hinfo : m.info = info ↔ m.info.sender = info.sender ∧ m.info.receiver = info.receiver := by
    cases m.info
    cases info
    simp
  simp only [canAppend, Bool.and_eq_true, decide_eq_true_eq, hinfo]
  tauto

lemma Shaped.append (h : m.Shaped) (hpacket : packet ≠ [])
    (happend : m.canAppend packet.length info limit = true) (hlimit : limit ≤ udpMaxGsoPayload) :
    (m.append packet).Shaped ∧ (m.append packet).pieces = m.pieces ++ [(packet, info)] := by
  obtain ⟨-, hsegments, hinfo, hdvd, hle, hfits⟩ := canAppend_iff.mp happend
  have hevenly := h.evenly.concat (by rwa [h.flatten]) hpacket hle
  have hflatten : (cut m.segmentSize m.data ++ [packet]).flatten = m.data ++ packet := by
    rw [List.flatten_append, h.flatten, List.flatten_singleton]
  have hcut : cut m.segmentSize (m.data ++ packet) = cut m.segmentSize m.data ++ [packet] := by
    rw [← hflatten, cut_flatten h.size_pos hevenly]
  refine ⟨⟨h.size_pos, ?_, ?_, ?_, fun _ => ⟨?_, hsegments⟩⟩, ?_⟩
  · simpa only [SendMessage.append, hcut] using hevenly
  · simpa only [SendMessage.append, hcut] using hflatten
  · simp only [SendMessage.append, hcut, List.length_append, List.length_singleton,
      h.segments_eq]
  · simp only [SendMessage.append, List.length_append]
    exact hfits.trans hlimit
  · simp only [pieces, SendMessage.append, hcut, List.map_append, List.map_cons,
      List.map_nil, hinfo]

end SendMessage

namespace SendPacketBatch

variable {b b' : SendPacketBatch} {p : PacketPush}

/-- A batch holds some packets: its messages cut into them, and its counters count them. -/
structure Contains (b : SendPacketBatch) (packets : List (Bytes × SendInfo)) : Prop where
  used_le : b.used ≤ b.messages.length
  shaped : ∀ m ∈ b.active, m.Shaped
  pieces : b.active.flatMap SendMessage.pieces = packets
  packetCount : b.packetCount = packets.length
  byteCount : b.byteCount = (packets.map fun p => p.1.length).sum

lemma contains_clear (b : SendPacketBatch) : b.clear.Contains [] :=
  ⟨Nat.zero_le _, by simp [clear, active], by simp [clear, active], rfl, rfl⟩

lemma Contains.push {packets : List (Bytes × SendInfo)} (h : b.Contains packets)
    (hpacket : p.packet ≠ []) :
    ∃ b', b.push p = some b' ∧ b'.Contains (packets ++ [(p.packet, p.info)]) := by
  obtain ⟨b', hb', hused, hcount, hbytes, hactive⟩ := push_cases h.used_le p
  have hcontains : (∀ m ∈ b'.active, m.Shaped) ∧
      b'.active.flatMap SendMessage.pieces = packets ++ [(p.packet, p.info)] := by
    obtain ⟨before, last, hbefore, happend, -, hafter⟩ | hafter := hactive
    · have hlast := h.shaped last (by simp [hbefore])
      obtain ⟨hshaped, hpieces⟩ := hlast.append hpacket happend (min_le_right _ _)
      rw [hafter]
      constructor
      · intro m hm
        obtain hm | hm := List.mem_append.mp hm
        · exact h.shaped m (by simp [hbefore, hm])
        · exact List.mem_singleton.mp hm ▸ hshaped
      · rw [← h.pieces, hbefore]
        simp only [List.flatMap_append, List.flatMap_singleton, hpieces, List.append_assoc]
    · obtain ⟨hshaped, hpieces⟩ := SendMessage.shaped_single hpacket p.info
      rw [hafter]
      constructor
      · intro m hm
        obtain hm | hm := List.mem_append.mp hm
        · exact h.shaped m hm
        · exact List.mem_singleton.mp hm ▸ hshaped
      · rw [List.flatMap_append, h.pieces, List.flatMap_singleton, hpieces]
  refine ⟨b', hb', hused, hcontains.1, hcontains.2, ?_, ?_⟩
  · rw [hcount, h.packetCount, List.length_append, List.length_singleton]
  · rw [hbytes, h.byteCount]
    simp

lemma Contains.pushAll {packets : List (Bytes × SendInfo)} (h : b.Contains packets)
    {pushes : List PacketPush} (hpushes : ∀ p ∈ pushes, p.packet ≠ []) :
    ∃ b', b.pushAll pushes = some b' ∧
      b'.Contains (packets ++ pushes.map fun p => (p.packet, p.info)) := by
  induction pushes generalizing b packets with
  | nil => exact ⟨b, rfl, by simpa using h⟩
  | cons p pushes ih =>
    obtain ⟨b₁, hb₁, h₁⟩ := h.push (hpushes p List.mem_cons_self)
    obtain ⟨b', hb', h'⟩ := ih h₁ fun p' hp' => hpushes p' (List.mem_cons_of_mem p hp')
    refine ⟨b', ?_, by simpa using h'⟩
    rw [SendPacketBatch.pushAll, List.foldlM_cons, hb₁]
    exact hb'

end SendPacketBatch

/-! ### Receiving -/

/-- A slot has received an aggregate. -/
structure RecvSlot.Carries (slot : RecvSlot) (m : SendMessage) : Prop where
  len_eq : slot.len = m.data.length
  data_eq : slot.buffer.take slot.len = m.data
  segmentSize_eq : slot.segmentSize = m.segmentSize
  sender_eq : slot.sender = some m.info.sender

lemma SendMessage.Shaped.length_le {m : SendMessage} (h : m.Shaped) (hone : ¬1 < m.segments) :
    m.data.length ≤ m.segmentSize := by
  have hevenly := h.evenly
  have hflatten := h.flatten
  rw [h.segments_eq] at hone
  cases hcut : cut m.segmentSize m.data with
  | nil =>
    rw [hcut, List.flatten_nil] at hflatten
    simp [← hflatten]
  | cons piece rest =>
    obtain rfl : rest = [] := by
      rw [hcut, List.length_cons] at hone
      exact List.eq_nil_of_length_eq_zero (by omega)
    rw [hcut] at hevenly hflatten
    rw [← hflatten, List.flatten_singleton]
    exact hevenly.2

lemma RecvSlot.Carries.packets_eq {slot : RecvSlot} {m : SendMessage} (h : slot.Carries m)
    (hshaped : m.Shaped) :
    slot.packets = m.pieces.map fun piece => (piece.1, piece.2.sender) := by
  have hpieces : m.pieces.map (fun piece => (piece.1, piece.2.sender)) =
      (cut m.segmentSize m.data).map fun packet => (packet, m.info.sender) := by
    simp [SendMessage.pieces]
  have hdata : slot.buffer.take m.data.length = m.data := h.len_eq ▸ h.data_eq
  simp only [packets, h.sender_eq, h.len_eq, hdata, h.segmentSize_eq, hpieces]
  by_cases hzero : m.data.length = 0
  · rw [if_pos hzero]
    have hcut : cut m.segmentSize m.data = [] := by
      rw [List.eq_nil_of_length_eq_zero hzero]
      exact cut_nil m.segmentSize
    rw [hcut, List.map_nil]
  · rw [if_neg hzero]
    have hwhole : m.data.length ≤ m.segmentSize →
        cut m.data.length m.data = cut m.segmentSize m.data := fun hle => by
      have hne : m.data ≠ [] := fun heq => hzero (by rw [heq, List.length_nil])
      rw [cut_of_length_le hne le_rfl, cut_of_length_le hne hle]
    by_cases hrange : 1 ≤ m.segmentSize ∧ m.segmentSize ≤ maxDatagramSize
    · rw [if_pos hrange]
      by_cases hle : m.segmentSize ≤ m.data.length
      · rw [min_eq_left hle]
      · rw [min_eq_right (by omega), hwhole (by omega)]
    · rw [if_neg hrange, hwhole]
      by_cases hone : 1 < m.segments
      · have hlimit := (hshaped.limits hone).1
        have hlarge : ¬m.segmentSize ≤ maxDatagramSize := fun hle => hrange ⟨hshaped.size_pos, hle⟩
        unfold udpMaxGsoPayload at hlimit
        unfold maxDatagramSize at hlarge
        omega
      · exact hshaped.length_le hone

lemma forEachPacket_eq {slots : List RecvSlot} {messages : List SendMessage}
    (hcarries : List.Forall₂ RecvSlot.Carries slots messages) (hshaped : ∀ m ∈ messages, m.Shaped) :
    forEachPacket slots slots.length =
      (messages.flatMap SendMessage.pieces).map fun piece => (piece.1, piece.2.sender) := by
  rw [forEachPacket, List.take_length]
  induction hcarries with
  | nil => rfl
  | cons h _ ih =>
    rw [List.flatMap_cons, List.flatMap_cons, List.map_append,
      h.packets_eq (hshaped _ List.mem_cons_self),
      ih fun m hm => hshaped m (List.mem_cons_of_mem _ hm)]

/-- Non-empty packets that are pushed into a cleared batch, whatever it held before and whatever
the flags and limits, are what its active messages are cut into, in their order and with their
addresses; aggregates are within the limits of the kernel and count their segments; the counters
count the packets; and slots that receive the messages are split into the same packets. -/
theorem packetBatch_preserves_packets (b : SendPacketBatch) (pushes : List PacketPush)
    (hpushes : ∀ p ∈ pushes, p.packet ≠ []) :
    ∃ b', b.clear.pushAll pushes = some b' ∧
      b'.active.flatMap SendMessage.pieces = pushes.map (fun p => (p.packet, p.info)) ∧
      (∀ m ∈ b'.active, m.segments = (cut m.segmentSize m.data).length ∧
        (1 < m.segments → m.data.length ≤ 65507 ∧ m.segments ≤ 64)) ∧
      b'.packetCount = pushes.length ∧
      b'.byteCount = (pushes.map fun p => p.packet.length).sum ∧
      ∀ slots, List.Forall₂ RecvSlot.Carries slots b'.active →
        forEachPacket slots slots.length = pushes.map fun p => (p.packet, p.info.sender) := by
  obtain ⟨b', hb', h⟩ := b.contains_clear.pushAll hpushes
  rw [List.nil_append] at h
  refine ⟨b', hb', h.pieces, fun m hm => ⟨(h.shaped m hm).segments_eq, (h.shaped m hm).limits⟩, ?_,
    ?_, fun slots hslots => ?_⟩
  · rw [h.packetCount, List.length_map]
  · rw [h.byteCount, List.map_map]
    rfl
  · rw [forEachPacket_eq hslots h.shaped, h.pieces, List.map_map]
    rfl

/-- A full packet and a short one in one message that reuses the storage of an earlier batch, and
a third packet that may not join them. -/
theorem packetBatch_preserves_packets_three :
    ∃ b', SendPacketBatch.pushAll
        (SendPacketBatch.clear ⟨[⟨[9, 9], 1, 2, ⟨.v4 1 1, .v4 2 2⟩⟩], 1, 2, 2⟩)
        [⟨[1, 2], ⟨.v4 1 1, .v4 2 2⟩, true, 100⟩, ⟨[3], ⟨.v4 1 1, .v4 2 2⟩, true, 100⟩,
          ⟨[4], ⟨.v4 1 1, .v4 2 2⟩, true, 100⟩] = some b' ∧
      b'.active = [⟨[1, 2, 3], 2, 2, ⟨.v4 1 1, .v4 2 2⟩⟩, ⟨[4], 1, 1, ⟨.v4 1 1, .v4 2 2⟩⟩] ∧
      b'.packetCount = 3 := by
  obtain ⟨b', hb', -, -, hcount, -⟩ := packetBatch_preserves_packets
    ⟨[⟨[9, 9], 1, 2, ⟨.v4 1 1, .v4 2 2⟩⟩], 1, 2, 2⟩
    [⟨[1, 2], ⟨.v4 1 1, .v4 2 2⟩, true, 100⟩, ⟨[3], ⟨.v4 1 1, .v4 2 2⟩, true, 100⟩,
      ⟨[4], ⟨.v4 1 1, .v4 2 2⟩, true, 100⟩] (by decide)
  refine ⟨b', hb', ?_, hcount⟩
  rw [← Option.some.inj hb']
  rfl

end MasqueServer
