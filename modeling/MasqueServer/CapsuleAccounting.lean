import MasqueServer.CapsuleQueues

/-!
# The counters of the capsule queues

Whatever is queued, written, dropped and received in whatever order, the counters of a connection
are those of its queues: a part that is taken off one of them is taken off all of them. So no
counter underflows, the limits hold, and a stream with output is never forgotten.
-/
namespace MasqueServer

open List Option

namespace CapsuleConnection

def byteCount (capsules : List Bytes) : ℕ := (capsules.map List.length).sum

end CapsuleConnection

open CapsuleConnection (byteCount)

@[simp] lemma byteCount_nil : byteCount [] = 0 := rfl

@[simp] lemma byteCount_cons (data : Bytes) (capsules : List Bytes) :
    byteCount (data :: capsules) = data.length + byteCount capsules := rfl

@[simp] lemma byteCount_concat (capsules : List Bytes) (data : Bytes) :
    byteCount (capsules ++ [data]) = byteCount capsules + data.length := by
  simp [byteCount]

def OffsetWithin (offset : ℕ) : List Bytes → Prop
  | [] => offset = 0
  | front :: _ => offset < front.length

structure QueuedStream.Sound (stream : QueuedStream) : Prop where
  bytes_eq : stream.bytes = byteCount stream.send
  bytes_le : stream.bytes ≤ maxStreamSendBytes
  packets_le : stream.send.length ≤ maxStreamSendPackets
  offset : OffsetWithin stream.offset stream.send
  nonempty : ∀ data ∈ stream.send, data ≠ []

namespace QueuedStream.Sound

variable {stream : QueuedStream}

lemma offset_front {send : List Bytes} (h : ∀ data ∈ send, data ≠ []) :
    OffsetWithin 0 send := by
  cases send with
  | nil => rfl
  | cons data rest => exact length_pos_iff.mpr (h data mem_cons_self)

lemma cleared (decoder : CapsuleStream) (finishedAt : Option ℕ) :
    Sound { decoder with send := [], bytes := 0, offset := 0, finishedAt } :=
  ⟨rfl, Nat.zero_le _, Nat.zero_le _, rfl, by simp⟩

lemma concat (h : stream.Sound) {data : Bytes} (hdata : data ≠ [])
    (hbytes : stream.bytes + data.length ≤ maxStreamSendBytes)
    (hpackets : stream.send.length < maxStreamSendPackets) :
    Sound { stream with bytes := stream.bytes + data.length, send := stream.send ++ [data] } := by
  refine ⟨?_, hbytes, ?_, ?_, ?_⟩
  · rw [byteCount_concat, h.bytes_eq]
  · rw [length_append, length_singleton]
    exact hpackets
  · have hoffset := h.offset
    cases hsend : stream.send with
    | nil =>
      rw [hsend, OffsetWithin] at hoffset
      show stream.offset < data.length
      rw [hoffset]
      exact length_pos_iff.mpr hdata
    | cons front rest =>
      rw [hsend] at hoffset
      exact hoffset
  · intro queued hqueued
    obtain hqueued | hqueued := mem_append.mp hqueued
    · exact h.nonempty queued hqueued
    · rw [mem_singleton.mp hqueued]
      exact hdata

end QueuedStream.Sound

namespace CapsuleConnection

/-! ### One flush -/

namespace Flush

/-- The counters of the connection cover the stream. -/
structure Ready (f : Flush) : Prop where
  sound : f.stream.Sound
  bytes_le : f.stream.bytes ≤ f.capsuleSendBytes
  packets_le : f.stream.send.length ≤ f.capsuleSendPackets

/-- The counters of the connection shrink by what the stream's shrink by. -/
structure Drains (f f' : Flush) : Prop where
  ready : f'.Ready
  bytes_le : f'.stream.bytes ≤ f.stream.bytes
  packets_le : f'.stream.send.length ≤ f.stream.send.length
  bytes_eq : f'.capsuleSendBytes + f.stream.bytes = f.capsuleSendBytes + f'.stream.bytes
  packets_eq : f'.capsuleSendPackets + f.stream.send.length =
    f.capsuleSendPackets + f'.stream.send.length
  finishedAt : f'.stream.finishedAt = f.stream.finishedAt
  opened : f'.quic.opened = f.quic.opened
  queued : f'.quic.queued = f.quic.queued

variable {f f' f'' : Flush}

lemma Ready.drains (h : f.Ready) : f.Drains f :=
  ⟨h, le_rfl, le_rfl, rfl, rfl, rfl, rfl, rfl⟩

lemma Drains.trans (h : f.Drains f') (h' : f'.Drains f'') : f.Drains f'' where
  ready := h'.ready
  bytes_le := h'.bytes_le.trans h.bytes_le
  packets_le := h'.packets_le.trans h.packets_le
  bytes_eq := by
    have := h.bytes_eq
    have := h'.bytes_eq
    omega
  packets_eq := by
    have := h.packets_eq
    have := h'.packets_eq
    omega
  finishedAt := h'.finishedAt.trans h.finishedAt
  opened := h'.opened.trans h.opened
  queued := h'.queued.trans h.queued

lemma sendBody_kept (quic : QuicStream) (data : Bytes) (fin : Bool) (result : SendResult) :
    (quic.sendBody data fin result).1.opened = quic.opened ∧
      (quic.sendBody data fin result).1.queued = quic.queued := by
  cases result <;> exact ⟨rfl, rfl⟩

lemma Ready.call (h : f.Ready) {quic : QuicStream}
    (hquic : quic.opened = f.quic.opened ∧ quic.queued = f.quic.queued) :
    f.Drains { f with quic } :=
  ⟨⟨h.sound, h.bytes_le, h.packets_le⟩, le_rfl, le_rfl, rfl, rfl, rfl, hquic.1, hquic.2⟩

lemma Ready.popFront (h : f.Ready) {data : Bytes} {rest : List Bytes}
    (hsend : f.stream.send = data :: rest) :
    ∃ f', f.popFront data rest = some f' ∧ f.Drains f' := by
  have hbytes := h.sound.bytes_eq
  have hpackets := h.packets_le
  have hstream := h.sound.bytes_le
  have hlength := h.sound.packets_le
  have hle := h.bytes_le
  rw [hsend, byteCount_cons] at hbytes
  rw [hsend, length_cons] at hpackets hlength
  have hnonempty : ∀ capsule ∈ rest, capsule ≠ [] := fun capsule hcapsule =>
    h.sound.nonempty capsule (hsend ▸ mem_cons_of_mem data hcapsule)
  have hpop : f.popFront data rest = some { f with
      stream := { f.stream with bytes := f.stream.bytes - data.length, send := rest, offset := 0 }
      capsuleSendBytes := f.capsuleSendBytes - data.length
      capsuleSendPackets := f.capsuleSendPackets - 1 } := by
    simp only [Flush.popFront, checkedSub_eq (show data.length ≤ f.stream.bytes by omega),
      checkedSub_eq (show data.length ≤ f.capsuleSendBytes by omega),
      checkedSub_eq (show 1 ≤ f.capsuleSendPackets by omega), bind_eq_bind, bind_some,
      Option.pure_def]
  refine ⟨_, hpop, ⟨⟨⟨?_, ?_, ?_, ?_, hnonempty⟩, ?_, ?_⟩, ?_, ?_, ?_, ?_, rfl, rfl, rfl⟩⟩
  · show f.stream.bytes - data.length = byteCount rest
    omega
  · show f.stream.bytes - data.length ≤ maxStreamSendBytes
    omega
  · show rest.length ≤ maxStreamSendPackets
    omega
  · exact QueuedStream.Sound.offset_front hnonempty
  · show f.stream.bytes - data.length ≤ f.capsuleSendBytes - data.length
    omega
  · show rest.length ≤ f.capsuleSendPackets - 1
    omega
  · show f.stream.bytes - data.length ≤ f.stream.bytes
    omega
  · show rest.length ≤ f.stream.send.length
    rw [hsend, length_cons]
    omega
  · show f.capsuleSendBytes - data.length + f.stream.bytes =
      f.capsuleSendBytes + (f.stream.bytes - data.length)
    omega
  · show f.capsuleSendPackets - 1 + f.stream.send.length = f.capsuleSendPackets + rest.length
    rw [hsend, length_cons]
    omega

lemma Ready.abandon (h : f.Ready) :
    ∃ f', f.abandon = some f' ∧ f.Drains f' ∧ f'.stream.send = [] := by
  have hbytes := h.bytes_le
  have hpackets := h.packets_le
  have habandon : f.abandon = some { f with
      stream := { f.stream with bytes := 0, send := [], offset := 0 }
      capsuleSendBytes := f.capsuleSendBytes - f.stream.bytes
      capsuleSendPackets := f.capsuleSendPackets - f.stream.send.length } := by
    simp only [Flush.abandon, checkedSub_eq hbytes, checkedSub_eq hpackets, bind_eq_bind,
      bind_some, Option.pure_def]
  refine ⟨_, habandon, ⟨⟨.cleared _ _, Nat.zero_le _, Nat.zero_le _⟩, Nat.zero_le _, Nat.zero_le _,
    ?_, ?_, rfl, rfl, rfl⟩, rfl⟩
  · show f.capsuleSendBytes - f.stream.bytes + f.stream.bytes = f.capsuleSendBytes + 0
    omega
  · show f.capsuleSendPackets - f.stream.send.length + f.stream.send.length =
      f.capsuleSendPackets + 0
    omega

lemma Ready.advance (h : f.Ready) {data : Bytes} {rest : List Bytes}
    (hsend : f.stream.send = data :: rest) {offset : ℕ} (hoffset : offset < data.length) :
    f.Drains { f with stream := { f.stream with offset } } :=
  ⟨⟨⟨h.sound.bytes_eq, h.sound.bytes_le, h.sound.packets_le,
      by show OffsetWithin offset f.stream.send; rw [hsend]; exact hoffset, h.sound.nonempty⟩,
    h.bytes_le, h.packets_le⟩, le_rfl, le_rfl, rfl, rfl, rfl, rfl, rfl⟩

lemma Ready.loop (h : f.Ready) (results : List SendResult) :
    ∃ f' keep, Flush.loop results f = some (f', keep) ∧ f.Drains f' ∧
      (f'.stream.send ≠ [] → keep = true) := by
  induction results generalizing f with
  | nil =>
    refine ⟨f, _, rfl, h.drains, fun hsend => ?_⟩
    rw [isEmpty_eq_false_iff.mpr hsend, Bool.not_false]
  | cons result results ih =>
    rw [Flush.loop]
    split
    · rename_i hsend
      exact ⟨f, false, rfl, h.drains, fun hne => absurd hsend hne⟩
    · rename_i data rest hsend
      have hkept := sendBody_kept f.quic (data.drop f.stream.offset) false result
      have hoffset := h.sound.offset
      rw [hsend, OffsetWithin] at hoffset
      have hcalled := h.call hkept
      split
      · rename_i quic hcall
        rw [hcall] at hcalled
        exact ⟨_, true, rfl, hcalled, fun _ => rfl⟩
      · rename_i quic hcall
        rw [hcall] at hcalled
        obtain ⟨f', hf', hdrains, hempty⟩ := hcalled.ready.abandon
        exact ⟨f', false, by rw [hf', map_some], hcalled.trans hdrains,
          fun hne => absurd hempty hne⟩
      · rename_i quic written hcall
        have hle := QuicStream.sendBody_le hcall
        rw [length_drop] at hle
        rw [hcall] at hcalled
        split_ifs with hzero hwhole
        · exact ⟨_, true, rfl, hcalled, fun _ => rfl⟩
        · obtain ⟨f', hf', hdrains⟩ := hcalled.ready.popFront hsend
          obtain ⟨f'', keep, hf'', hdrains', hkeep⟩ := ih hdrains.ready
          exact ⟨f'', keep, by rw [hf', bind_some, hf''],
            (hcalled.trans hdrains).trans hdrains', hkeep⟩
        · have hadvance := hcalled.ready.advance hsend
            (show f.stream.offset + written < data.length by omega)
          obtain ⟨f', keep, hf', hdrains, hkeep⟩ := ih hadvance.ready
          exact ⟨f', keep, hf', (hcalled.trans hadvance).trans hdrains, hkeep⟩

end Flush

/-! ### The counters of a connection -/

structure Accounted (c : CapsuleConnection) : Prop where
  sound : ∀ id stream, c.capsuleStreams.get id = some stream → stream.Sound
  writable : ∀ id stream, c.capsuleStreams.get id = some stream → stream.send ≠ [] →
    c.capsuleWritable.contains id = true
  opened : ∀ id stream, c.capsuleStreams.get id = some stream →
    IsRequestStream id ∧ (c.quic id).opened = true
  sendBytes_eq : c.capsuleSendBytes = c.capsuleStreams.total QueuedStream.bytes
  sendPackets_eq : c.capsuleSendPackets = c.capsuleStreams.total fun stream => stream.send.length
  sendBytes_le : c.capsuleSendBytes ≤ maxConnectionSendBytes
  sendPackets_le : c.capsuleSendPackets ≤ maxConnectionSendPackets
  receivedBytes_eq : c.receivedCapsuleBytes = byteCount c.receivedCapsules
  receivedBytes_le : c.receivedCapsuleBytes ≤ maxReceivedBytes
  receivedPackets_le : c.receivedCapsules.length ≤ maxReceivedPackets

/-- The capsules queued for a stream are final: it has been opened before, and if it is still
there then its request is marked finished. -/
structure Closed (c : CapsuleConnection) (id : ℕ) (queued : List Bytes) : Prop where
  opened : (c.quic id).opened = true
  queued_eq : (c.quic id).queued = queued
  finished : ∀ stream, c.capsuleStreams.get id = some stream → stream.finishedAt.isSome = true

/-- The connection is accounted for, and nothing was queued where nothing may be. -/
structure Follows (c c' : CapsuleConnection) : Prop where
  accounted : c'.Accounted
  closed : ∀ id queued, c.Closed id queued → c'.Closed id queued

variable {c c' c'' : CapsuleConnection} {id : ℕ} {stream stream' : QueuedStream}

lemma Follows.trans (h : c.Follows c') (h' : c'.Follows c'') : c.Follows c'' :=
  ⟨h'.accounted, fun id queued hclosed => h'.closed id queued (h.closed id queued hclosed)⟩

lemma accounted_start (h3 : Bool) : Accounted { h3 } := by
  refine ⟨?_, ?_, ?_, rfl, rfl, Nat.zero_le _, Nat.zero_le _, rfl, Nat.zero_le _, Nat.zero_le _⟩ <;>
    simp

namespace Accounted

lemma follows_refl (h : c.Accounted) : c.Follows c := ⟨h, fun _ _ hclosed => hclosed⟩

lemma bytes_le (h : c.Accounted) (hget : c.capsuleStreams.get id = some stream) :
    stream.bytes ≤ c.capsuleSendBytes :=
  h.sendBytes_eq ▸ Table.le_total hget

lemma packets_le (h : c.Accounted) (hget : c.capsuleStreams.get id = some stream) :
    stream.send.length ≤ c.capsuleSendPackets :=
  h.sendPackets_eq ▸ Table.le_total (f := fun stream : QueuedStream => stream.send.length) hget

/-- The received capsules stay. -/
structure SameReceived (c c' : CapsuleConnection) : Prop where
  capsules : c'.receivedCapsules = c.receivedCapsules
  bytes : c'.receivedCapsuleBytes = c.receivedCapsuleBytes

variable (h : c.Accounted)
include h

lemma exchange (hget : c.capsuleStreams.get id = some stream)
    (hstreams : c'.capsuleStreams = c.capsuleStreams.put id stream') (hsound : stream'.Sound)
    (hbytes : c'.capsuleSendBytes + stream.bytes = c.capsuleSendBytes + stream'.bytes)
    (hpackets : c'.capsuleSendPackets + stream.send.length =
      c.capsuleSendPackets + stream'.send.length)
    (hbytes_le : c'.capsuleSendBytes ≤ maxConnectionSendBytes)
    (hpackets_le : c'.capsuleSendPackets ≤ maxConnectionSendPackets)
    (hwritable : ∀ id', id' ≠ id → c.capsuleWritable.contains id' = true →
      c'.capsuleWritable.contains id' = true)
    (hself : stream'.send ≠ [] → c'.capsuleWritable.contains id = true)
    (hquic : ∀ id', id' ≠ id → c'.quic id' = c.quic id')
    (hopened : (c'.quic id).opened = (c.quic id).opened)
    (hfinished : stream.finishedAt.isSome = true → stream'.finishedAt.isSome = true ∧
      (c'.quic id).queued = (c.quic id).queued)
    (hreceived : SameReceived c c') : c.Follows c' := by
  have hget' : ∀ {id' found}, c'.capsuleStreams.get id' = some found →
      id' = id ∧ found = stream' ∨ id' ≠ id ∧ c.capsuleStreams.get id' = some found := by
    intro id' found hfound
    exact Table.get_put_cases (hstreams ▸ hfound)
  refine ⟨⟨?_, ?_, ?_, ?_, ?_, hbytes_le, hpackets_le, ?_, ?_, ?_⟩, ?_⟩
  · intro id' found hfound
    obtain ⟨-, rfl⟩ | ⟨-, hfound⟩ := hget' hfound
    · exact hsound
    · exact h.sound id' found hfound
  · intro id' found hfound hsend
    obtain ⟨rfl, rfl⟩ | ⟨hne, hfound⟩ := hget' hfound
    · exact hself hsend
    · exact hwritable id' hne (h.writable id' found hfound hsend)
  · intro id' found hfound
    obtain ⟨rfl, -⟩ | ⟨hne, hfound⟩ := hget' hfound
    · rw [hopened]
      exact h.opened id' stream hget
    · rw [hquic id' hne]
      exact h.opened id' found hfound
  · have htotal := Table.total_put QueuedStream.bytes c.capsuleStreams id stream'
    rw [hget, map_some, getD_some, ← hstreams, ← h.sendBytes_eq] at htotal
    omega
  · have htotal := Table.total_put (fun stream : QueuedStream => stream.send.length)
      c.capsuleStreams id stream'
    rw [hget, map_some, getD_some, ← hstreams, ← h.sendPackets_eq] at htotal
    omega
  · rw [hreceived.bytes, hreceived.capsules, h.receivedBytes_eq]
  · rw [hreceived.bytes]
    exact h.receivedBytes_le
  · rw [hreceived.capsules]
    exact h.receivedPackets_le
  · intro id' queued hclosed
    by_cases hid : id' = id
    · subst hid
      obtain ⟨hkept, hqueued⟩ := hfinished (hclosed.finished stream hget)
      refine ⟨hopened.trans hclosed.opened, hqueued.trans hclosed.queued_eq, fun found hfound => ?_⟩
      obtain ⟨-, rfl⟩ | ⟨hne, -⟩ := hget' hfound
      · exact hkept
      · exact absurd rfl hne
    · refine ⟨?_, ?_, fun found hfound => ?_⟩
      · rw [hquic id' hid, hclosed.opened]
      · rw [hquic id' hid, hclosed.queued_eq]
      · obtain ⟨heq, -⟩ | ⟨-, hfound⟩ := hget' hfound
        · exact absurd heq hid
        · exact hclosed.finished found hfound

lemma create (hopen : c.mayOpen id = true)
    (hstreams : c'.capsuleStreams = c.capsuleStreams.put id stream) (hsend : stream.send = [])
    (hsound : stream.Sound)
    (hquic : c'.quic = Function.update c.quic id { c.quic id with opened := true })
    (hwritable : c'.capsuleWritable = c.capsuleWritable)
    (hbytes : c'.capsuleSendBytes = c.capsuleSendBytes)
    (hpackets : c'.capsuleSendPackets = c.capsuleSendPackets) (hreceived : SameReceived c c') :
    c.Follows c' := by
  simp only [mayOpen, Bool.and_eq_true, decide_eq_true_eq, Bool.not_eq_true'] at hopen
  obtain ⟨hrequest, hnew⟩ := hopen
  have hnone : c.capsuleStreams.get id = none := by
    cases hget : c.capsuleStreams.get id with
    | none => rfl
    | some found =>
      rw [(h.opened id found hget).2] at hnew
      cases hnew
  have hget' : ∀ {id' found}, c'.capsuleStreams.get id' = some found →
      id' = id ∧ found = stream ∨ id' ≠ id ∧ c.capsuleStreams.get id' = some found := by
    intro id' found hfound
    exact Table.get_put_cases (hstreams ▸ hfound)
  have hbytes_zero : stream.bytes = 0 := by rw [hsound.bytes_eq, hsend, byteCount_nil]
  refine ⟨⟨?_, ?_, ?_, ?_, ?_, ?_, ?_, ?_, ?_, ?_⟩, ?_⟩
  · intro id' found hfound
    obtain ⟨-, rfl⟩ | ⟨-, hfound⟩ := hget' hfound
    · exact hsound
    · exact h.sound id' found hfound
  · intro id' found hfound hne
    obtain ⟨-, rfl⟩ | ⟨-, hfound⟩ := hget' hfound
    · exact absurd hsend hne
    · rw [hwritable]
      exact h.writable id' found hfound hne
  · intro id' found hfound
    rw [hquic]
    obtain ⟨rfl, -⟩ | ⟨hne, hfound⟩ := hget' hfound
    · exact ⟨hrequest, by rw [Function.update_self]⟩
    · rw [Function.update_of_ne hne]
      exact h.opened id' found hfound
  · have htotal := Table.total_put QueuedStream.bytes c.capsuleStreams id stream
    rw [hnone, map_none, getD_none, ← hstreams, ← h.sendBytes_eq, hbytes_zero] at htotal
    omega
  · have htotal := Table.total_put (fun stream : QueuedStream => stream.send.length)
      c.capsuleStreams id stream
    rw [hnone, map_none, getD_none, ← hstreams, ← h.sendPackets_eq, hsend,
      length_nil] at htotal
    omega
  · exact hbytes ▸ h.sendBytes_le
  · exact hpackets ▸ h.sendPackets_le
  · rw [hreceived.bytes, hreceived.capsules, h.receivedBytes_eq]
  · exact hreceived.bytes ▸ h.receivedBytes_le
  · exact hreceived.capsules ▸ h.receivedPackets_le
  · intro id' queued hclosed
    have hne : id' ≠ id := fun heq => by
      rw [← heq, hclosed.opened] at hnew
      cases hnew
    refine ⟨?_, ?_, fun found hfound => ?_⟩
    · rw [hquic, Function.update_of_ne hne, hclosed.opened]
    · rw [hquic, Function.update_of_ne hne, hclosed.queued_eq]
    · obtain ⟨heq, -⟩ | ⟨-, hfound⟩ := hget' hfound
      · exact absurd heq hne
      · exact hclosed.finished found hfound

lemma openUdp (id : ℕ) : c.Follows (c.openUdp id) := by
  unfold CapsuleConnection.openUdp
  split_ifs with hopen
  · exact h.create hopen rfl rfl (.cleared _ _) rfl rfl rfl rfl ⟨rfl, rfl⟩
  · exact h.follows_refl

lemma openIp (id maxPayload : ℕ) (addresses : List IpAddr) :
    c.Follows (c.openIp id maxPayload addresses) := by
  unfold CapsuleConnection.openIp
  split_ifs with hopen
  · exact h.create hopen rfl rfl (.cleared _ _) rfl rfl rfl rfl ⟨rfl, rfl⟩
  · exact h.follows_refl

lemma queueCapsuleBytes (id : ℕ) {data : Bytes} (hdata : data ≠ []) :
    c.Follows (c.queueCapsuleBytes id data).1 := by
  unfold CapsuleConnection.queueCapsuleBytes
  cases hget : c.capsuleStreams.get id with
  | none => exact h.follows_refl
  | some stream =>
    dsimp only
    split_ifs with hfull
    · exact h.follows_refl
    · simp only [Bool.or_eq_true, decide_eq_true_eq, not_or, Bool.not_eq_true, not_lt, not_le]
        at hfull
      obtain ⟨⟨⟨⟨hopen, hbytes⟩, hsendBytes⟩, hpackets⟩, hsendPackets⟩ := hfull
      refine h.exchange hget rfl ((h.sound id stream hget).concat hdata hbytes hpackets) ?_ ?_
        hsendBytes hsendPackets ?_ ?_ ?_ ?_ ?_ ⟨rfl, rfl⟩
      · show c.capsuleSendBytes + data.length + stream.bytes =
          c.capsuleSendBytes + (stream.bytes + data.length)
        omega
      · show c.capsuleSendPackets + 1 + stream.send.length =
          c.capsuleSendPackets + (stream.send ++ [data]).length
        rw [length_append, length_singleton]
        omega
      · intro id' hne hmem
        rw [Table.contains, Table.get_put, if_neg hne]
        exact hmem
      · intro _
        simp [Table.contains]
      · intro id' hne
        exact Function.update_of_ne hne _ _
      · simp
      · intro hsome
        rw [hopen] at hsome
        cases hsome

omit h in
lemma encodeDatagram_ne_nil {payload capsule : Bytes}
    (h : encodeDatagramContextZero payload [] = some capsule) : capsule ≠ [] := by
  rintro rfl
  simp [encodeDatagramContextZero, bind_eq_some_iff] at h

lemma queueDatagramCapsule (id : ℕ) (payload : Bytes) :
    ∃ c' queued, c.queueDatagramCapsule id payload = some (c', queued) ∧ c.Follows c' := by
  unfold CapsuleConnection.queueDatagramCapsule
  cases hget : c.capsuleStreams.get id with
  | none => exact ⟨c, false, rfl, h.follows_refl⟩
  | some stream =>
    dsimp only
    split_ifs with hfull
    · exact ⟨c, false, rfl, h.follows_refl⟩
    · simp only [Bool.or_eq_true, decide_eq_true_eq, not_or, not_lt] at hfull
      have hlength : payload.length + 1 ≤ Varint.maxValue := by
        have := hfull.1.1.1.2
        unfold maxConnectionSendBytes at this
        unfold Varint.maxValue
        omega
      have hencode : ∃ capsule, encodeDatagramContextZero payload [] = some capsule := by
        simp only [encodeDatagramContextZero, Varint.appendTo_shortest hlength,
          Varint.appendTo_shortest (show capsuleDatagram ≤ Varint.maxValue by decide)]
        exact ⟨_, rfl⟩
      obtain ⟨capsule, hcapsule⟩ := hencode
      exact ⟨_, _, by rw [hcapsule, map_some],
        h.queueCapsuleBytes id (encodeDatagram_ne_nil hcapsule)⟩

lemma markCapsuleFinished (id now : ℕ) : c.Follows (c.markCapsuleFinished id now) := by
  unfold CapsuleConnection.markCapsuleFinished
  cases hget : c.capsuleStreams.get id with
  | none => exact h.follows_refl
  | some stream =>
    dsimp only
    split_ifs with hfinished
    · exact h.follows_refl
    · have hsound := h.sound id stream hget
      refine h.exchange hget rfl
        ⟨hsound.bytes_eq, hsound.bytes_le, hsound.packets_le, hsound.offset,
        hsound.nonempty⟩ rfl rfl h.sendBytes_le h.sendPackets_le (fun _ _ hmem => hmem)
        (h.writable id stream hget) ?_ ?_ ?_ ⟨rfl, rfl⟩
      · intro id' hne
        exact Function.update_of_ne hne _ _
      · simp
      · intro hsome
        exact absurd hsome hfinished

lemma forget (hget : c.capsuleStreams.get id = none) (finished : List ℕ) : c.Follows { c with
      capsuleWritable := c.capsuleWritable.remove id
      finishedCapsules := finished } := by
  refine ⟨{ h with writable := ?_ }, fun _ _ hclosed => ⟨hclosed.1, hclosed.2, hclosed.3⟩⟩
  intro id' stream hstream hsend
  have hne : id' ≠ id := fun heq => by
    rw [heq, hget] at hstream
    cases hstream
  rw [Table.contains, Table.get_remove, if_neg hne]
  exact h.writable id' stream hstream hsend

lemma discardCapsuleOutput (id : ℕ) : ∃ c', c.discardCapsuleOutput id = some c' ∧ c.Follows c' := by
  cases hget : c.capsuleStreams.get id with
  | none =>
    refine ⟨_, ?_, h.forget hget c.finishedCapsules⟩
    simp only [CapsuleConnection.discardCapsuleOutput, hget]
  | some stream =>
    have hbytes := h.bytes_le hget
    have hpackets := h.packets_le hget
    have hdiscard : c.discardCapsuleOutput id = some { c with
        capsuleSendBytes := c.capsuleSendBytes - stream.bytes
        capsuleSendPackets := c.capsuleSendPackets - stream.send.length
        capsuleStreams :=
          c.capsuleStreams.put id { stream with send := [], bytes := 0, offset := 0 }
        capsuleWritable := c.capsuleWritable.remove id } := by
      simp only [CapsuleConnection.discardCapsuleOutput, hget, checkedSub_eq hbytes,
        checkedSub_eq hpackets, bind_eq_bind, bind_some, Option.pure_def]
    refine ⟨_, hdiscard, h.exchange hget rfl (.cleared _ _) ?_ ?_
      ((Nat.sub_le _ _).trans h.sendBytes_le)
      ((Nat.sub_le _ _).trans h.sendPackets_le) ?_ ?_ (fun _ _ => rfl) rfl
        (fun hsome => ⟨hsome, rfl⟩)
      ⟨rfl, rfl⟩⟩
    · show c.capsuleSendBytes - stream.bytes + stream.bytes = c.capsuleSendBytes + 0
      omega
    · show c.capsuleSendPackets - stream.send.length + stream.send.length = c.capsuleSendPackets + 0
      omega
    · intro id' hne hmem
      show (c.capsuleWritable.remove id).contains id' = true
      rw [Table.contains, Table.get_remove, if_neg hne]
      exact hmem
    · intro hne
      exact absurd rfl hne

lemma removeCapsuleStream (id : ℕ) : ∃ c', c.removeCapsuleStream id = some c' ∧ c.Follows c' := by
  cases hget : c.capsuleStreams.get id with
  | none =>
    refine ⟨_, ?_, h.forget hget (c.finishedCapsules.filter (· ≠ id))⟩
    simp only [CapsuleConnection.removeCapsuleStream, hget]
  | some stream =>
    have hbytes := h.bytes_le hget
    have hpackets := h.packets_le hget
    have hget' : ∀ {id' found}, (c.capsuleStreams.remove id).get id' = some found →
        id' ≠ id ∧ c.capsuleStreams.get id' = some found := by
      intro id' found hfound
      rw [Table.get_remove, ite_eq_iff] at hfound
      exact hfound.resolve_left fun hfound => by cases hfound.2
    have hremove : c.removeCapsuleStream id = some { c with
        capsuleSendBytes := c.capsuleSendBytes - stream.bytes
        capsuleSendPackets := c.capsuleSendPackets - stream.send.length
        capsuleStreams := c.capsuleStreams.remove id
        capsuleWritable := c.capsuleWritable.remove id
        finishedCapsules := c.finishedCapsules.filter (· ≠ id) } := by
      simp only [CapsuleConnection.removeCapsuleStream, hget, checkedSub_eq hbytes,
        checkedSub_eq hpackets, bind_eq_bind, bind_some, Option.pure_def]
    refine ⟨_, hremove, ⟨⟨?_, ?_, ?_, ?_, ?_, (Nat.sub_le _ _).trans h.sendBytes_le,
      (Nat.sub_le _ _).trans h.sendPackets_le, h.receivedBytes_eq, h.receivedBytes_le,
      h.receivedPackets_le⟩, ?_⟩⟩
    · exact fun id' found hfound => h.sound id' found (hget' hfound).2
    · intro id' found hfound hsend
      obtain ⟨hne, hfound⟩ := hget' hfound
      show (c.capsuleWritable.remove id).contains id' = true
      rw [Table.contains, Table.get_remove, if_neg hne]
      exact h.writable id' found hfound hsend
    · exact fun id' found hfound => h.opened id' found (hget' hfound).2
    · have htotal := Table.total_remove QueuedStream.bytes c.capsuleStreams id
      rw [hget, map_some, getD_some, ← h.sendBytes_eq] at htotal
      show c.capsuleSendBytes - stream.bytes =
        (c.capsuleStreams.remove id).total QueuedStream.bytes
      omega
    · have htotal := Table.total_remove (fun stream : QueuedStream => stream.send.length)
        c.capsuleStreams id
      rw [hget, map_some, getD_some, ← h.sendPackets_eq] at htotal
      show c.capsuleSendPackets - stream.send.length =
        (c.capsuleStreams.remove id).total fun stream => stream.send.length
      omega
    · exact fun id' queued hclosed => ⟨hclosed.opened, hclosed.queued_eq,
        fun found hfound => hclosed.finished found (hget' hfound).2⟩

lemma flushStream (results : ℕ → List SendResult) (id : ℕ) :
    ∃ c', c.flushStream results id = some c' ∧ c.Follows c' := by
  unfold CapsuleConnection.flushStream
  cases hget : c.capsuleStreams.get id with
  | none => exact ⟨_, rfl, h.forget hget _⟩
  | some stream =>
    have hready : Flush.Ready ⟨stream, c.capsuleSendBytes, c.capsuleSendPackets, c.quic id⟩ :=
      ⟨h.sound id stream hget, h.bytes_le hget, h.packets_le hget⟩
    obtain ⟨f, keep, hloop, hdrains, hkeep⟩ := hready.loop (results id)
    simp only [hloop, bind_eq_bind, bind_some, Option.pure_def]
    have hbytes := hdrains.bytes_eq
    have hpackets := hdrains.packets_eq
    have hbytes_le := hdrains.bytes_le
    have hpackets_le := hdrains.packets_le
    have hsendBytes := h.sendBytes_le
    have hsendPackets := h.sendPackets_le
    dsimp only at hbytes hpackets hbytes_le hpackets_le
    refine ⟨_, rfl, h.exchange hget rfl hdrains.ready.sound hbytes hpackets ?_ ?_ ?_ ?_ ?_ ?_ ?_
      ⟨rfl, rfl⟩⟩
    · show f.capsuleSendBytes ≤ maxConnectionSendBytes
      omega
    · show f.capsuleSendPackets ≤ maxConnectionSendPackets
      omega
    · intro id' hne hmem
      cases keep with
      | true => exact hmem
      | false =>
        show (c.capsuleWritable.remove id).contains id' = true
        rw [Table.contains, Table.get_remove, if_neg hne]
        exact hmem
    · intro hsend
      obtain rfl := hkeep hsend
      refine h.writable id stream hget fun hnil => hsend ?_
      rw [hnil] at hpackets_le
      exact length_eq_zero_iff.mp (Nat.le_zero.mp hpackets_le)
    · intro id' hne
      exact Function.update_of_ne hne _ _
    · simp [hdrains.opened]
    · intro hsome
      refine ⟨?_, ?_⟩
      · rw [hdrains.finishedAt]
        exact hsome
      · simp [hdrains.queued]

lemma flushCapsuleOutput (results : ℕ → List SendResult) :
    ∃ c', c.flushCapsuleOutput results = some c' ∧ c.Follows c' := by
  unfold CapsuleConnection.flushCapsuleOutput
  split_ifs
  · rename_i hh3
    clear hh3
    generalize c.capsuleWritable.keys = ids
    induction ids generalizing c with
    | nil => exact ⟨c, rfl, h.follows_refl⟩
    | cons id ids ih =>
      obtain ⟨c', hc', hfollows⟩ := h.flushStream results id
      obtain ⟨c'', hc'', hfollows'⟩ := ih hfollows.accounted
      exact ⟨c'', by rw [foldlM_cons, hc']; exact hc'', hfollows.trans hfollows'⟩
  · exact ⟨c, rfl, h.follows_refl⟩

lemma receiveDatagram (hid : IsRequestStream id) (maxPayload : ℕ) (payload : Bytes) :
    ∃ c' failed, c.receiveDatagram id maxPayload payload = some (c', failed) ∧ c.Follows c' := by
  unfold CapsuleConnection.receiveDatagram
  split
  · exact ⟨c, false, rfl, h.follows_refl⟩
  · split_ifs with hcontext hlarge hfull
    · exact ⟨c, false, rfl, h.follows_refl⟩
    · exact ⟨c, true, rfl, h.follows_refl⟩
    · exact ⟨c, false, rfl, h.follows_refl⟩
    · rw [not_or, not_le, not_lt] at hfull
      obtain ⟨len, hlen, hwire⟩ := hid.rebuild_eq payload
      have hoctets := Varint.length_octets hlen
      have hlen_le : len ≤ 8 := by
        obtain ⟨k, -, hk, rfl, -⟩ := Varint.encodedLen_cases hlen
        exact Nat.pow_le_pow_right (n := 2) (by decide) (show k ≤ 3 by omega)
      rw [hwire, map_some]
      refine ⟨_, false, rfl, ⟨{ h with
        receivedBytes_eq := ?_
        receivedBytes_le := ?_
        receivedPackets_le := ?_ }, fun _ _ hclosed => ⟨hclosed.1, hclosed.2, hclosed.3⟩⟩⟩
      · rw [byteCount_concat, h.receivedBytes_eq]
      · show c.receivedCapsuleBytes + (Varint.octets (id / 4) len ++ payload).length ≤
          maxReceivedBytes
        rw [length_append, hoctets]
        omega
      · rw [length_append, length_singleton]
        exact hfull.1

lemma takeReceived : ∃ c', c.takeReceived = some c' ∧ c.Follows c' := by
  unfold CapsuleConnection.takeReceived
  cases hreceived : c.receivedCapsules with
  | nil => exact ⟨c, rfl, h.follows_refl⟩
  | cons wire rest =>
    have hbytes := h.receivedBytes_eq
    have hbytes_le := h.receivedBytes_le
    have hpackets_le := h.receivedPackets_le
    rw [hreceived, byteCount_cons] at hbytes
    rw [hreceived, length_cons] at hpackets_le
    dsimp only
    rw [checkedSub_eq (by omega), map_some]
    refine ⟨_, rfl, ⟨{ h with
      receivedBytes_eq := ?_
      receivedBytes_le := ?_
      receivedPackets_le := ?_ }, fun _ _ hclosed => ⟨hclosed.1, hclosed.2, hclosed.3⟩⟩⟩
    · show c.receivedCapsuleBytes - wire.length = byteCount rest
      omega
    · show c.receivedCapsuleBytes - wire.length ≤ maxReceivedBytes
      omega
    · show rest.length ≤ maxReceivedPackets
      omega

theorem step (e : QueueEvent) : ∃ c', c.step e = some c' ∧ c.Follows c' := by
  cases e with
  | openUdp id => exact ⟨_, rfl, h.openUdp id⟩
  | openIp id maxPayload addresses => exact ⟨_, rfl, h.openIp id maxPayload addresses⟩
  | queue id capsule => exact ⟨_, rfl, h.queueCapsuleBytes id capsule.nonempty⟩
  | queueDatagram id payload =>
    obtain ⟨c', queued, hc', hfollows⟩ := h.queueDatagramCapsule id payload
    exact ⟨c', by rw [CapsuleConnection.step, hc', map_some], hfollows⟩
  | flush results => exact h.flushCapsuleOutput results
  | discard id => exact h.discardCapsuleOutput id
  | remove id => exact h.removeCapsuleStream id
  | markFinished id now => exact ⟨_, rfl, h.markCapsuleFinished id now⟩
  | receive id payload =>
    simp only [CapsuleConnection.step]
    cases hget : c.capsuleStreams.get id with
    | none => exact ⟨c, rfl, h.follows_refl⟩
    | some stream =>
      obtain ⟨c', failed, hc', hfollows⟩ :=
        h.receiveDatagram (h.opened id stream hget).1 stream.maxPayload payload
      exact ⟨c', by simp only [hc', map_some], hfollows⟩
  | take => exact h.takeReceived

end Accounted

/-- Every sequence of operations goes through, so no counter underflows; afterwards the counters
are those of the queues and within their limits. Once the request of a stream is marked finished,
no sequence of operations queues another capsule for it. -/
theorem capsuleQueues_accounted (h3 : Bool) (events : List QueueEvent) :
    ∃ c, run step { h3 } events = some c ∧ c.Accounted ∧
      ∀ id stream, c.capsuleStreams.get id = some stream → stream.finishedAt.isSome = true →
        ∀ later, ∃ c', run step c later = some c' ∧
          (c'.quic id).queued = (c.quic id).queued := by
  have hstep : ∀ c e, Accounted c → ∃ c', c.step e = some c' ∧ c'.Accounted := by
    intro c e hc
    obtain ⟨c', hc', hfollows⟩ := hc.step e
    exact ⟨c', hc', hfollows.accounted⟩
  obtain ⟨c, hrun, haccounted⟩ := run_total hstep (accounted_start h3) events
  refine ⟨c, hrun, haccounted, fun id stream hget hfinished later => ?_⟩
  have hclosed : c.Closed id (c.quic id).queued := by
    refine ⟨(haccounted.opened id stream hget).2, rfl, fun found hfound => ?_⟩
    rw [hget, some.injEq] at hfound
    exact hfound ▸ hfinished
  have hlater : ∀ (c' : CapsuleConnection) e, c'.Accounted ∧ c'.Closed id (c.quic id).queued →
      ∃ c'', c'.step e = some c'' ∧ c''.Accounted ∧ c''.Closed id (c.quic id).queued := by
    rintro c' e ⟨hc', hclosed'⟩
    obtain ⟨c'', hc'', hfollows⟩ := hc'.step e
    exact ⟨c'', hc'', hfollows.accounted, hfollows.closed id _ hclosed'⟩
  obtain ⟨c', hrun', -, hclosed'⟩ := run_total hlater ⟨haccounted, hclosed⟩ later
  exact ⟨c', hrun', hclosed'.queued_eq⟩

end CapsuleConnection

end MasqueServer
