import MasqueServer.FallibleLists
import MasqueServer.PacketBatch

/-!
# Pacing of outgoing packets

Quiche hands out each packet with the time it should leave at. Packets that are due within the
pacing horizon go into the batch that is being built; the others, and all that come after them, wait
in a bounded queue whose buffers are used again.
-/
namespace MasqueServer

open Function List Option

def maxDeferredPackets : ℕ := 64

def maxDeferredBytes : ℕ := 128 * 1024

def pacingHorizon : ℕ := 1000000

/-- `quiche::SendInfo`, with the time the packet should leave at. -/
structure PacedInfo extends SendInfo where
  leaveAt : ℕ
  deriving DecidableEq

abbrev PacedPacket := Bytes × PacedInfo

/-- A packet as it stands in a batch, with its addresses and without its time. -/
def PacedPacket.toSend (p : PacedPacket) : Bytes × SendInfo := (p.1, p.2.toSendInfo)

/-- A vector of octets with the capacity it was allocated with. -/
structure PacketBuffer where
  data : Bytes
  capacity : ℕ
  fits : data.length ≤ capacity

namespace PacketBuffer

def empty : PacketBuffer := ⟨[], 0, le_rfl⟩

def allocate (packet : Bytes) (extra : ℕ) : PacketBuffer :=
  ⟨packet, packet.length + extra, Nat.le_add_right _ _⟩

def clear (buffer : PacketBuffer) : PacketBuffer := ⟨[], buffer.capacity, Nat.zero_le _⟩

def refill (buffer : PacketBuffer) (packet : Bytes) (extra : ℕ) : PacketBuffer :=
  if h : buffer.capacity < packet.length ∨ max (packet.length * 2) 2048 < buffer.capacity then
    allocate packet extra
  else ⟨packet, buffer.capacity, by omega⟩

@[simp] lemma refill_data (buffer : PacketBuffer) (packet : Bytes) (extra : ℕ) :
    (buffer.refill packet extra).data = packet := by
  unfold refill
  split_ifs <;> rfl

end PacketBuffer

/-- The packets that wait, the oldest first, and the spare buffers, the last one first. -/
structure DeferredSend where
  packets : List (PacketBuffer × PacedInfo) := []
  spare : List PacketBuffer := []
  bytes : ℕ := 0
  spareBytes : ℕ := 0

namespace DeferredSend

variable (d : DeferredSend)

def deadline : Option ℕ := d.packets.head?.map (·.2.leaveAt)

def len : ℕ := d.packets.length

def hasCapacity (maxPacketSize : ℕ) : Bool :=
  d.packets.length < maxDeferredPackets && d.bytes + maxPacketSize ≤ maxDeferredBytes

def canPrefetch : Bool :=
  match d.packets.head?, d.packets.getLast? with
  | some (_, first), some (_, last) => last.leaveAt ≤ first.leaveAt + pacingHorizon
  | _, _ => true

def schedule (packet : Bytes) (info : PacedInfo) (extra : ℕ) : Option DeferredSend := do
  let buffer := d.spare.headD .empty
  let spareBytes ← checkedSub d.spareBytes buffer.capacity
  return {
    packets := d.packets ++ [(buffer.refill packet extra, info)]
    spare := d.spare.tail
    bytes := d.bytes + packet.length
    spareBytes }

def popFront (packet : PacketBuffer) (rest : List (PacketBuffer × PacedInfo)) :
    Option DeferredSend := do
  let bytes ← checkedSub d.bytes packet.data.length
  return { d with packets := rest, bytes }

def takeIfDue (now : ℕ) : Option (Option (PacketBuffer × PacedInfo) × DeferredSend) :=
  match d.packets with
  | [] => some (none, d)
  | (packet, info) :: rest =>
    if now < info.leaveAt then some (none, d)
    else (d.popFront packet rest).map fun d' => (some (packet, info), d')

def recycle (packet : PacketBuffer) : DeferredSend :=
  if d.spare.length < maxDeferredPackets ∧ d.spareBytes + packet.capacity ≤ maxDeferredBytes then
    { d with spare := packet.clear :: d.spare, spareBytes := d.spareBytes + packet.capacity }
  else d

def discardAll : List (PacketBuffer × PacedInfo) → DeferredSend → Option DeferredSend
  | [], d => some d
  | (packet, _) :: rest, d => do
    let d ← d.popFront packet rest
    discardAll rest (d.recycle packet)

def discard : Option DeferredSend := discardAll d.packets d

def contents : List PacedPacket := d.packets.map fun p => (p.1.data, p.2)

end DeferredSend

/-! ### Driving a connection -/

inductive DrivePhase
  | idle
  | head
  | generating
  deriving DecidableEq

/-- What `quiche::Connection::send` answers. -/
inductive QuicheSend
  | packet (data : Bytes) (info : PacedInfo)
  | done
  | failed

/-- A connection that is driven: the queue, the batch, and the variables of one round of the
loop. `produced`, `batched` and `discarded` record the packets quiche handed out, those put into
a batch, and those thrown away; `sent` records what the batches that were handed to the socket are
cut into. -/
structure PacedConnection where
  deferred : DeferredSend := {}
  batch : SendPacketBatch := {}
  phase : DrivePhase := .idle
  maxPacketSize : ℕ := 0
  sendQuantum : ℕ := 0
  enableGso : Bool := false
  generatedBytes : ℕ := 0
  quicheDone : Bool := false
  pacingBlocked : Bool := false
  produced : List PacedPacket := []
  batched : List PacedPacket := []
  discarded : List PacedPacket := []
  sent : List (Bytes × SendInfo) := []

/-- The loop of `drive_connections` over one connection, cut where it asks quiche or the clock.
The batch is shared with other connections and is in any state when this one is driven. -/
inductive DriveEvent
  | drive (closing : Bool) (batch : SendPacketBatch)
  | head (now maxPacketSize sendQuantum : ℕ) (enableGso : Bool)
  | send (now extra : ℕ) (answer : QuicheSend)
  | finish

namespace PacedConnection

variable (c : PacedConnection)

def pushBatch (packet : Bytes) (info : PacedInfo) : Option PacedConnection := do
  let batch ← c.batch.push ⟨packet, info.toSendInfo, c.enableGso, c.sendQuantum⟩
  return { c with batch, batched := c.batched ++ [(packet, info)] }

def releaseDue (horizon : ℕ) : ℕ → PacedConnection → Option PacedConnection
  | 0, c => some c
  | left + 1, c => do
    let (taken, deferred) ← c.deferred.takeIfDue horizon
    match taken with
    | none => return { c with deferred }
    | some (packet, info) =>
      let c ← pushBatch
        { c with deferred, generatedBytes := c.generatedBytes + packet.data.length }
        packet.data info
      releaseDue horizon left { c with deferred := c.deferred.recycle packet }

def drive (closing : Bool) (batch : SendPacketBatch) : Option PacedConnection :=
  if closing then do
    let deferred ← c.deferred.discard
    return { c with
      deferred, batch, phase := .head, discarded := c.discarded ++ c.deferred.contents }
  else some { c with batch, phase := .head }

def roundHead (now maxPacketSize sendQuantum : ℕ) (enableGso : Bool) : Option PacedConnection :=
  let c := { c with
    batch := c.batch.clear
    maxPacketSize
    sendQuantum := min (max sendQuantum maxPacketSize) maxDatagramSize
    enableGso
    generatedBytes := 0
    quicheDone := false
    pacingBlocked := false }
  match c.deferred.deadline with
  | none => some { c with phase := .generating }
  | some deadline =>
    if now < deadline then some { c with phase := .idle }
    else do
      let c ← releaseDue (now + pacingHorizon) c.deferred.len c
      return { c with phase := .generating, pacingBlocked := c.deferred.deadline.isSome }

def mayGenerate : Bool :=
  !c.quicheDone && !c.pacingBlocked &&
    c.batch.packetCount + c.deferred.len < maxBatchPackets &&
    c.generatedBytes < c.sendQuantum && c.deferred.hasCapacity c.maxPacketSize

def generate (now extra : ℕ) : QuicheSend → Option PacedConnection
  | .done => some { c with quicheDone := true }
  | .failed => some { c with quicheDone := true }
  | .packet data info =>
    let c := { c with
      generatedBytes := c.generatedBytes + data.length
      produced := c.produced ++ [(data, info)] }
    if now + pacingHorizon < info.leaveAt ∨ c.deferred.len ≠ 0 then do
      let deferred ← c.deferred.schedule data info extra
      return { c with
        deferred, pacingBlocked := if deferred.canPrefetch then c.pacingBlocked else true }
    else c.pushBatch data info

/-- The batch is sent, whatever becomes of it, and the next round begins unless nothing more
can leave now. -/
def finishRound : PacedConnection :=
  if c.batch.packetCount = 0 then { c with phase := .idle }
  else
    let c := { c with sent := c.sent ++ c.batch.active.flatMap SendMessage.pieces }
    if c.quicheDone || c.pacingBlocked || c.deferred.deadline.isSome then { c with phase := .idle }
    else { c with phase := .head }

def step : PacedConnection → DriveEvent → Option PacedConnection
  | c, .drive closing batch => if c.phase = .idle then c.drive closing batch else some c
  | c, .head now maxPacketSize sendQuantum enableGso =>
    if c.phase = .head then c.roundHead now maxPacketSize sendQuantum enableGso else some c
  | c, .send now extra answer =>
    if c.phase = .generating ∧ c.mayGenerate then c.generate now extra answer else some c
  | c, .finish =>
    if c.phase = .generating ∧ !c.mayGenerate then some c.finishRound else some c

end PacedConnection

/-! ### The queue -/

namespace DeferredSend

variable {d d' : DeferredSend}

/-- The counters are those of the queue and of the spare buffers, and both are bounded. -/
structure Sound (d : DeferredSend) : Prop where
  bytes_eq : d.bytes = (d.contents.map (·.1.length)).sum
  spareBytes_eq : d.spareBytes = (d.spare.map PacketBuffer.capacity).sum
  len_le : d.len ≤ maxDeferredPackets
  bytes_le : d.bytes ≤ maxDeferredBytes

lemma Sound.default : Sound {} := ⟨rfl, rfl, Nat.zero_le _, Nat.zero_le _⟩

lemma Sound.schedule (h : d.Sound) {limit : ℕ} (hroom : d.hasCapacity limit = true)
    {packet : Bytes} (hpacket : packet.length ≤ limit) (info : PacedInfo) (extra : ℕ) :
    ∃ d', d.schedule packet info extra = some d' ∧ d'.Sound ∧
      d'.contents = d.contents ++ [(packet, info)] := by
  rw [hasCapacity, Bool.and_eq_true, decide_eq_true_eq, decide_eq_true_eq] at hroom
  have hspare : (d.spare.headD .empty).capacity + (d.spare.tail.map PacketBuffer.capacity).sum =
      d.spareBytes := by
    rw [h.spareBytes_eq]
    cases d.spare <;> simp [PacketBuffer.empty]
  have hcontents : DeferredSend.contents
      { packets := d.packets ++ [((d.spare.headD .empty).refill packet extra, info)] } =
        d.contents ++ [(packet, info)] := by
    simp [contents]
  have hbytes := h.bytes_eq
  simp only [DeferredSend.schedule, checkedSub_eq (Nat.le.intro hspare), bind_eq_bind,
    bind_some, Option.pure_def]
  refine ⟨_, rfl, ⟨?_, ?_, ?_, ?_⟩, hcontents⟩
  · have hsum := congrArg (fun packets => (packets.map (·.1.length)).sum) hcontents
    simp only [map_append, sum_append, map_cons, map_nil, sum_cons,
      sum_nil, Nat.add_zero] at hsum
    rw [hbytes]
    exact hsum.symm
  · simp only
    omega
  · simp only [len, length_append, length_singleton]
    omega
  · simp only
    omega

lemma Sound.popFront (h : d.Sound) {packet : PacketBuffer} {info : PacedInfo}
    {rest : List (PacketBuffer × PacedInfo)} (hfront : d.packets = (packet, info) :: rest) :
    ∃ d', d.popFront packet rest = some d' ∧ d'.Sound ∧ d'.packets = rest := by
  have hbytes : d.bytes = packet.data.length + (rest.map (·.1.data.length)).sum := by
    rw [h.bytes_eq, contents, hfront]
    simp [comp_def]
  have hlen := h.len_le
  have hmax := h.bytes_le
  rw [len, hfront, length_cons] at hlen
  simp only [DeferredSend.popFront, checkedSub_eq (show packet.data.length ≤ d.bytes by omega),
    bind_eq_bind, bind_some, Option.pure_def]
  refine ⟨_, rfl, ⟨?_, h.spareBytes_eq, ?_, ?_⟩, rfl⟩
  · simp only [contents, List.map_map, comp_def]
    omega
  · simp only [len]
    omega
  · simp only
    omega

lemma Sound.recycle (h : d.Sound) (packet : PacketBuffer) :
    (d.recycle packet).Sound ∧ (d.recycle packet).packets = d.packets := by
  unfold DeferredSend.recycle
  split_ifs with hroom
  · refine ⟨⟨h.bytes_eq, ?_, h.len_le, h.bytes_le⟩, rfl⟩
    simp only [map_cons, sum_cons, PacketBuffer.clear, h.spareBytes_eq]
    omega
  · exact ⟨h, rfl⟩

lemma Sound.takeIfDue (h : d.Sound) (now : ℕ) :
    d.takeIfDue now = some (none, d) ∨
      ∃ packet info d', d.takeIfDue now = some (some (packet, info), d') ∧ d'.Sound ∧
        d.contents = (packet.data, info) :: d'.contents := by
  unfold DeferredSend.takeIfDue
  cases hpackets : d.packets with
  | nil => exact .inl rfl
  | cons front rest =>
    obtain ⟨packet, info⟩ := front
    by_cases hdue : now < info.leaveAt
    · exact .inl (if_pos hdue)
    · obtain ⟨d', hpop, hsound, hrest⟩ := h.popFront hpackets
      refine .inr ⟨packet, info, d', ?_, hsound, ?_⟩
      · simp only [if_neg hdue, hpop, map_some]
      · rw [contents, contents, hpackets, hrest]
        rfl

lemma Sound.discardAll (h : d.Sound) :
    ∃ d', DeferredSend.discardAll d.packets d = some d' ∧ d'.Sound ∧ d'.packets = [] := by
  generalize hpackets : d.packets = packets
  induction packets generalizing d with
  | nil => exact ⟨d, rfl, h, hpackets⟩
  | cons front rest ih =>
    obtain ⟨packet, info⟩ := front
    obtain ⟨d₁, hpop, hsound, hrest⟩ := h.popFront hpackets
    obtain ⟨hsound', hsame⟩ := hsound.recycle packet
    obtain ⟨d', hdiscard, hd'⟩ := ih hsound' (hsame.trans hrest)
    exact ⟨d', by rw [DeferredSend.discardAll, hpop]; exact hdiscard, hd'⟩

end DeferredSend

/-! ### The fate of packets -/

section Fates

variable {α : Type*} {produced sent dropped waiting : List α} {a : α}

def Fates (produced sent dropped waiting : List α) : Prop :=
  ∃ history : List (α × Bool), produced = history.map Prod.fst ++ waiting ∧
    sent = (history.filter (·.2)).map Prod.fst ∧ dropped = (history.filter (!·.2)).map Prod.fst

lemma Fates.produce (h : Fates produced sent dropped waiting) (a : α) :
    Fates (produced ++ [a]) sent dropped (waiting ++ [a]) := by
  obtain ⟨history, rfl, hsent, hdropped⟩ := h
  exact ⟨history, append_assoc _ _ _, hsent, hdropped⟩

lemma Fates.mem_produced (h : Fates produced sent dropped waiting) (ha : a ∈ waiting) :
    a ∈ produced := by
  obtain ⟨history, rfl, -⟩ := h
  exact mem_append_right _ ha

lemma Fates.send (h : Fates produced sent dropped (a :: waiting)) :
    Fates produced (sent ++ [a]) dropped waiting := by
  obtain ⟨history, rfl, rfl, rfl⟩ := h
  exact ⟨history ++ [(a, true)], by simp, by simp, by simp⟩

lemma Fates.drop (h : Fates produced sent dropped waiting) :
    Fates produced sent (dropped ++ waiting) [] := by
  obtain ⟨history, rfl, rfl, rfl⟩ := h
  exact ⟨history ++ waiting.map (·, false), by simp [comp_def], by simp [List.filter_map,
    comp_def], by simp [List.filter_map, comp_def]⟩

lemma Fates.eq_append (h : Fates produced sent [] waiting) : produced = sent ++ waiting := by
  obtain ⟨history, rfl, rfl, hdropped⟩ := h
  have hall : history.filter (·.2) = history := by
    refine filter_eq_self.mpr fun entry hmem => ?_
    by_contra hfalse
    have hdrop : entry ∈ history.filter (!·.2) := mem_filter.mpr ⟨hmem, by simpa using hfalse⟩
    rw [map_eq_nil_iff.mp hdropped.symm] at hdrop
    exact not_mem_nil hdrop
  rw [hall]

end Fates

/-! ### Runs -/

namespace PacedConnection

variable {c c' : PacedConnection}

/-- What the batch that is being built is cut into. -/
def building (c : PacedConnection) : List (Bytes × SendInfo) :=
  if c.phase = .generating then c.batch.active.flatMap SendMessage.pieces else []

/-- The batches handed on and the one being built hold the packets that were put into them. An
empty packet would leave no trace in an aggregate; quiche hands out none. -/
def Filled (c : PacedConnection) : Prop :=
  (∀ p ∈ c.produced, p.1 ≠ []) →
    ∃ current, c.batch.Contains current ∧ c.sent ++ current = c.batched.map PacedPacket.toSend

/-- The books of a connection while a batch is built. -/
structure Balanced (c : PacedConnection) : Prop where
  deferred : c.deferred.Sound
  batch : c.batch.used ≤ c.batch.messages.length
  fates : Fates c.produced c.batched c.discarded c.deferred.contents
  filled : c.Filled

/-- A packet is added to the batch, to the packets that it holds and to the record. -/
lemma pushBatch_spec (hbatch : c.batch.used ≤ c.batch.messages.length) (packet : Bytes)
    (info : PacedInfo) :
    ∃ batch, c.pushBatch packet info =
        some { c with batch := batch, batched := c.batched ++ [(packet, info)] } ∧
      batch.used ≤ batch.messages.length ∧
      (c.Filled → (packet, info) ∈ c.produced →
        Filled { c with batch := batch, batched := c.batched ++ [(packet, info)] }) := by
  obtain ⟨batch, hpush, hused, -⟩ := SendPacketBatch.push_cases hbatch
    ⟨packet, info.toSendInfo, c.enableGso, c.sendQuantum⟩
  refine ⟨batch, ?_, hused, fun hfilled hmem hnonempty => ?_⟩
  · simp only [pushBatch, hpush, bind_eq_bind, bind_some, Option.pure_def]
  · obtain ⟨current, hcontains, heq⟩ := hfilled hnonempty
    obtain ⟨batch', hpush', hcontains'⟩ := hcontains.push
      (p := ⟨packet, info.toSendInfo, c.enableGso, c.sendQuantum⟩) (hnonempty _ hmem)
    obtain rfl := some.inj (hpush.symm.trans hpush')
    refine ⟨_, hcontains', ?_⟩
    rw [← append_assoc, heq, map_append]
    rfl

lemma Balanced.releaseDue (h : c.Balanced) (horizon left : ℕ) :
    ∃ c', PacedConnection.releaseDue horizon left c = some c' ∧ c'.Balanced ∧
      c'.discarded = c.discarded ∧ c'.produced = c.produced := by
  induction left generalizing c with
  | zero => exact ⟨c, rfl, h, rfl, rfl⟩
  | succ left ih =>
    rw [PacedConnection.releaseDue]
    rcases h.deferred.takeIfDue horizon with hwait | ⟨packet, info, deferred, htake, hsound, hfront⟩
    · rw [hwait]
      exact ⟨_, rfl, h, rfl, rfl⟩
    · have hfates := h.fates
      rw [hfront] at hfates
      obtain ⟨batch, hpush, hused, hfilled⟩ := pushBatch_spec (c := { c with
        deferred := deferred
        generatedBytes := c.generatedBytes + packet.data.length }) h.batch packet.data info
      obtain ⟨hsound', hsame⟩ := hsound.recycle packet
      have hcontents : (deferred.recycle packet).contents = deferred.contents := by
        rw [DeferredSend.contents, hsame]
        rfl
      simp only [htake, bind_eq_bind, bind_some, hpush]
      refine ih ⟨hsound', hused, ?_,
        hfilled h.filled (hfates.mem_produced mem_cons_self)⟩
      simp only [hcontents]
      exact hfates.send

/-- What holds whenever the connection waits for an event. -/
structure Sound (c : PacedConnection) : Prop where
  deferred : c.deferred.Sound
  batch : c.phase = .generating → c.batch.used ≤ c.batch.messages.length
  fates : Fates c.produced c.batched c.discarded c.deferred.contents
  filled : c.phase = .generating → c.Filled
  handedOn : c.phase ≠ .generating → (∀ p ∈ c.produced, p.1 ≠ []) →
    c.sent = c.batched.map PacedPacket.toSend

lemma Sound.sent_building (h : c.Sound) (hnonempty : ∀ p ∈ c.produced, p.1 ≠ []) :
    c.sent ++ c.building = c.batched.map PacedPacket.toSend := by
  unfold building
  split_ifs with hphase
  · obtain ⟨current, hcontains, heq⟩ := h.filled hphase hnonempty
    rw [hcontains.pieces, heq]
  · rw [append_nil, h.handedOn hphase hnonempty]

lemma Sound.drive (h : c.Sound) (hphase : c.phase = .idle) (closing : Bool)
    (batch : SendPacketBatch) :
    ∃ c', c.drive closing batch = some c' ∧ c'.Sound ∧
      (closing = false → c'.discarded = c.discarded) ∧ c'.produced = c.produced := by
  have hhanded := h.handedOn (by simp [hphase])
  cases closing with
  | false => exact ⟨_, rfl, ⟨h.deferred, nofun, h.fates, nofun, fun _ => hhanded⟩, fun _ =>
    rfl, rfl⟩
  | true =>
    obtain ⟨deferred, hdiscard, hsound, hempty⟩ := h.deferred.discardAll
    have hdiscard' : c.deferred.discard = some deferred := hdiscard
    simp only [PacedConnection.drive, if_true, hdiscard', bind_eq_bind, bind_some,
      Option.pure_def]
    refine ⟨_, rfl, ⟨hsound, nofun, ?_, nofun, fun _ => hhanded⟩, nofun, rfl⟩
    simp only [DeferredSend.contents, hempty, map_nil]
    exact h.fates.drop

lemma Sound.roundHead (h : c.Sound) (hphase : c.phase = .head)
    (now maxPacketSize sendQuantum : ℕ) (enableGso : Bool) :
    ∃ c', c.roundHead now maxPacketSize sendQuantum enableGso = some c' ∧ c'.Sound ∧
      c'.discarded = c.discarded ∧ c'.produced = c.produced := by
  have hhanded := h.handedOn (by simp [hphase])
  have hfilled : Filled { c with batch := c.batch.clear } := fun hnonempty =>
    ⟨[], c.batch.contains_clear, by rw [append_nil, hhanded hnonempty]⟩
  unfold PacedConnection.roundHead
  simp only
  cases c.deferred.deadline with
  | none =>
    exact ⟨_, rfl, ⟨h.deferred, fun _ => Nat.zero_le _, h.fates, fun _ => hfilled,
      fun hno => absurd rfl hno⟩, rfl, rfl⟩
  | some deadline =>
    simp only
    split_ifs with hearly
    · exact ⟨_, rfl, ⟨h.deferred, nofun, h.fates, nofun, fun _ => hhanded⟩, rfl, rfl⟩
    · have hbalanced : Balanced { c with
          batch := c.batch.clear
          maxPacketSize := maxPacketSize
          sendQuantum := min (max sendQuantum maxPacketSize) maxDatagramSize
          enableGso := enableGso
          generatedBytes := 0
          quicheDone := false
          pacingBlocked := false } := ⟨h.deferred, Nat.zero_le _, h.fates, hfilled⟩
      obtain ⟨c', hrelease, hc', hsame⟩ :=
        hbalanced.releaseDue (now + pacingHorizon) c.deferred.len
      simp only [hrelease, bind_eq_bind, bind_some, Option.pure_def]
      exact ⟨_, rfl, ⟨hc'.deferred, fun _ => hc'.batch, hc'.fates, fun _ => hc'.filled,
        fun hno => absurd rfl hno⟩, hsame⟩

def WithinLimit (c : PacedConnection) : DriveEvent → Prop
  | .send _ _ (.packet data _) => data.length ≤ c.maxPacketSize
  | _ => True

instance decidableWithinLimit (c : PacedConnection) : ∀ e, Decidable (c.WithinLimit e)
  | .send _ _ (.packet data _) => inferInstanceAs (Decidable (data.length ≤ c.maxPacketSize))
  | .send _ _ .done => isTrue trivial
  | .send _ _ .failed => isTrue trivial
  | .drive _ _ => isTrue trivial
  | .head _ _ _ _ => isTrue trivial
  | .finish => isTrue trivial

/-- The packet that quiche hands out, where it is asked for one. -/
def handsOut (c : PacedConnection) : DriveEvent → List PacedPacket
  | .send _ _ (.packet data info) =>
    if c.phase = .generating ∧ c.mayGenerate then [(data, info)] else []
  | _ => []

lemma handsOut_eq_nil {now extra : ℕ} {answer : QuicheSend}
    (hmay : ¬(c.phase = .generating ∧ c.mayGenerate = true)) :
    c.handsOut (.send now extra answer) = [] := by
  cases answer with
  | packet data info => exact if_neg hmay
  | done => rfl
  | failed => rfl

lemma Sound.generate (h : c.Sound) (hmay : c.phase = .generating ∧ c.mayGenerate = true)
    {now extra : ℕ} {answer : QuicheSend} (hlimit : c.WithinLimit (.send now extra answer)) :
    ∃ c', c.generate now extra answer = some c' ∧ c'.Sound ∧ c'.discarded = c.discarded ∧
      c'.produced = c.produced ++ c.handsOut (.send now extra answer) := by
  obtain ⟨hphase, hgenerate⟩ := hmay
  have hroom : c.deferred.hasCapacity c.maxPacketSize = true := by
    unfold mayGenerate at hgenerate
    exact (Bool.and_eq_true _ _ ▸ hgenerate).2
  cases answer with
  | done =>
    exact ⟨_, rfl, ⟨h.deferred, h.batch, h.fates, h.filled, h.handedOn⟩, rfl,
      (append_nil _).symm⟩
  | failed =>
    exact ⟨_, rfl, ⟨h.deferred, h.batch, h.fates, h.filled, h.handedOn⟩, rfl,
      (append_nil _).symm⟩
  | packet data info =>
    -- The packets before this one were not empty either.
    have hfilled : Filled { c with produced := c.produced ++ [(data, info)] } := fun hnonempty =>
      h.filled hphase fun p hp => hnonempty p (mem_append_left _ hp)
    simp only [PacedConnection.generate, handsOut, if_pos (And.intro hphase hgenerate)]
    split_ifs with hwait
    · obtain ⟨deferred, hschedule, hsound, hcontents⟩ :=
        h.deferred.schedule hroom hlimit info extra
      simp only [hschedule, bind_eq_bind, bind_some, Option.pure_def]
      refine ⟨_, rfl, ⟨hsound, h.batch, ?_, fun _ => hfilled, fun hno => absurd hphase hno⟩, rfl,
        rfl⟩
      simp only [hcontents]
      exact h.fates.produce _
    · rw [not_or, not_not] at hwait
      have hempty : c.deferred.contents = [] := by
        rw [DeferredSend.contents, length_eq_zero_iff.mp hwait.2, map_nil]
      obtain ⟨batch, hpush, hused, hpushed⟩ := pushBatch_spec (c := { c with
        generatedBytes := c.generatedBytes + data.length
        produced := c.produced ++ [(data, info)] }) (h.batch hphase) data info
      have hmem : (data, info) ∈ c.produced ++ [(data, info)] := by simp
      refine ⟨_, hpush, ⟨h.deferred, fun _ => hused, ?_, fun _ => hpushed hfilled hmem,
        fun hno => absurd hphase hno⟩, rfl, rfl⟩
      have hfates := h.fates.produce (data, info)
      rw [hempty, nil_append] at hfates
      simp only [hempty]
      exact hfates.send

lemma Sound.finishRound (h : c.Sound) (hphase : c.phase = .generating) :
    c.finishRound.Sound ∧ c.finishRound.discarded = c.discarded ∧
      c.finishRound.produced = c.produced := by
  have hsent (hnonempty : ∀ p ∈ c.produced, p.1 ≠ []) :
      c.sent ++ c.batch.active.flatMap SendMessage.pieces = c.batched.map PacedPacket.toSend := by
    simpa only [building, if_pos hphase] using h.sent_building hnonempty
  unfold PacedConnection.finishRound
  simp only
  split_ifs with hempty
  · refine ⟨⟨h.deferred, nofun, h.fates, nofun, fun _ hnonempty => ?_⟩, rfl, rfl⟩
    obtain ⟨current, hcontains, heq⟩ := h.filled hphase hnonempty
    rw [eq_nil_of_length_eq_zero (hcontains.packetCount.symm.trans hempty),
      append_nil] at heq
    exact heq
  · exact ⟨⟨h.deferred, nofun, h.fates, nofun, fun _ => hsent⟩, rfl, rfl⟩
  · exact ⟨⟨h.deferred, nofun, h.fates, nofun, fun _ => hsent⟩, rfl, rfl⟩

lemma Sound.step (h : c.Sound) {e : DriveEvent} (hlimit : c.WithinLimit e) :
    ∃ c', c.step e = some c' ∧ c'.Sound ∧
      ((∀ batch, e ≠ .drive true batch) → c'.discarded = c.discarded) ∧
      c'.produced = c.produced ++ c.handsOut e := by
  cases e with
  | drive closing batch =>
    simp only [PacedConnection.step]
    split_ifs with hphase
    · obtain ⟨c', hdrive, hc', hkeep, hproduced⟩ := h.drive hphase closing batch
      refine ⟨c', hdrive, hc', fun hopen => hkeep ?_, hproduced.trans (append_nil _).symm⟩
      cases closing with
      | false => rfl
      | true => exact absurd rfl (hopen batch)
    · exact ⟨c, rfl, h, fun _ => rfl, (append_nil _).symm⟩
  | head now maxPacketSize sendQuantum enableGso =>
    simp only [PacedConnection.step]
    split_ifs with hphase
    · obtain ⟨c', hhead, hc', hkeep, hproduced⟩ :=
        h.roundHead hphase now maxPacketSize sendQuantum enableGso
      exact ⟨c', hhead, hc', fun _ => hkeep, hproduced.trans (append_nil _).symm⟩
    · exact ⟨c, rfl, h, fun _ => rfl, (append_nil _).symm⟩
  | send now extra answer =>
    simp only [PacedConnection.step]
    split_ifs with hmay
    · obtain ⟨c', hgenerate, hc', hkeep, hproduced⟩ := h.generate hmay hlimit
      exact ⟨c', hgenerate, hc', fun _ => hkeep, hproduced⟩
    · exact ⟨c, rfl, h, fun _ => rfl, by rw [handsOut_eq_nil hmay, append_nil]⟩
  | finish =>
    simp only [PacedConnection.step]
    split_ifs with hmay
    · obtain ⟨hsound, hkeep, hproduced⟩ := h.finishRound hmay.1
      exact ⟨_, rfl, hsound, fun _ => hkeep, hproduced.trans (append_nil _).symm⟩
    · exact ⟨c, rfl, h, fun _ => rfl, (append_nil _).symm⟩

lemma sound_default : Sound {} := ⟨.default, nofun, ⟨[], rfl, rfl, rfl⟩, nofun, fun _ _ => rfl⟩

/-- Pacing keeps the order of the packets. Whatever quiche produces and whenever the connection
is driven, no counter underflows; what is produced are the packets quiche hands out, in the order of
the events; every packet has in its turn been put into a batch or thrown away, up to those that
wait, and none is thrown away unless the connection closes; what was put into batches is what the
batches handed to the socket and the one being built are cut into; and the counters of the queue are
exact and bounded. -/
theorem pacing_keeps_order (events : List DriveEvent)
    (hlimit : Meets WithinLimit step {} events) :
    ∃ c, run step {} events = some c ∧
      c.produced = collect handsOut step {} events ∧
      Fates c.produced c.batched c.discarded c.deferred.contents ∧
      ((∀ batch, DriveEvent.drive true batch ∉ events) →
        c.produced = c.batched ++ c.deferred.contents) ∧
      ((∀ p ∈ c.produced, p.1 ≠ []) →
        c.sent ++ c.building = c.batched.map PacedPacket.toSend) ∧
      c.deferred.bytes = (c.deferred.contents.map (·.1.length)).sum ∧
      c.deferred.spareBytes = (c.deferred.spare.map PacketBuffer.capacity).sum ∧
      c.deferred.len ≤ 64 ∧ c.deferred.bytes ≤ 128 * 1024 := by
  obtain ⟨c, hrun, hc⟩ := run_total_of_meets
    (fun c e (h : c.Sound) hlimit => (h.step hlimit).imp fun c' hc' => ⟨hc'.1, hc'.2.1⟩)
    sound_default hlimit
  have hsteps (s : PacedConnection) (e : DriveEvent) (s' : PacedConnection) (hs : s.Sound)
      (hall : s.WithinLimit e) (hstep : s.step e = some s') :
      s'.Sound ∧ ((∀ batch, e ≠ .drive true batch) → s'.discarded = s.discarded) ∧
        s'.produced = s.produced ++ s.handsOut e := by
    obtain ⟨t, ht, hstepped⟩ := hs.step hall
    rw [hstep, some.injEq] at ht
    exact ht ▸ hstepped
  have hproduced : c.produced = produced {} ++ collect handsOut step {} events :=
    run_collects (fun s e s' hs hall hstep => (hsteps s e s' hs hall hstep).imp_right And.right)
      sound_default hlimit hrun
  refine ⟨c, hrun, hproduced, hc.fates, fun hopen => ?_, hc.sent_building, hc.deferred.bytes_eq,
    hc.deferred.spareBytes_eq, hc.deferred.len_le, hc.deferred.bytes_le⟩
  have hnever : Meets (fun _ e => ∀ batch, e ≠ DriveEvent.drive true batch) step {} events :=
    meets_of_forall_mem fun e he batch heq => hopen batch (heq ▸ he)
  have hkeeps (s : PacedConnection) (e : DriveEvent) (s' : PacedConnection)
      (hs : s.Sound ∧ s.discarded = [])
      (hall : s.WithinLimit e ∧ ∀ batch, e ≠ DriveEvent.drive true batch)
      (hstep : s.step e = some s') : s'.Sound ∧ s'.discarded = [] := by
    obtain ⟨hsound, hkeep, -⟩ := hsteps s e s' hs.1 hall.1 hstep
    exact ⟨hsound, (hkeep hall.2).trans hs.2⟩
  have hkept := run_invariant hkeeps ⟨sound_default, rfl⟩ (hlimit.and hnever) hrun
  have hfates := hc.fates
  rw [hkept.2] at hfates
  exact hfates.eq_append

/-- Three packets; the second is due later. -/
def pacedPackets : List PacedPacket :=
  let info (leaveAt : ℕ) : PacedInfo := ⟨⟨.v4 0xc0000201 443, .v4 0xc6336401 5000⟩, leaveAt⟩
  [([1, 2], info 0), ([3], info 5000000), ([4], info 0)]

/-- The first leaves at once, the others wait for the next time the connection is driven. -/
def pacedEvents : List DriveEvent :=
  [.drive false {}, .head 0 1200 12000 false] ++
    pacedPackets.map (fun p => .send 0 0 (.packet p.1 p.2)) ++
    [.send 0 0 .done, .finish, .drive false {}, .head 5000000 1200 12000 false,
      .send 5000000 0 .done, .finish]

theorem pacing_keeps_order_deferred :
    Meets WithinLimit step {} pacedEvents ∧
      ∃ c, run step {} pacedEvents = some c ∧ c.produced = pacedPackets ∧
        c.deferred.contents = [] ∧ c.sent ++ c.building = pacedPackets.map PacedPacket.toSend := by
  have hlimit : Meets WithinLimit step {} pacedEvents := by decide +kernel
  obtain ⟨c, hrun, hproduced, -, hopen, hsent, -⟩ := pacing_keeps_order pacedEvents hlimit
  have hpackets : c.produced = pacedPackets := hproduced.trans (by decide +kernel)
  have hwaiting : c.deferred.contents = [] := by
    have hend : (run step {} pacedEvents).map (·.deferred.contents) = some [] := by decide +kernel
    rw [hrun] at hend
    exact some.inj hend
  have hbatched : c.batched = pacedPackets := by
    have hall := hopen (by simp [pacedEvents])
    rw [hwaiting, append_nil] at hall
    exact hall.symm.trans hpackets
  rw [hpackets, hbatched] at hsent
  exact ⟨hlimit, c, hrun, hpackets, hwaiting, hsent (by decide +kernel)⟩

end PacedConnection

end MasqueServer
