import MasqueServer.AddressReplies
import MasqueServer.ProbeChecksums
import MasqueServer.RetryTokens

/-!
# Probe packets

The probe client sends one UDP packet through a CONNECT-IP tunnel and judges the packet that comes
back: an echo of its payload, or a DNS response to its query. A packet is written into a zeroed
buffer field by field.
-/
namespace MasqueServer.Probe

open List Option

structure ProbeFailure where
  code : String
  detail : String
  deriving DecidableEq

def invalid (detail : String) : ProbeFailure := ⟨"CONNECT_IP_RESPONSE_INVALID", detail⟩

/-! ### Packets -/

def copyAt (start : ℕ) (bytes packet : Bytes) : Bytes :=
  packet.take start ++ (bytes ++ packet.drop (start + bytes.length))

def pseudoHeader (udpLen : ℕ) : IpAddr → IpAddr → Option Bytes
  | .v4 source, .v4 target =>
    some (toBeBytes 4 source ++ toBeBytes 4 target ++ [0, 17] ++
      toBeBytes 2 (BitVec.ofNat 16 udpLen))
  | .v6 source, .v6 target =>
    some (toBeBytes 16 source ++ toBeBytes 16 target ++ toBeBytes 4 (BitVec.ofNat 32 udpLen) ++
      [0, 0, 0, 17])
  | _, _ => none

def udpChecksum (source target : IpAddr) (udp : Bytes) : Option (BitVec 16) := do
  let pseudo ← pseudoHeader udp.length source target
  checksum (pseudo ++ udp)

def headerLen (source : SocketAddr) : ℕ := if isV4 source.ip then 20 else 40

def writeHeader (packet : Bytes) : IpAddr → IpAddr → Option Bytes
  | .v4 source, .v4 target => do
    let total := BitVec.ofNat 16 packet.length
    let fields := copyAt 16 (toBeBytes 4 target) <| copyAt 12 (toBeBytes 4 source) <|
      copyAt 9 [17] <| copyAt 8 [64] <| copyAt 6 [0x40] <| copyAt 2 (toBeBytes 2 total) <|
      copyAt 0 [0x45] packet
    let sum ← checksum (fields.take 20)
    some (copyAt 10 (toBeBytes 2 sum) fields)
  | .v6 source, .v6 target =>
    let total := BitVec.ofNat 16 packet.length
    some (copyAt 24 (toBeBytes 16 target) <| copyAt 8 (toBeBytes 16 source) <| copyAt 7 [64] <|
      copyAt 6 [17] <| copyAt 4 (toBeBytes 2 (total - 40)) <| copyAt 0 [0x60] packet)
  | _, _ => none

def writeUdp (source target : SocketAddr) (payload udp : Bytes) : Option Bytes := do
  let length := BitVec.ofNat 16 udp.length
  let fields := copyAt 8 payload <| copyAt 4 (toBeBytes 2 length) <|
    copyAt 2 (toBeBytes 2 target.port) <| copyAt 0 (toBeBytes 2 source.port) udp
  let sum ← udpChecksum source.ip target.ip fields
  some (copyAt 6 (toBeBytes 2 (if sum = 0 then 0xffff else sum)) fields)

def udpPacket (source target : SocketAddr) (payload : Bytes) : Option Bytes := do
  let offset := headerLen source
  let packet ← writeHeader (List.replicate (offset + 8 + payload.length) 0) source.ip target.ip
  let udp ← writeUdp source target payload (packet.drop offset)
  some (packet.take offset ++ udp)

/-! ### Exchanges -/

/-- One request; its addresses are of one family, and a query begins with its identifier. -/
structure IpExchange where
  source : SocketAddr
  target : SocketAddr
  payload : Bytes
  dns : Bool
  sameFamily : isV4 source.ip = isV4 target.ip
  queryId : dns = true → 2 ≤ payload.length

def assignedSource (addresses : List AssignedAddress) (target : SocketAddr) : Option IpAddr :=
  (addresses.filter fun entry => entry.requestId = 0).findSome? fun entry =>
    if isV4 entry.ip = isV4 target.ip ∧ isUnspecified entry.ip = false then some entry.ip else none

lemma isV4_of_assignedSource {addresses : List AssignedAddress} {target : SocketAddr} {ip : IpAddr}
    (h : assignedSource addresses target = some ip) : isV4 ip = isV4 target.ip := by
  obtain ⟨entry, -, hentry⟩ := exists_of_findSome?_eq_some h
  split_ifs at hentry with hfits
  exact some.inj hentry ▸ hfits.1

def socketAddr : IpAddr → BitVec 16 → SocketAddr
  | .v4 ip, port => .v4 ip port
  | .v6 ip, port => .v6 ip port 0 0

@[simp] lemma ip_socketAddr (ip : IpAddr) (port : BitVec 16) : (socketAddr ip port).ip = ip := by
  cases ip <;> rfl

def dnsQuery : Bytes :=
  [0x4d, 0x51, 0x01, 0x00, 0x00, 0x01, 0x00, 0x00, 0x00, 0x00, 0x00, 0x00,
    7, 101, 120, 97, 109, 112, 108, 101, 3, 99, 111, 109, 0, 0, 1, 0, 1]

namespace IpExchange

def new (addresses : List AssignedAddress) (target : SocketAddr) (dns : Bool)
    (random : Option {octets : Bytes // octets.length = 32}) :
    Except ProbeFailure IpExchange :=
  if target.port = 0 then .error (invalid "inner UDP target port must be nonzero")
  else
    match hsource : assignedSource addresses target with
    | none => .error ⟨"CONNECT_IP_NO_ADDRESS", "no assigned address matches the IP target family"⟩
    | some source =>
      match random with
      | none => .error (invalid "cannot generate IP probe nonce")
      | some ⟨octets, hlen⟩ =>
        .ok
          { source := socketAddr source (49152 + fromBeBytes 16 (octets.take 2) % 16384)
            target := target
            payload := if dns then copyAt 0 (slice octets 2 2) dnsQuery else octets
            dns := dns
            sameFamily := by rw [ip_socketAddr, isV4_of_assignedSource hsource]
            queryId := fun hdns => by
              rw [if_pos hdns]
              simp [copyAt, slice, hlen, dnsQuery] }

def packet (e : IpExchange) : Option Bytes := udpPacket e.source e.target e.payload

end IpExchange

/-- How a judgement ends early: with a failure, or with a panic. -/
inductive Halt
  | panic
  | failed (failure : ProbeFailure)
  deriving DecidableEq

abbrev Judgement := Except Halt

def reject {α : Type} (detail : String) : Judgement α := .error (.failed (invalid detail))

def orPanic {α : Type} : Option α → Judgement α
  | none => .error .panic
  | some a => .ok a

def range (bytes : Bytes) (start stop : ℕ) : Judgement Bytes :=
  if start ≤ stop ∧ stop ≤ bytes.length then .ok (slice bytes start (stop - start))
  else .error .panic

def payloadOffset (header : IpPacketInfo) (packet : Bytes) : Judgement ℕ :=
  if header.version = 4 then do
    let first ← orPanic packet[0]?
    let length := (first &&& 15).toNat * 4
    let flags ← orPanic packet[6]?
    if flags &&& 0x3f ≠ 0 then reject "fragmented or corrupt IPv4 response"
    else do
      let fragment ← orPanic packet[7]?
      if fragment ≠ 0 then reject "fragmented or corrupt IPv4 response"
      else do
        let fields ← range packet 0 length
        let sum ← orPanic (checksum fields)
        if sum ≠ 0 then reject "fragmented or corrupt IPv4 response"
        else .ok length
  else .ok 40

namespace IpExchange

variable (e : IpExchange)

def judgePayload (response : Bytes) : Judgement Unit :=
  if e.dns then
    if response.length < 12 then reject "inner payload is not the matching DNS response"
    else do
      let id ← range response 0 2
      let queryId ← range e.payload 0 2
      if id ≠ queryId then reject "inner payload is not the matching DNS response"
      else do
        let flags ← orPanic response[2]?
        if flags &&& 0x80 = 0 then reject "inner payload is not the matching DNS response"
        else .ok ()
  else if response ≠ e.payload then reject "inner echo payload does not match the request nonce"
  else .ok ()

def judgeChecksum (header : IpPacketInfo) (udp : Bytes) : Judgement Unit := do
  let field ← range udp 6 8
  if field = [0, 0] then
    if header.version = 6 then reject "missing IPv6 UDP checksum" else .ok ()
  else do
    let sum ← orPanic (udpChecksum header.src header.dst udp)
    if sum ≠ 0 then reject "invalid UDP checksum" else .ok ()

def judgeUdp (header : IpPacketInfo) (udp : Bytes) : Judgement Unit := do
  let sourcePort ← range udp 0 2
  let targetPort ← range udp 2 4
  let length ← range udp 4 6
  if sourcePort ≠ toBeBytes 2 e.target.port ∨ targetPort ≠ toBeBytes 2 e.source.port ∨
      (fromBeBytes 16 length).toNat ≠ udp.length then
    reject "UDP response ports or length do not match the request"
  else do
    judgeChecksum header udp
    e.judgePayload (udp.drop 8)

def validate (packet : Bytes) : Judgement Unit :=
  match parse packet with
  | .error _ => reject "invalid IP response header"
  | .ok header =>
    if header.src ≠ e.target.ip ∨ header.dst ≠ e.source.ip ∨ header.protocol ≠ 17 ∨
        header.totalLen.toNat ≠ packet.length then
      reject "IP response addresses, protocol or length do not match the request"
    else do
      let offset ← payloadOffset header packet
      if offset ≤ packet.length ∧ 8 ≤ (packet.drop offset).length then
        e.judgeUdp header (packet.drop offset)
      else reject "truncated UDP response"

end IpExchange

/-! ### The layout of a packet -/

@[simp] lemma copyAt_zero (bytes packet : Bytes) :
    copyAt 0 bytes packet = bytes ++ packet.drop bytes.length := by
  simp [copyAt]

@[simp] lemma copyAt_succ_cons (start : ℕ) (bytes packet : Bytes) (octet : UInt8) :
    copyAt (start + 1) bytes (octet :: packet) = octet :: copyAt start bytes packet := by
  have hstart : start + 1 + bytes.length = start + bytes.length + 1 := by omega
  simp [copyAt, hstart]

lemma copyAt_append {start : ℕ} {front : Bytes} (h : front.length ≤ start)
    (bytes packet : Bytes) :
    copyAt start bytes (front ++ packet) = front ++ copyAt (start - front.length) bytes packet := by
  obtain ⟨n, rfl⟩ : ∃ n, start = front.length + n := ⟨start - front.length, by omega⟩
  have hdrop : front.length + n + bytes.length = front.length + (n + bytes.length) := by omega
  simp [copyAt, hdrop, take_length_add_append, drop_length_add_append]

@[simp] lemma copyAt_toBeBytes {start n w : ℕ} {word : BitVec w} (h : n ≤ start)
    (bytes packet : Bytes) :
    copyAt start bytes (toBeBytes n word ++ packet) =
      toBeBytes n word ++ copyAt (start - n) bytes packet := by
  rw [copyAt_append (by rwa [length_toBeBytes]), length_toBeBytes]

def headerV4 (total sum : BitVec 16) (source target : Ipv4Addr) : Bytes :=
  (0x45 :: 0 :: (toBeBytes 2 total ++ [0, 0, 0x40, 0, 64, 17])) ++
    (toBeBytes 2 sum ++ (toBeBytes 4 source ++ toBeBytes 4 target))

def headerV6 (length : BitVec 16) (source target : Ipv6Addr) : Bytes :=
  0x60 :: 0 :: 0 :: 0 :: (toBeBytes 2 length ++
    (17 :: 64 :: (toBeBytes 16 source ++ toBeBytes 16 target)))

def datagram (source target length sum : BitVec 16) (payload : Bytes) : Bytes :=
  (toBeBytes 2 source ++ (toBeBytes 2 target ++ toBeBytes 2 length)) ++ (toBeBytes 2 sum ++ payload)

@[simp] lemma length_headerV4 (total sum : BitVec 16) (source target : Ipv4Addr) :
    (headerV4 total sum source target).length = 20 := by
  simp [headerV4]

@[simp] lemma length_headerV6 (length : BitVec 16) (source target : Ipv6Addr) :
    (headerV6 length source target).length = 40 := by
  simp [headerV6]

@[simp] lemma length_datagram (source target length sum : BitVec 16) (payload : Bytes) :
    (datagram source target length sum payload).length = 8 + payload.length := by
  simp [datagram]
  omega

lemma toBeBytes_zero : toBeBytes 2 0#16 = [0, 0] := rfl

lemma toBeBytes_ne_zero {sum : BitVec 16} (h : sum ≠ 0) : toBeBytes 2 sum ≠ [0, 0] := by
  intro hzero
  have hback := fromBeBytes_toBeBytes (n := 2) (by decide) sum
  rw [hzero] at hback
  exact h (hback.symm.trans rfl)

lemma writeHeader_v4 (source target : Ipv4Addr) (rest : Bytes) :
    ∃ sum, writeHeader (List.replicate 20 0 ++ rest) (.v4 source) (.v4 target) =
        some (headerV4 (BitVec.ofNat 16 (20 + rest.length)) sum source target ++ rest) ∧
      checksum (headerV4 (BitVec.ofNat 16 (20 + rest.length)) sum source target) = some 0 := by
  have hlen : (List.replicate 20 (0 : UInt8) ++ rest).length = 20 + rest.length := by
    rw [length_append, length_replicate]
  generalize htotal : BitVec.ofNat 16 (20 + rest.length) = total
  obtain ⟨sum, hsum⟩ : ∃ sum, checksum (headerV4 total 0#16 source target) = some sum :=
    ⟨_, checksum_eq (by rw [length_headerV4]; decide)⟩
  have hpatched := checksum_patched (by simp; decide) (by simp) hsum
  have hfields : copyAt 16 (toBeBytes 4 target) (copyAt 12 (toBeBytes 4 source) (copyAt 9 [17]
      (copyAt 8 [64] (copyAt 6 [0x40] (copyAt 2 (toBeBytes 2 total)
        (copyAt 0 [0x45] (List.replicate 20 0 ++ rest))))))) =
      headerV4 total 0#16 source target ++ rest := by
    simp [replicate_succ, headerV4, toBeBytes_zero]
  have hsumField : copyAt 10 (toBeBytes 2 sum) (headerV4 total 0#16 source target ++ rest) =
      headerV4 total sum source target ++ rest := by
    simp [headerV4, toBeBytes_zero]
  refine ⟨sum, ?_, hpatched.1⟩
  simp only [writeHeader, hlen, htotal, hfields]
  rw [take_left' (length_headerV4 total 0#16 source target), hsum]
  exact congrArg some hsumField

lemma writeHeader_v6 (source target : Ipv6Addr) (rest : Bytes) :
    writeHeader (List.replicate 40 0 ++ rest) (.v6 source) (.v6 target) =
      some (headerV6 (BitVec.ofNat 16 (40 + rest.length) - 40) source target ++ rest) := by
  have hlen : (List.replicate 40 (0 : UInt8) ++ rest).length = 40 + rest.length := by
    rw [length_append, length_replicate]
  simp only [writeHeader, hlen]
  simp [replicate_succ, headerV6]

lemma pseudoHeader_eq {source target : IpAddr} (h : isV4 source = isV4 target) (udpLen : ℕ) :
    ∃ pseudo, pseudoHeader udpLen source target = some pseudo ∧ Even pseudo.length ∧
      pseudo.length ≤ 40 := by
  cases source <;> cases target <;> simp only [isV4, Bool.true_eq_false, Bool.false_eq_true] at h
  · exact ⟨_, rfl, by simp; decide, by simp⟩
  · exact ⟨_, rfl, by simp; decide, by simp⟩

lemma writeUdp_eq {source target : SocketAddr} (h : isV4 source.ip = isV4 target.ip)
    {payload : Bytes} (hlen : payload.length ≤ 65535) :
    ∃ sum, writeUdp source target payload (List.replicate (8 + payload.length) 0) =
        some (datagram source.port target.port (BitVec.ofNat 16 (8 + payload.length)) sum payload) ∧
      sum ≠ 0 ∧ udpChecksum source.ip target.ip
        (datagram source.port target.port (BitVec.ofNat 16 (8 + payload.length)) sum payload) =
          some 0 := by
  generalize hlength : BitVec.ofNat 16 (8 + payload.length) = length
  obtain ⟨pseudo, hpseudo, heven, hshort⟩ := pseudoHeader_eq h (8 + payload.length)
  have hchecksum : ∀ sum, udpChecksum source.ip target.ip
      (datagram source.port target.port length sum payload) =
      checksum ((pseudo ++ (toBeBytes 2 source.port ++ (toBeBytes 2 target.port ++
        toBeBytes 2 length))) ++ (toBeBytes 2 sum ++ payload)) := by
    intro sum
    rw [udpChecksum, length_datagram, hpseudo]
    simp [datagram]
  have hfront : Even (pseudo ++ (toBeBytes 2 source.port ++ (toBeBytes 2 target.port ++
      toBeBytes 2 length))).length := by
    rw [length_append]
    exact heven.add (by simp; decide)
  obtain ⟨sum, hsum⟩ : ∃ sum, udpChecksum source.ip target.ip
      (datagram source.port target.port length 0#16 payload) = some sum := by
    rw [hchecksum]
    refine ⟨_, checksum_eq ?_⟩
    simp
    omega
  have hpatched := checksum_patched hfront (by simp; omega) ((hchecksum 0#16).symm.trans hsum)
  have hfields : copyAt 8 payload (copyAt 4 (toBeBytes 2 length) (copyAt 2
      (toBeBytes 2 target.port) (copyAt 0 (toBeBytes 2 source.port)
        (List.replicate (8 + payload.length) 0)))) =
      datagram source.port target.port length 0#16 payload := by
    rw [replicate_add]
    simp [replicate_succ, datagram, toBeBytes_zero]
  have hfield : ∀ sum, copyAt 6 (toBeBytes 2 sum)
      (datagram source.port target.port length 0#16 payload) =
      datagram source.port target.port length sum payload := by
    intro sum
    simp [datagram, toBeBytes_zero]
  refine ⟨if sum = 0 then 0xffff else sum, ?_, ?_, ?_⟩
  · simp only [writeUdp, length_replicate, hlength, hfields, hsum]
    exact congrArg some (hfield _)
  · split_ifs with hzero
    · decide
    · exact hzero
  · rw [hchecksum]
    split_ifs with hzero
    · exact hpatched.2 hzero
    · exact hpatched.1

/-- The IP header in front of a datagram, as it is written and as it is read. -/
structure Headed (source target : IpAddr) (front : Bytes) (udpLen : ℕ) : Prop where
  length : front.length = if isV4 source then 20 else 40
  read : ∀ udp, udp.length = udpLen → ∃ header, parse (front ++ udp) = .ok header ∧
    header.src = source ∧ header.dst = target ∧ header.protocol = 17 ∧
    header.totalLen.toNat = (front ++ udp).length ∧
    (header.version = 6 ↔ isV4 source = false) ∧
    payloadOffset header (front ++ udp) = .ok front.length
  verifies : isV4 source = true → checksum front = some 0

lemma slice_append {front bytes rest : Bytes} {start count : ℕ} (hstart : front.length = start)
    (hcount : bytes.length = count) : slice (front ++ (bytes ++ rest)) start count = bytes := by
  rw [slice, ← hstart, drop_left, ← hcount, take_left]

lemma slice_append_drop (bytes : Bytes) (start count : ℕ) :
    slice bytes start count ++ bytes.drop (start + count) = bytes.drop start := by
  rw [slice, ← drop_drop, take_append_drop]

lemma headed_v4 {source target : Ipv4Addr} {sum : BitVec 16} {udpLen : ℕ}
    (hlen : 20 + udpLen ≤ 65535)
    (hsum : checksum (headerV4 (BitVec.ofNat 16 (20 + udpLen)) sum source target) = some 0) :
    Headed (.v4 source) (.v4 target)
      (headerV4 (BitVec.ofNat 16 (20 + udpLen)) sum source target) udpLen := by
  refine ⟨by simp [isV4], fun udp hudp => ?_, fun _ => hsum⟩
  generalize htotal : BitVec.ofNat 16 (20 + udpLen) = total at hsum ⊢
  have htotalNat : total.toNat = 20 + udpLen := by
    rw [← htotal, BitVec.toNat_ofNat]
    omega
  have hsource : fromBeBytes 32 (toBeBytes 4 source) = source :=
    fromBeBytes_toBeBytes (n := 4) (by decide) source
  have htarget : fromBeBytes 32 (toBeBytes 4 target) = target :=
    fromBeBytes_toBeBytes (n := 4) (by decide) target
  have hword : fromBeBytes 16 (toBeBytes 2 total) = total :=
    fromBeBytes_toBeBytes (n := 2) (by decide) total
  obtain ⟨s0, s1, s2, s3, hs⟩ : ∃ a b c d, toBeBytes 4 source = [a, b, c, d] := ⟨_, _, _, _, rfl⟩
  obtain ⟨t0, t1, t2, t3, ht⟩ : ∃ a b c d, toBeBytes 4 target = [a, b, c, d] := ⟨_, _, _, _, rfl⟩
  obtain ⟨w0, w1, hw⟩ : ∃ a b, toBeBytes 2 total = [a, b] := ⟨_, _, rfl⟩
  obtain ⟨c0, c1, hc⟩ : ∃ a b, toBeBytes 2 sum = [a, b] := ⟨_, _, rfl⟩
  have hheader : headerV4 total sum source target =
      [0x45, 0, w0, w1, 0, 0, 0x40, 0, 64, 17, c0, c1, s0, s1, s2, s3, t0, t1, t2, t3] := by
    rw [headerV4, hs, ht, hw, hc]
    rfl
  rw [hs] at hsource
  rw [ht] at htarget
  rw [hw] at hword
  rw [hheader] at hsum ⊢
  refine ⟨⟨4, .v4 source, .v4 target, 17, total⟩, ?_, rfl, rfl, rfl, ?_, ?_, ?_⟩
  · have hversion : (0x45 : UInt8) >>> 4 = 4 := by decide
    have hihl : ¬(0x45 : UInt8) &&& 15 < 5 := by decide
    have hlong : ¬udp.length + 20 < 20 := by omega
    simp [parse, parseV4, hsource, htarget, hword, hversion, hihl, hlong, Nat.add_assoc]
  · simp [htotalNat, hudp]
    omega
  · simp [isV4]
  · have hrange : range (0x45 :: 0 :: w0 :: w1 :: 0 :: 0 :: 0x40 :: 0 :: 64 :: 17 :: c0 :: c1 ::
        s0 :: s1 :: s2 :: s3 :: t0 :: t1 :: t2 :: t3 :: udp) 0 20 = .ok [0x45, 0, w0, w1, 0, 0,
          0x40, 0, 64, 17, c0, c1, s0, s1, s2, s3, t0, t1, t2, t3] := by
      simp [range, slice, Nat.add_assoc]
    have hflags : (0x40 : UInt8) &&& 63 = 0 := by decide
    simp [payloadOffset, orPanic, bind, Except.bind, hrange, hsum, hflags]

lemma headed_v6 {source target : Ipv6Addr} {udpLen : ℕ} (hlen : 40 + udpLen ≤ 65535) :
    Headed (.v6 source) (.v6 target)
      (headerV6 (BitVec.ofNat 16 (40 + udpLen) - 40) source target) udpLen := by
  refine ⟨by simp [isV4], fun udp hudp => ?_, nofun⟩
  generalize hlength : BitVec.ofNat 16 (40 + udpLen) - 40 = length
  have hlengthNat : length.toNat = udpLen := by
    rw [← hlength]
    simp
    omega
  have hsource : fromBeBytes 128 (toBeBytes 16 source) = source :=
    fromBeBytes_toBeBytes (n := 16) (by decide) source
  have htarget : fromBeBytes 128 (toBeBytes 16 target) = target :=
    fromBeBytes_toBeBytes (n := 16) (by decide) target
  have hword : fromBeBytes 16 (toBeBytes 2 length) = length :=
    fromBeBytes_toBeBytes (n := 2) (by decide) length
  obtain ⟨w0, w1, hw⟩ : ∃ a b, toBeBytes 2 length = [a, b] := ⟨_, _, rfl⟩
  have hpacket : headerV6 length source target ++ udp = [0x60, 0, 0, 0, w0, w1, 17, 64] ++
      (toBeBytes 16 source ++ (toBeBytes 16 target ++ udp)) := by
    simp [headerV6, hw]
  have hsrc : slice (headerV6 length source target ++ udp) 8 16 = toBeBytes 16 source := by
    rw [hpacket]
    exact slice_append rfl (length_toBeBytes 16 source)
  have hdst : slice (headerV6 length source target ++ udp) 24 16 = toBeBytes 16 target := by
    rw [hpacket, ← append_assoc]
    exact slice_append (by simp) (length_toBeBytes 16 target)
  rw [hw] at hword
  refine ⟨⟨6, .v6 source, .v6 target, 17, BitVec.ofNat 16 (min (40 + udpLen) 65535)⟩, ?_, rfl, rfl,
    rfl, ?_, ?_, ?_⟩
  · have hversion : (0x60 : UInt8) >>> 4 = 6 := by decide
    have hrest : 32 ≤ (toBeBytes 16 source ++ (toBeBytes 16 target ++ udp)).length := by
      simp
      omega
    rw [hpacket] at hsrc hdst ⊢
    generalize toBeBytes 16 source ++ (toBeBytes 16 target ++ udp) = rest at hrest hsrc hdst ⊢
    simp only [cons_append, nil_append] at hsrc hdst ⊢
    have hlong : ¬rest.length + 8 < 40 := by omega
    simp [parse, parseV6, hversion, hsrc, hdst, hsource, htarget, hword, hlengthNat, hlong,
      Nat.add_assoc]
  · rw [BitVec.toNat_ofNat, length_append, length_headerV6, hudp]
    omega
  · simp [isV4]
  · rw [length_headerV6]
    rfl

lemma udpPacket_eq {source target : SocketAddr} (h : isV4 source.ip = isV4 target.ip)
    {payload : Bytes} (hlen : headerLen source + 8 + payload.length ≤ 65535) :
    ∃ front sum, udpPacket source target payload =
        some (front ++ datagram source.port target.port
          (BitVec.ofNat 16 (8 + payload.length)) sum payload) ∧
      Headed source.ip target.ip front (8 + payload.length) ∧ sum ≠ 0 ∧
      udpChecksum source.ip target.ip (datagram source.port target.port
        (BitVec.ofNat 16 (8 + payload.length)) sum payload) = some 0 := by
  obtain ⟨sum, hudp, hne, hsum⟩ := @writeUdp_eq source target h payload (by omega)
  have hheader : ∃ front, writeHeader (List.replicate (headerLen source + 8 + payload.length) 0)
      source.ip target.ip = some (front ++ List.replicate (8 + payload.length) 0) ∧
      Headed source.ip target.ip front (8 + payload.length) := by
    rw [Nat.add_assoc, replicate_add]
    unfold headerLen at hlen ⊢
    cases hs : source.ip with
    | v4 s =>
      cases ht : target.ip with
      | v4 t =>
        simp only [hs, isV4, if_true] at hlen ⊢
        obtain ⟨sum', hwrite, hverifies⟩ :=
          writeHeader_v4 s t (List.replicate (8 + payload.length) 0)
        rw [length_replicate] at hwrite hverifies
        exact ⟨_, hwrite, headed_v4 (by omega) hverifies⟩
      | v6 t => simp [hs, ht, isV4] at h
    | v6 s =>
      cases ht : target.ip with
      | v4 t => simp [hs, ht, isV4] at h
      | v6 t =>
        simp only [hs, isV4, Bool.false_eq_true, if_false] at hlen ⊢
        have hwrite := writeHeader_v6 s t (List.replicate (8 + payload.length) 0)
        rw [length_replicate] at hwrite
        exact ⟨_, hwrite, headed_v6 (by omega)⟩
  obtain ⟨front, hwrite, hheaded⟩ := hheader
  refine ⟨front, sum, ?_, hheaded, hne, hsum⟩
  have hfront : front.length = headerLen source := hheaded.length
  simp only [udpPacket, hwrite, bind, bind_some]
  rw [drop_left' hfront, take_left' hfront, hudp, bind_some]

/-! ### Judgements -/

/-- Whatever is found, nothing is read out of bounds. -/
def Safe {α : Type} (j : Judgement α) : Prop := j ≠ .error .panic

lemma safe_ok {α : Type} (a : α) : Safe (.ok a) := nofun

lemma safe_reject {α : Type} (detail : String) : Safe (reject detail : Judgement α) := by
  unfold Safe reject
  simp

lemma Safe.bind {α β : Type} {j : Judgement α} {f : α → Judgement β} (h : Safe j)
    (hf : ∀ a, j = .ok a → Safe (f a)) : Safe (j >>= f) := by
  cases j with
  | error halt => exact fun hpanic => h (congrArg Except.error (Except.error.inj hpanic))
  | ok a => exact hf a rfl

lemma safe_ite {α : Type} {c : Prop} [Decidable c] {j k : Judgement α} (hj : c → Safe j)
    (hk : ¬c → Safe k) : Safe (if c then j else k) := by
  split_ifs with hc
  · exact hj hc
  · exact hk hc

lemma range_eq {bytes : Bytes} {start stop : ℕ} (h : start ≤ stop)
    (hstop : stop ≤ bytes.length) :
    range bytes start stop = .ok (slice bytes start (stop - start)) := if_pos ⟨h, hstop⟩

lemma range_pair (front rest : Bytes) (a b : UInt8) :
    range (front ++ a :: b :: rest) front.length (front.length + 2) = .ok [a, b] := by
  rw [range_eq (by omega) (by simp), Nat.add_sub_cancel_left]
  exact congrArg Except.ok (@slice_append front [a, b] rest _ _ rfl rfl)

lemma safe_range {bytes : Bytes} {start stop : ℕ} (h : start ≤ stop)
    (hstop : stop ≤ bytes.length) : Safe (range bytes start stop) := by
  rw [range_eq h hstop]
  exact safe_ok _

lemma safe_orPanic {α : Type} {x : Option α} {a : α} (h : x = some a) : Safe (orPanic x) := by
  rw [h]
  exact safe_ok a

lemma safe_orPanic_getElem {bytes : Bytes} {i : ℕ} (h : i < bytes.length) :
    Safe (orPanic bytes[i]?) := safe_orPanic (getElem?_eq_getElem h)

lemma length_of_parse {packet : Bytes} {header : IpPacketInfo}
    (h : parse packet = .ok header) :
    (header.version = 4 ∧ isV4 header.src = true ∧ 20 ≤ packet.length ∧
      ∃ first rest, packet = first :: rest ∧ (first &&& 15).toNat * 4 ≤ packet.length) ∨
    (header.version = 6 ∧ isV4 header.src = false ∧ 40 ≤ packet.length) := by
  cases packet with
  | nil => cases h
  | cons first rest =>
    simp only [parse] at h
    split_ifs at h with hfour hsix
    · unfold parseV4 at h
      split_ifs at h with hlen
      simp only [getElem_cons_zero] at h
      split_ifs at h with hihl hshort
      cases h
      exact .inl ⟨rfl, rfl, by omega, first, rest, rfl, by omega⟩
    · unfold parseV6 at h
      split_ifs at h with hlen
      cases h
      exact .inr ⟨rfl, rfl, by omega⟩

lemma safe_payloadOffset {packet : Bytes} {header : IpPacketInfo}
    (h : parse packet = .ok header) : Safe (payloadOffset header packet) := by
  obtain ⟨hversion, -, hlen, first, rest, rfl, hihl⟩ | ⟨hversion, -, -⟩ := length_of_parse h
  · have hfew : (first &&& 15).toNat * 4 < 2 ^ 17 := by
      have := (first &&& 15).toNat_lt
      omega
    unfold payloadOffset
    rw [if_pos hversion]
    refine Safe.bind (safe_orPanic_getElem (by omega)) fun first' hfirst => ?_
    obtain rfl : first = first' := Except.ok.inj hfirst
    refine Safe.bind (safe_orPanic_getElem (by omega)) fun flags _ => ?_
    refine safe_ite (fun _ => safe_reject _) fun _ => ?_
    refine Safe.bind (safe_orPanic_getElem (by omega)) fun fragment _ => ?_
    refine safe_ite (fun _ => safe_reject _) fun _ => ?_
    refine Safe.bind (safe_range (Nat.zero_le _) hihl) fun fields hfields => ?_
    rw [range_eq (Nat.zero_le _) hihl] at hfields
    cases hfields
    refine Safe.bind (safe_orPanic (checksum_eq ?_)) fun sum _ => ?_
    · rw [slice, length_take]
      omega
    · exact safe_ite (fun _ => safe_reject _) fun _ => safe_ok _
  · unfold payloadOffset
    rw [if_neg (by rw [hversion]; decide)]
    exact safe_ok 40

namespace IpExchange

variable {e : IpExchange} {header : IpPacketInfo} {packet udp : Bytes}

lemma safe_judgePayload (response : Bytes) : Safe (e.judgePayload response) := by
  unfold judgePayload
  refine safe_ite (fun hdns => ?_) fun _ => ?_
  · refine safe_ite (fun _ => safe_reject _) fun hlen => ?_
    refine Safe.bind (safe_range (by omega) (by omega)) fun id _ => ?_
    refine Safe.bind (safe_range (by omega) (e.queryId hdns)) fun queryId _ => ?_
    refine safe_ite (fun _ => safe_reject _) fun _ => ?_
    refine Safe.bind (safe_orPanic_getElem (by omega)) fun flags _ => ?_
    exact safe_ite (fun _ => safe_reject _) fun _ => safe_ok ()
  · exact safe_ite (fun _ => safe_reject _) fun _ => safe_ok ()

lemma safe_judgeChecksum (hfamily : isV4 header.src = isV4 header.dst) (hlong : 8 ≤ udp.length)
    (hshort : udp.length < 65536) : Safe (judgeChecksum header udp) := by
  obtain ⟨pseudo, hpseudo, -, hle⟩ := pseudoHeader_eq hfamily udp.length
  unfold judgeChecksum
  refine Safe.bind (safe_range (by omega) (by omega)) fun field _ => ?_
  refine safe_ite (fun _ => ?_) fun _ => ?_
  · exact safe_ite (fun _ => safe_reject _) fun _ => safe_ok ()
  · have hsum : udpChecksum header.src header.dst udp = checksum (pseudo ++ udp) := by
      rw [udpChecksum, hpseudo]
      rfl
    rw [hsum, checksum_eq (by rw [length_append]; omega)]
    refine Safe.bind (safe_ok _) fun sum _ => ?_
    exact safe_ite (fun _ => safe_reject _) fun _ => safe_ok ()

lemma safe_validate (packet : Bytes) : Safe (e.validate packet) := by
  unfold validate
  cases hparse : parse packet with
  | error parseError => exact safe_reject _
  | ok header =>
    refine safe_ite (fun _ => safe_reject _) fun hmatch => ?_
    simp only [not_or, not_not] at hmatch
    obtain ⟨hsrc, hdst, -, hlen⟩ := hmatch
    have hshort := header.totalLen.isLt
    have hfamily : isV4 header.src = isV4 header.dst := by rw [hsrc, hdst, e.sameFamily]
    refine Safe.bind (safe_payloadOffset hparse) fun offset _ => ?_
    refine safe_ite (fun hudp => ?_) fun _ => safe_reject _
    have hudpLen : (packet.drop offset).length < 65536 := by
      rw [length_drop]
      omega
    unfold judgeUdp
    refine Safe.bind (safe_range (by omega) (by omega)) fun sourcePort _ => ?_
    refine Safe.bind (safe_range (by omega) (by omega)) fun targetPort _ => ?_
    refine Safe.bind (safe_range (by omega) (by omega)) fun length _ => ?_
    refine safe_ite (fun _ => safe_reject _) fun _ => ?_
    exact Safe.bind (safe_judgeChecksum hfamily hudp.2 hudpLen) fun _ _ => safe_judgePayload _

lemma judgeUdp_ok (hdns : e.dns = false) (hlen : 8 ≤ udp.length)
    (h : e.judgeUdp header udp = .ok ()) :
    ∃ sum,
      udp = datagram e.target.port e.source.port (BitVec.ofNat 16 udp.length) sum e.payload := by
  have hsource : range udp 0 2 = .ok (slice udp 0 2) := range_eq (by omega) (by omega)
  have htarget : range udp 2 4 = .ok (slice udp 2 2) := range_eq (by omega) (by omega)
  have hlength : range udp 4 6 = .ok (slice udp 4 2) := range_eq (by omega) (by omega)
  have hfour : (slice udp 4 2).length = 2 := by
    rw [slice, length_take, length_drop]
    omega
  have hsix : (slice udp 6 2).length = 2 := by
    rw [slice, length_take, length_drop]
    omega
  have hsplit : udp = (slice udp 0 2 ++ (slice udp 2 2 ++ slice udp 4 2)) ++
      (slice udp 6 2 ++ udp.drop 8) := by
    have hafter := slice_append_drop udp 0 2
    rw [append_assoc, append_assoc, slice_append_drop udp 6 2, slice_append_drop udp 4 2,
      slice_append_drop udp 2 2, hafter, drop_zero]
  simp only [judgeUdp, hsource, htarget, hlength, bind_ok_iff, Except.ok.injEq,
    exists_eq_left'] at h
  split_ifs at h with hmatch
  · cases h
  · simp only [not_or, not_not] at hmatch
    obtain ⟨hports, hports', hcount⟩ := hmatch
    rw [bind_ok_iff] at h
    obtain ⟨-, -, hpayload⟩ := h
    have hresponse : udp.drop 8 = e.payload := by
      unfold judgePayload at hpayload
      rw [hdns] at hpayload
      by_contra hne
      simp [hne, reject] at hpayload
    have hword : fromBeBytes 16 (slice udp 4 2) = BitVec.ofNat 16 udp.length := by
      rw [← hcount, BitVec.ofNat_toNat, BitVec.setWidth_eq]
    refine ⟨fromBeBytes 16 (slice udp 6 2), ?_⟩
    rw [datagram, ← hports, ← hports', ← hword, ← hresponse,
      toBeBytes_fromBeBytes (n := 2) (by decide) hfour,
      toBeBytes_fromBeBytes (n := 2) (by decide) hsix]
    exact hsplit

lemma judgeUdp_datagram {sum : BitVec 16} (hdns : e.dns = false) (hne : sum ≠ 0)
    (hlen : 8 + e.payload.length < 65536)
    (hsum : udpChecksum header.src header.dst (datagram e.target.port e.source.port
      (BitVec.ofNat 16 (8 + e.payload.length)) sum e.payload) = some 0) :
    e.judgeUdp header (datagram e.target.port e.source.port
      (BitVec.ofNat 16 (8 + e.payload.length)) sum e.payload) = .ok () := by
  generalize hlength : BitVec.ofNat 16 (8 + e.payload.length) = length at hsum ⊢
  have hlengthNat : length.toNat = 8 + e.payload.length := by
    rw [← hlength, BitVec.toNat_ofNat, Nat.mod_eq_of_lt hlen]
  have hword : fromBeBytes 16 (toBeBytes 2 length) = length :=
    fromBeBytes_toBeBytes (n := 2) (by decide) length
  have hfield := toBeBytes_ne_zero hne
  obtain ⟨a0, a1, ha⟩ : ∃ a b, toBeBytes 2 e.target.port = [a, b] := ⟨_, _, rfl⟩
  obtain ⟨b0, b1, hb⟩ : ∃ a b, toBeBytes 2 e.source.port = [a, b] := ⟨_, _, rfl⟩
  obtain ⟨l0, l1, hl⟩ : ∃ a b, toBeBytes 2 length = [a, b] := ⟨_, _, rfl⟩
  obtain ⟨c0, c1, hc⟩ : ∃ a b, toBeBytes 2 sum = [a, b] := ⟨_, _, rfl⟩
  have hdatagram : datagram e.target.port e.source.port length sum e.payload =
      a0 :: a1 :: b0 :: b1 :: l0 :: l1 :: c0 :: c1 :: e.payload := by
    rw [datagram, ha, hb, hl, hc]
    rfl
  rw [hl] at hword
  rw [hc] at hfield
  rw [hdatagram] at hsum ⊢
  have hchecksum : judgeChecksum header
      (a0 :: a1 :: b0 :: b1 :: l0 :: l1 :: c0 :: c1 :: e.payload) = .ok () := by
    have hrange : range (a0 :: a1 :: b0 :: b1 :: l0 :: l1 :: c0 :: c1 :: e.payload) 6 8 =
        .ok [c0, c1] := range_pair [a0, a1, b0, b1, l0, l1] e.payload c0 c1
    simp only [judgeChecksum, hrange, hsum, bind, Except.bind, if_neg hfield, orPanic]
    rfl
  have hpayload : e.judgePayload e.payload = .ok () := by
    simp [judgePayload, hdns]
  have hsource : range (a0 :: a1 :: b0 :: b1 :: l0 :: l1 :: c0 :: c1 :: e.payload) 0 2 =
      .ok [a0, a1] := range_pair [] _ a0 a1
  have htarget : range (a0 :: a1 :: b0 :: b1 :: l0 :: l1 :: c0 :: c1 :: e.payload) 2 4 =
      .ok [b0, b1] := range_pair [a0, a1] _ b0 b1
  have hcount : range (a0 :: a1 :: b0 :: b1 :: l0 :: l1 :: c0 :: c1 :: e.payload) 4 6 =
      .ok [l0, l1] := range_pair [a0, a1, b0, b1] _ l0 l1
  simp [judgeUdp, hsource, htarget, hcount, hchecksum, bind, Except.bind, ha, hb, hword,
    hlengthNat, hpayload]
  omega

/-- The packet goes from the request's target to its source, between their ports, and carries
the request's payload behind an IP header of the length it declares. -/
structure Answers (e : IpExchange) (packet : Bytes) (header : IpPacketInfo)
    (front : Bytes) (sum : BitVec 16) : Prop where
  parses : parse packet = .ok header
  source : header.src = e.target.ip
  target : header.dst = e.source.ip
  protocol : header.protocol = 17
  headerV4 : header.version = 4 → ∃ first, packet.head? = some first ∧
    front.length = (first &&& 15).toNat * 4
  headerV6 : header.version ≠ 4 → front.length = 40
  octets : packet = front ++ datagram e.target.port e.source.port
    (BitVec.ofNat 16 (8 + e.payload.length)) sum e.payload

lemma payloadOffset_ok {offset : ℕ} (h : payloadOffset header packet = .ok offset) :
    (header.version = 4 → ∃ first, packet.head? = some first ∧ offset = (first &&& 15).toNat * 4) ∧
      (header.version ≠ 4 → offset = 40) := by
  unfold payloadOffset at h
  by_cases hversion : header.version = 4
  · rw [if_pos hversion, bind_ok_iff] at h
    obtain ⟨first, hfirst, h⟩ := h
    refine ⟨fun _ => ⟨first, ?_, ?_⟩, fun hne => absurd hversion hne⟩
    · cases packet with
      | nil => cases hfirst
      | cons octet rest => exact congrArg some (Except.ok.inj hfirst)
    · rw [bind_ok_iff] at h
      obtain ⟨flags, -, h⟩ := h
      split_ifs at h
      · cases h
      · rw [bind_ok_iff] at h
        obtain ⟨fragment, -, h⟩ := h
        split_ifs at h
        · cases h
        · simp only [bind_ok_iff] at h
          obtain ⟨fields, -, sum, -, h⟩ := h
          split_ifs at h
          · cases h
          · exact (Except.ok.inj h).symm
  · rw [if_neg hversion] at h
    exact ⟨fun hfour => absurd hfour hversion, fun _ => (Except.ok.inj h).symm⟩

lemma answers_of_validate (hdns : e.dns = false) (h : e.validate packet = .ok ()) :
    ∃ header front sum, e.Answers packet header front sum := by
  unfold validate at h
  cases hparse : parse packet with
  | error parseError =>
    rw [hparse] at h
    cases h
  | ok header =>
    rw [hparse] at h
    simp only at h
    split_ifs at h with hmatch
    · cases h
    · simp only [not_or, not_not] at hmatch
      obtain ⟨hsrc, hdst, hprotocol, -⟩ := hmatch
      rw [bind_ok_iff] at h
      obtain ⟨offset, hoffset, h⟩ := h
      split_ifs at h with hudp
      · obtain ⟨sum, hsum⟩ := judgeUdp_ok hdns hudp.2 h
        obtain ⟨hfour, hsix⟩ := payloadOffset_ok hoffset
        have hfront : (packet.take offset).length = offset := by
          rw [length_take]
          exact min_eq_left hudp.1
        have hlen := congrArg List.length hsum
        rw [length_datagram] at hlen
        refine ⟨header, packet.take offset, sum, hparse, hsrc, hdst, hprotocol, ?_, ?_, ?_⟩
        · rwa [hfront]
        · rwa [hfront]
        · rw [← hlen, ← hsum, take_append_drop]
      · cases h

lemma validate_echo (hdns : e.dns = false)
    (hlen : headerLen e.target + 8 + e.payload.length ≤ 65535) :
    ∃ packet, udpPacket e.target e.source e.payload = some packet ∧ e.validate packet = .ok () := by
  obtain ⟨front, sum, hpacket, hheaded, hne, hsum⟩ := udpPacket_eq e.sameFamily.symm hlen
  refine ⟨_, hpacket, ?_⟩
  obtain ⟨header, hparse, hsrc, hdst, hprotocol, htotal, -, hoffset⟩ :=
    hheaded.read _ (length_datagram _ _ _ _ _)
  have hmatch : ¬(header.src ≠ e.target.ip ∨ header.dst ≠ e.source.ip ∨ header.protocol ≠ 17 ∨
      header.totalLen.toNat ≠ (front ++ datagram e.target.port e.source.port
        (BitVec.ofNat 16 (8 + e.payload.length)) sum e.payload).length) := by
    simp only [not_or, not_not]
    exact ⟨hsrc, hdst, hprotocol, htotal⟩
  rw [← hsrc, ← hdst] at hsum
  have hjudge := judgeUdp_datagram hdns hne (by omega) hsum
  simp only [validate, hparse]
  rw [if_neg hmatch, hoffset]
  simp only [bind, Except.bind, drop_left]
  rw [if_pos (by simp), hjudge]

end IpExchange

/-- Packets of one family that fit their length field are written without an overflow and verify;
their checksum is never left blank. The echo of a request is accepted, no packet makes the
judgement read out of bounds, and what it accepts as an echo is one. -/
theorem udpPacket_verifies :
    (∀ source target payload, isV4 source.ip = isV4 target.ip →
      headerLen source + 8 + payload.length ≤ 65535 →
      ∃ packet, udpPacket source target payload = some packet ∧
        packet.length = headerLen source + 8 + payload.length ∧
        (isV4 source.ip = true → checksum (packet.take 20) = some 0) ∧
        udpChecksum source.ip target.ip (packet.drop (headerLen source)) = some 0 ∧
        slice packet (headerLen source + 6) 2 ≠ [0, 0]) ∧
    (∀ e : IpExchange, e.dns = false → headerLen e.target + 8 + e.payload.length ≤ 65535 →
      ∃ packet, udpPacket e.target e.source e.payload = some packet ∧ e.validate packet = .ok ()) ∧
    (∀ (e : IpExchange) packet, e.dns = false → e.validate packet = .ok () →
      ∃ header front sum, e.Answers packet header front sum) ∧
    ∀ (e : IpExchange) packet, e.validate packet ≠ .error .panic := by
  refine ⟨fun source target payload hfamily hlen => ?_, fun e => IpExchange.validate_echo,
    fun e packet => IpExchange.answers_of_validate, fun e packet => IpExchange.safe_validate packet⟩
  obtain ⟨front, sum, hpacket, hheaded, hne, hsum⟩ := udpPacket_eq hfamily hlen
  have hfront : front.length = headerLen source := hheaded.length
  refine ⟨_, hpacket, ?_, fun hv4 => ?_, ?_, ?_⟩
  · rw [length_append, length_datagram, hfront, Nat.add_assoc]
  · have htwenty : front.length = 20 := by rw [hheaded.length, if_pos hv4]
    rw [take_left' htwenty]
    exact hheaded.verifies hv4
  · rw [drop_left' hfront]
    exact hsum
  · have hfield : slice (front ++ datagram source.port target.port
        (BitVec.ofNat 16 (8 + payload.length)) sum payload) (headerLen source + 6) 2 =
        toBeBytes 2 sum := by
      rw [datagram, ← append_assoc]
      exact slice_append (by simp [hfront]) (length_toBeBytes 2 sum)
    rw [hfield]
    exact toBeBytes_ne_zero hne

def sampleExchange : IpExchange :=
  ⟨.v4 0xc0000202 50000, .v4 0xc6336401 53, [1, 2, 3], false, rfl, nofun⟩

theorem udpPacket_verifies_sample :
    isV4 sampleExchange.source.ip = isV4 sampleExchange.target.ip ∧
    headerLen sampleExchange.source + 8 + sampleExchange.payload.length ≤ 65535 ∧
    (∃ packet, sampleExchange.packet = some packet ∧ packet.length = 31 ∧
      checksum (packet.take 20) = some 0) ∧
    ∃ packet header front sum,
      udpPacket sampleExchange.target sampleExchange.source [1, 2, 3] = some packet ∧
      sampleExchange.validate packet = .ok () ∧ sampleExchange.Answers packet header front sum := by
  obtain ⟨request, hrequest, hlen, hheader, -⟩ := udpPacket_verifies.1 sampleExchange.source
    sampleExchange.target sampleExchange.payload rfl (by decide)
  obtain ⟨packet, hpacket, hvalid⟩ := udpPacket_verifies.2.1 sampleExchange rfl (by decide)
  obtain ⟨header, front, sum, hanswers⟩ := udpPacket_verifies.2.2.1 sampleExchange packet rfl hvalid
  exact ⟨rfl, by decide, ⟨request, hrequest, hlen, hheader rfl⟩, packet, header, front, sum,
    hpacket, hvalid, hanswers⟩

end MasqueServer.Probe
