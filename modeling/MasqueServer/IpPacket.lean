import MasqueServer.IpAddress
import MasqueServer.Octets

/-!
# IP packet headers

The relay reads only the header fields it routes by: version, source and destination,
next protocol and total length. A header is accepted only when every byte that is read
lies inside the packet, so the reads below carry their bounds.
-/
namespace MasqueServer

variable (packet : Bytes)

inductive ParseError
  | tooShort
  | unknownVersion (version : UInt8)
  | invalidIhl (ihl : UInt8)
  | truncated
  deriving DecidableEq, Repr

structure IpPacketInfo where
  version : UInt8
  src : IpAddr
  dst : IpAddr
  protocol : UInt8
  totalLen : BitVec 16
  deriving DecidableEq

def parseV4 : Except ParseError IpPacketInfo :=
  if h : packet.length < 20 then .error .tooShort
  else
    let ihl := packet[0] &&& 0x0f
    if ihl < 5 then .error (.invalidIhl ihl)
    else if packet.length < ihl.toNat * 4 then .error .truncated
    else .ok
      { version := 4
        src := .v4 (fromBeBytes 32 [packet[12], packet[13], packet[14], packet[15]])
        dst := .v4 (fromBeBytes 32 [packet[16], packet[17], packet[18], packet[19]])
        protocol := packet[9]
        totalLen := fromBeBytes 16 [packet[2], packet[3]] }

/-- The total length adds the fixed header to the payload length and saturates. -/
def parseV6 : Except ParseError IpPacketInfo :=
  if h : packet.length < 40 then .error .tooShort
  else
    let payloadLen := fromBeBytes 16 [packet[4], packet[5]]
    .ok
      { version := 6
        src := .v6 (fromBeBytes 128 (slice packet 8 16))
        dst := .v6 (fromBeBytes 128 (slice packet 24 16))
        protocol := packet[6]
        totalLen := BitVec.ofNat 16 (min (40 + payloadLen.toNat) 65535) }

def parse : Bytes → Except ParseError IpPacketInfo
  | [] => .error .tooShort
  | first :: rest =>
    let version := first >>> 4
    if version = 4 then parseV4 (first :: rest)
    else if version = 6 then parseV6 (first :: rest)
    else .error (.unknownVersion version)

def addrAt (v4Offset v6Offset : ℕ) : Except ParseError IpAddr :=
  match packet with
  | [] => .error .tooShort
  | first :: rest =>
    let version := first >>> 4
    if version = 4 then
      if packet.length < 20 then .error .tooShort
      else
        let ihl := first &&& 0x0f
        if ihl < 5 then .error (.invalidIhl ihl)
        else if packet.length < ihl.toNat * 4 then .error .truncated
        else .ok (.v4 (fromBeBytes 32 (slice (first :: rest) v4Offset 4)))
    else if version = 6 then
      if packet.length < 40 then .error .tooShort
      else .ok (.v6 (fromBeBytes 128 (slice (first :: rest) v6Offset 16)))
    else .error (.unknownVersion version)

def srcAddr : Except ParseError IpAddr := addrAt packet 12 8

def dstAddr : Except ParseError IpAddr := addrAt packet 16 24

lemma slice_four (start : ℕ) (h : start + 3 < packet.length) :
    slice packet start 4 =
      [packet[start], packet[start + 1], packet[start + 2], packet[start + 3]] := by
  unfold slice
  rw [List.drop_eq_getElem_cons (by omega), List.drop_eq_getElem_cons (by omega),
    List.drop_eq_getElem_cons (by omega), List.drop_eq_getElem_cons (by omega)]
  rfl

/-- The single-address readers agree with the full header parse, errors included. -/
theorem addrAt_eq_parse :
    srcAddr packet = (parse packet).map (·.src) ∧ dstAddr packet = (parse packet).map (·.dst) := by
  unfold srcAddr dstAddr addrAt parse
  cases packet with
  | nil => exact ⟨rfl, rfl⟩
  | cons first rest =>
    by_cases h4 : first >>> 4 = 4
    · simp only [h4, if_true, parseV4]
      by_cases hlen : (first :: rest).length < 20
      · simp only [hlen, if_true, dite_true, Except.map, and_self]
      · have h12 := slice_four (first :: rest) 12 (by omega)
        have h16 := slice_four (first :: rest) 16 (by omega)
        simp only [hlen, if_false, dite_false, h12, h16]
        by_cases hihl : first &&& 0x0f < 5
        · simp [hihl, Except.map]
        · by_cases ht : (first :: rest).length < (first &&& 0x0f).toNat * 4
          · simp only [List.getElem_cons_zero, hihl, if_false, ht, if_true, Except.map, and_self]
          · simp only [List.getElem_cons_zero, hihl, if_false, ht, Except.map, and_self]
    · by_cases h6 : first >>> 4 = 6
      · by_cases hlen : (first :: rest).length < 40
        · simp only [if_neg h4, if_pos h6, parseV6, hlen, if_true, dite_true, Except.map, and_self]
        · simp only [if_neg h4, if_pos h6, parseV6, hlen, if_false, dite_false, Except.map, and_self]
      · simp [h4, h6, Except.map]

end MasqueServer
