import MasqueServer.IpPacket
import MasqueServer.Varint

/-!
# Capsules

A capsule is a type, a length and a value. The values of the four known types are a datagram
payload, lists of assigned or requested addresses, and a list of address ranges; a value that
does not parse to its last octet is refused.
-/
namespace MasqueServer

def capsuleDatagram : ℕ := 0
def capsuleAddressAssign : ℕ := 1
def capsuleAddressRequest : ℕ := 2
def capsuleRouteAdvertisement : ℕ := 3

inductive DecodeError
  | incomplete
  | malformed (msg : String)
  | tooLarge (length max : ℕ)
  deriving DecidableEq, Repr

structure AssignedAddress where
  requestId : ℕ
  ip : IpAddr
  prefixLen : UInt8
  deriving DecidableEq

structure IpAddressRange where
  startAddr : IpAddr
  endAddr : IpAddr
  ipProtocol : UInt8
  deriving DecidableEq

inductive CapsuleFrame
  | datagram (payload : Bytes)
  | addressAssign (addresses : List AssignedAddress)
  | addressRequest (requests : List AssignedAddress)
  | routeAdvertisement (ranges : List IpAddressRange)
  | unknown (capsuleType : ℕ) (value : Bytes)
  deriving DecidableEq

def readAddress (ipVersion : UInt8) (buf : Bytes) : Except DecodeError (IpAddr × Bytes) :=
  if ipVersion = 4 then
    if buf.length < 4 then .error (.malformed "truncated IPv4")
    else .ok (.v4 (fromBeBytes 32 (buf.take 4)), buf.drop 4)
  else if ipVersion = 6 then
    if buf.length < 16 then .error (.malformed "truncated IPv6")
    else .ok (.v6 (fromBeBytes 128 (buf.take 16)), buf.drop 16)
  else .error (.malformed s!"invalid ip_version: {ipVersion}")

def prefixFits (prefixLen : UInt8) : IpAddr → Bool
  | .v4 ip => prefixLen ≤ 32 &&
      (prefixLen = 32 || ip &&& (BitVec.allOnes 32 >>> prefixLen.toNat) = 0)
  | .v6 ip => prefixLen ≤ 128 &&
      (prefixLen = 128 || ip &&& (BitVec.allOnes 128 >>> prefixLen.toNat) = 0)

def parseAssignedAddress (buf : Bytes) : Except DecodeError (AssignedAddress × Bytes) :=
  match Varint.decode buf with
  | .error _ => .error (.malformed "truncated request_id")
  | .ok (requestId, rlen) =>
    match buf.drop rlen with
    | [] => .error (.malformed "missing ip_version")
    | ipVersion :: buf => do
      let (ip, buf) ← readAddress ipVersion buf
      match buf with
      | [] => .error (.malformed "missing prefix_len")
      | prefixLen :: rest =>
        if prefixFits prefixLen ip then .ok (⟨requestId, ip, prefixLen⟩, rest)
        else .error (.malformed "invalid address prefix")

def assignedLoop : ℕ → Bytes → Except DecodeError (List AssignedAddress)
  | _, [] => .ok []
  | 0, _ :: _ => .ok []
  | fuel + 1, buf => do
    let (address, rest) ← parseAssignedAddress buf
    let addresses ← assignedLoop fuel rest
    return address :: addresses

def parseAssignedAddresses (buf : Bytes) : Except DecodeError (List AssignedAddress) :=
  assignedLoop buf.length buf

def parseRequestedAddresses (value : Bytes) : Except DecodeError (List AssignedAddress) := do
  let addresses ← parseAssignedAddresses value
  if addresses.isEmpty then .error (.malformed "empty ADDRESS_REQUEST")
  else if addresses.any fun address => address.requestId = 0 then
    .error (.malformed "zero ADDRESS_REQUEST identifier")
  else .ok addresses

def readRange (ipVersion : UInt8) (buf : Bytes) :
    Except DecodeError (IpAddr × IpAddr × Bytes) :=
  if ipVersion = 4 then
    if buf.length < 8 then .error (.malformed "truncated IPv4 range")
    else .ok (.v4 (fromBeBytes 32 (slice buf 0 4)), .v4
      (fromBeBytes 32 (slice buf 4 4)), buf.drop 8)
  else if ipVersion = 6 then
    if buf.length < 32 then .error (.malformed "truncated IPv6 range")
    else .ok (.v6 (fromBeBytes 128 (slice buf 0 16)), .v6 (fromBeBytes 128 (slice buf 16 16)),
      buf.drop 32)
  else .error (.malformed s!"invalid ip_version: {ipVersion}")

def addressValue : IpAddr → ℕ
  | .v4 ip => ip.toNat
  | .v6 ip => ip.toNat

/-- Version, protocol and last address of the range before. -/
abbrev PreviousRange := Option (UInt8 × UInt8 × ℕ)

def outOfOrder (previous : PreviousRange) (ipVersion ipProtocol : UInt8) (startValue : ℕ) : Bool :=
  match previous with
  | none => false
  | some (version, protocol, endValue) =>
    ipVersion < version || (version = ipVersion && ipProtocol < protocol) ||
      (version = ipVersion && protocol = ipProtocol && startValue ≤ endValue)

def parseAddressRange (previous : PreviousRange) (ipVersion : UInt8) (buf : Bytes) :
    Except DecodeError (IpAddressRange × ℕ × Bytes) := do
  let (startAddr, endAddr, buf) ← readRange ipVersion buf
  match buf with
  | [] => .error (.malformed "missing ip_protocol")
  | ipProtocol :: rest =>
    if addressValue endAddr < addressValue startAddr ||
        outOfOrder previous ipVersion ipProtocol (addressValue startAddr) then
      .error (.malformed "invalid route range ordering")
    else .ok (⟨startAddr, endAddr, ipProtocol⟩, addressValue endAddr, rest)

def rangesLoop : ℕ → PreviousRange → Bytes → Except DecodeError (List IpAddressRange)
  | _, _, [] => .ok []
  | 0, _, _ :: _ => .ok []
  | fuel + 1, previous, ipVersion :: buf => do
    let (range, endValue, rest) ← parseAddressRange previous ipVersion buf
    let ranges ← rangesLoop fuel (some (ipVersion, range.ipProtocol, endValue)) rest
    return range :: ranges

def parseAddressRanges (buf : Bytes) : Except DecodeError (List IpAddressRange) :=
  rangesLoop buf.length none buf

def parseCapsuleValue (capsuleType : ℕ) (value : Bytes) : Except DecodeError CapsuleFrame :=
  if capsuleType = capsuleDatagram then .ok (.datagram value)
  else if capsuleType = capsuleAddressAssign then
    (parseAssignedAddresses value).map .addressAssign
  else if capsuleType = capsuleAddressRequest then
    (parseRequestedAddresses value).map .addressRequest
  else if capsuleType = capsuleRouteAdvertisement then
    (parseAddressRanges value).map .routeAdvertisement
  else .ok (.unknown capsuleType value)

end MasqueServer
