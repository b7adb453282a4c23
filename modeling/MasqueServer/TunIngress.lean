import MasqueServer.AddressRequests
import MasqueServer.CapsuleParser
import MasqueServer.HttpDatagram
import MasqueServer.LeaseProtocol
import MasqueServer.SafeRouting
import MasqueServer.TargetPolicy

/-!
# From the client to the TUN device

A client's IP packets arrive as native HTTP/3 datagrams, as DATAGRAM capsules on an HTTP/3 request,
or as DATAGRAM capsules on an HTTP/2 request in either of two forms. Each transport has a relay of
its own, which reads the packet out of its framing, checks it against the tunnel's lease and the
target policy, and stages it for the TUN device.
-/
namespace MasqueServer

/-- The settings the relays read, with the bounds that startup validation checks. -/
structure IngressConfig where
  tunMtu : ℕ
  http2MaxDatagram : ℕ
  ipPolicy : TargetPolicy
  tun : Bool
  tunMtu_le : tunMtu ≤ 65535
  http2MaxDatagram_le : http2MaxDatagram ≤ 65527

def maxReceivedPackets : ℕ := 64
def maxReceivedBytes : ℕ := 256 * 1024
def maxUdpPayload : ℕ := 65527

/-! ### HTTP/3 -/

/-- The capsule parser of a request stream; a CONNECT-IP stream also answers address requests. -/
inductive StreamDecoder
  | datagram (decoder : DatagramCapsules)
  | ip (decoder : IpCapsules) (addressRequests : AddressRequests)

def StreamDecoder.decode (decoder : StreamDecoder) (data : Bytes) :
    Except DecodeError (StreamDecoder × List CapsuleFrame) :=
  match decoder with
  | .datagram decoder => do
    let (decoder, frames) ← decoder.decodeWith (fun _ value => .ok (CapsuleFrame.datagram value))
      data
    return (.datagram decoder, frames)
  | .ip decoder addressRequests => do
    let (decoder, frames) ← decoder.decode data
    return (.ip decoder addressRequests, frames)

structure CapsuleStream where
  decoder : StreamDecoder
  maxPayload : ℕ

def CapsuleStream.newUdp (maxPayload : ℕ) : CapsuleStream :=
  ⟨.datagram (.new (maxPayload + 8)), maxPayload⟩

def CapsuleStream.newIp (maxPayload : ℕ) : CapsuleStream :=
  ⟨.ip (.new (maxPayload + 8)) .new, maxPayload⟩

/-- A datagram rebuilt from a capsule. The stream it came in on is kept for the statements
only: the relay reads it back out of the wire form. -/
structure ReceivedCapsule where
  origin : ℕ
  wire : Bytes

/-- A native datagram, with what quiche says about the receive side of its stream. -/
structure NativeDatagram where
  wire : Bytes
  finished : Bool
  readable : Bool

/-- The part of a client connection the relays use. -/
structure Http3Relay where
  ipTunnels : Table ℕ (List IpAddr)
  udpTunnels : Table ℕ Unit
  capsuleStreams : Table ℕ CapsuleStream
  receivedCapsules : List ReceivedCapsule
  receivedCapsuleBytes : ℕ
  closed : Bool

namespace Http3Relay

def new : Http3Relay := ⟨∅, ∅, ∅, [], 0, false⟩

def closeCapsuleStream (r : Http3Relay) (stream : ℕ) : Http3Relay :=
  { r with
    ipTunnels := r.ipTunnels.remove stream
    udpTunnels := r.udpTunnels.remove stream
    capsuleStreams := r.capsuleStreams.remove stream }

def receiveCapsule (r : Http3Relay) (stream maxPayload : ℕ) (payload : Bytes) :
    Option Http3Relay :=
  match Varint.decode payload with
  | .error _ => some r
  | .ok (context, contextLen) =>
    if context ≠ 0 then some r
    else if maxPayload < payload.length - contextLen then none
    else if maxReceivedPackets ≤ r.receivedCapsules.length ∨
        maxReceivedBytes < r.receivedCapsuleBytes + payload.length + 8 then some r
    else (rebuild stream payload).map fun wire =>
      { r with
        receivedCapsules := r.receivedCapsules ++ [⟨stream, wire⟩]
        receivedCapsuleBytes := r.receivedCapsuleBytes + wire.length }

def answerRequest (r : Http3Relay) (stream : ℕ) (requests : List AssignedAddress) :
    Option Http3Relay :=
  match r.ipTunnels.get stream, r.capsuleStreams.get stream with
  | some lease, some ⟨.ip decoder addressRequests, maxPayload⟩ =>
    match addressRequests.respond requests lease with
    | (addressRequests, .ok _) => some { r with
        capsuleStreams := r.capsuleStreams.put stream ⟨.ip decoder addressRequests, maxPayload⟩ }
    | (_, .error _) => none
  | _, _ => none

def readFrame (stream maxPayload : ℕ) (r : Http3Relay) : CapsuleFrame → Option Http3Relay
  | .datagram payload => r.receiveCapsule stream maxPayload payload
  | .addressRequest requests => r.answerRequest stream requests
  | _ => some r

def readFrames (stream maxPayload : ℕ) : Http3Relay → List CapsuleFrame → Http3Relay × Bool
  | r, [] => (r, false)
  | r, frame :: frames =>
    match r.readFrame stream maxPayload frame with
    | none => (r, true)
    | some r => readFrames stream maxPayload r frames

def readBody (r : Http3Relay) (stream : ℕ) (chunk : Bytes) (stopAfter : Option ℕ) :
    Http3Relay :=
  match r.capsuleStreams.get stream with
  | none => r
  | some ⟨decoder, maxPayload⟩ =>
    match decoder.decode chunk with
    | .error _ => r.closeCapsuleStream stream
    | .ok (decoder, frames) =>
      let r := { r with capsuleStreams := r.capsuleStreams.put stream ⟨decoder, maxPayload⟩ }
      let (r, failed) := readFrames stream maxPayload r (frames.take (stopAfter.getD frames.length))
      if failed ∨ stopAfter.isSome then r.closeCapsuleStream stream else r

def admits (config : IngressConfig) (assignedAddrs : List IpAddr) (packet : Bytes) : Bool :=
  match parse packet with
  | .ok header =>
    if !assignedAddrs.contains header.src then false
    else !(!config.ipPolicy.isAllowed header.dst || hasSafeRouting packet ≠ some true)
  | .error _ => false

/-- Forward one datagram. The result names the tunnel whose packet was staged. -/
def forward (config : IngressConfig) (r : Http3Relay) (origin : Option ℕ) (wire : Bytes)
    (finished readable : Bool) : Http3Relay × Option (ℕ × Bytes) :=
  match HttpDatagram.decode wire with
  | .error e => if e.isConnectionError then ({ r with closed := true }, none) else (r, none)
  | .ok d =>
    if origin = none ∧ (finished = true ∨ r.capsuleStreams.contains d.streamId ∧ readable) then
      (r, none)
    else if d.contextId ≠ 0 then (r, none)
    else if r.udpTunnels.contains d.streamId then (r, none)
    else
      match r.ipTunnels.get d.streamId with
      | some assignedAddrs =>
        if admits config assignedAddrs d.payload && config.tun then
          (r, some (origin.getD d.streamId, d.payload))
        else (r, none)
      | none => (r, none)

/-- One round of the loop in `relay_client_datagrams`: received capsules go first. -/
def relay (config : IngressConfig) (r : Http3Relay) (native : Option NativeDatagram) :
    Http3Relay × Option (ℕ × Bytes) :=
  match r.receivedCapsules, native with
  | capsule :: rest, _ =>
    let r := { r with
      receivedCapsules := rest
      receivedCapsuleBytes := r.receivedCapsuleBytes - capsule.wire.length }
    r.forward config (some capsule.origin) capsule.wire false false
  | [], some datagram => r.forward config none datagram.wire datagram.finished datagram.readable
  | [], none => (r, none)

end Http3Relay

/-! ### HTTP/2 -/

/-- The standard form keeps the zero context identifier in front of the packet, the other form
leaves it out. -/
inductive IpCapsuleMode
  | standard
  | cloudflare
  deriving DecidableEq

def IpCapsuleMode.decodePacket (payload : Bytes) :
    IpCapsuleMode → Except String (Option Bytes)
  | .cloudflare => .ok (some payload)
  | .standard =>
    match Varint.decode payload with
    | .error _ => .error "DATAGRAM capsule has no Context ID"
    | .ok (contextId, contextLen) =>
      .ok (if contextId = 0 then some (payload.drop contextLen) else none)

def maxIpPacket (config : IngressConfig) : ℕ := min config.tunMtu config.http2MaxDatagram

structure Http2Ip where
  capsuleMode : IpCapsuleMode
  addresses : List IpAddr
  decoder : IpCapsules
  addressRequests : AddressRequests
  ended : Bool

namespace Http2Ip

def new (config : IngressConfig) (capsuleMode : IpCapsuleMode) (addresses : List IpAddr) :
    Http2Ip :=
  let contextBytes := if capsuleMode = .standard then 8 else 0
  ⟨capsuleMode, addresses, .new (max (64 * 1024) (maxIpPacket config + contextBytes)), .new, false⟩

def admits (config : IngressConfig) (addresses : List IpAddr) (packet : Bytes) : Bool :=
  if maxIpPacket config < packet.length then false
  else
    match parse packet with
    | .error _ => false
    | .ok header =>
      if !addresses.contains header.src then false
      else !(!config.ipPolicy.isAllowed header.dst || hasSafeRouting packet ≠ some true)

/-- One frame: the tunnel and the packet it stages; no result ends the stream with an error. -/
def readFrame (config : IngressConfig) (t : Http2Ip) :
    CapsuleFrame → Option (Http2Ip × Option Bytes)
  | .datagram payload =>
    match t.capsuleMode.decodePacket payload with
    | .error _ => none
    | .ok none => some (t, none)
    | .ok (some packet) =>
      if admits config t.addresses packet && config.tun then some (t, some packet)
      else some (t, none)
  | .addressRequest requests =>
    match t.addressRequests.respond requests t.addresses with
    | (addressRequests, .ok _) => some ({ t with addressRequests }, none)
    | (_, .error _) => none
  | _ => some (t, none)

def readFrames (config : IngressConfig) : Http2Ip → List CapsuleFrame → Http2Ip × List Bytes
  | t, [] => (t, [])
  | t, frame :: frames =>
    match t.readFrame config frame with
    | none => ({ t with ended := true }, [])
    | some (t, packet) =>
      let (t, packets) := readFrames config t frames
      (t, packet.toList ++ packets)

def readChunk (config : IngressConfig) (t : Http2Ip) (chunk : Bytes) (stopAfter : Option ℕ) :
    Http2Ip × List Bytes :=
  if t.ended then (t, [])
  else
    match t.decoder.decode chunk with
    | .error _ => ({ t with ended := true }, [])
    | .ok (decoder, frames) =>
      let (t, packets) :=
        readFrames config { t with decoder } (frames.take (stopAfter.getD frames.length))
      (if stopAfter.isSome then { t with ended := true } else t, packets)

end Http2Ip

/-! ### All tunnels together -/

/-- Every relay of the server, the lease each tunnel was opened with, and every packet staged
for the TUN device with the tunnel it belongs to. -/
structure Ingress where
  http3 : Table ℕ Http3Relay
  http2 : Table TunnelOwner Http2Ip
  leases : Table TunnelOwner (List IpAddr)
  staged : List (TunnelOwner × Bytes)

inductive IngressEvent
  | connect (conn : ℕ)
  | openIp (owner : TunnelOwner) (addresses : List IpAddr)
  | openUdp (owner : TunnelOwner)
  | close (owner : TunnelOwner)
  | body (owner : TunnelOwner) (chunk : Bytes) (stopAfter : Option ℕ)
  | relay (conn : ℕ) (native : Option NativeDatagram)
  | serve (owner : TunnelOwner) (mode : IpCapsuleMode) (addresses : List IpAddr)
  | chunk (owner : TunnelOwner) (chunk : Bytes) (stopAfter : Option ℕ)

namespace Ingress

def start : Ingress := ⟨∅, ∅, ∅, []⟩

def setRelay (s : Ingress) (conn : ℕ) (r : Http3Relay) : Ingress :=
  { s with http3 := s.http3.put conn r }

def mayOpen (r : Http3Relay) (stream : ℕ) : Bool :=
  stream % 4 = 0 && stream < 2 ^ 62 && !r.capsuleStreams.contains stream

/-- Tunnels are opened on request streams, each at most once; a connection with a local error
relays nothing. -/
def step (config : IngressConfig) (s : Ingress) : IngressEvent → Option Ingress
  | .connect conn => if s.http3.contains conn then none else some (s.setRelay conn .new)
  | .openIp owner addresses => (s.http3.get owner.connId).bind fun r =>
      if mayOpen r owner.streamId && !s.leases.contains owner then
        some { s.setRelay owner.connId { r with
            ipTunnels := r.ipTunnels.put owner.streamId addresses
            capsuleStreams := r.capsuleStreams.put owner.streamId (.newIp config.tunMtu) } with
          leases := s.leases.put owner addresses }
      else none
  | .openUdp owner => (s.http3.get owner.connId).bind fun r =>
      if mayOpen r owner.streamId then
        some (s.setRelay owner.connId { r with
          udpTunnels := r.udpTunnels.put owner.streamId ()
          capsuleStreams := r.capsuleStreams.put owner.streamId (.newUdp maxUdpPayload) })
      else none
  | .close owner => (s.http3.get owner.connId).map fun r =>
      s.setRelay owner.connId (r.closeCapsuleStream owner.streamId)
  | .body owner chunk stopAfter => (s.http3.get owner.connId).map fun r =>
      s.setRelay owner.connId (r.readBody owner.streamId chunk stopAfter)
  | .relay conn native =>
    match s.http3.get conn with
    | none => none
    | some r =>
      if r.closed then none
      else
        let (r, packet) := r.relay config native
        some { s.setRelay conn r with
          staged := s.staged ++ (packet.map fun p => (⟨conn, p.1⟩, p.2)).toList }
  | .serve owner mode addresses =>
    if s.leases.contains owner then none
    else some { s with
      http2 := s.http2.put owner (.new config mode addresses)
      leases := s.leases.put owner addresses }
  | .chunk owner chunk stopAfter => (s.http2.get owner).map fun t =>
      let (t, packets) := t.readChunk config chunk stopAfter
      { s with
        http2 := s.http2.put owner t
        staged := s.staged ++ packets.map fun packet => (owner, packet) }

end Ingress

end MasqueServer
