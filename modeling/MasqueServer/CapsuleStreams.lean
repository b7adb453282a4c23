import MasqueServer.CapsuleQueues

/-!
# The ends of capsule streams

A capsule stream ends when its request has ended and its output has drained, when its input or its
output makes a reset necessary, when the client or the target gives up, or when it is swept away
after a timeout. The functions below are those of the server; quiche's answers and the client's
data come with the events.
-/
namespace MasqueServer

def StreamDecoder.isIp : StreamDecoder → Bool
  | .datagram _ => false
  | .ip _ _ => true

/-- One read of a request body: the chunks in turn, whether reading ended with an error, and
whether the stream is reported finished afterwards. -/
structure BodyRead where
  chunks : List Bytes
  failed : Bool
  finished : Bool
  now : ℕ

/-- A sweep of the tunnels, with the clock, the tunnels without activity and quiche's answers. -/
structure IdleSweep where
  now : ℕ
  timeout : ℕ
  idle : ℕ → Bool
  results : ℕ → SendResult

def encodeIpSetupCapsules (addresses : List IpAddr) : Option Bytes := do
  let capsules ← encode (.addressAssign (addresses.map (AddressRequests.assignment 0))) []
  encode (.routeAdvertisement
    [⟨.v4 0, .v4 (BitVec.allOnes 32), 0⟩, ⟨.v6 0, .v6 (BitVec.allOnes 128), 0⟩]) capsules

namespace CapsuleConnection

variable (c : CapsuleConnection)

variable (id : ℕ)

def streamShutdown (code : WireErrorCode) : CapsuleConnection :=
  c.setQuic id { c.quic id with reset := some code }

def sendFin (result : SendResult) : CapsuleConnection × SendResult :=
  let (quic, result) := (c.quic id).sendBody [] true result
  (c.setQuic id quic, result)

def teardownIpTunnel : Option CapsuleConnection :=
  if c.ipTunnels.contains id then
    removeCapsuleStream { c with ipTunnels := c.ipTunnels.remove id } id
  else some c

def releaseTunnel : Option CapsuleConnection :=
  (teardownIpTunnel { c with udpTunnels := c.udpTunnels.remove id } id).bind fun c =>
    c.removeCapsuleStream id

def setupIpTunnel (id maxPayload : ℕ) (addresses : List IpAddr) : Option CapsuleConnection :=
  if c.mayOpen id then
    (encodeIpSetupCapsules addresses).bind fun capsules =>
      match (c.openIp id maxPayload addresses).queueCapsuleBytes id capsules with
      | (c, true) => some c
      | (c, false) => (c.teardownIpTunnel id).map fun c => c.streamShutdown id .excessiveLoad
  else some c

def endResponse (result : SendResult) : Option CapsuleConnection :=
  if c.h3 then
    match c.sendFin id result with
    | (c, .blocked) =>
      some (if id ∈ c.finishedCapsules then c
        else { c with finishedCapsules := c.finishedCapsules ++ [id] })
    | (c, _) => c.releaseTunnel id
  else c.releaseTunnel id

def closeCapsuleStream (reset : Bool) (result : SendResult) : Option CapsuleConnection :=
  let stream := c.capsuleStreams.get id
  let reset := reset || stream.any fun stream => stream.decoder.isPartial
  if reset || stream.any QueuedStream.hasPartialOutput then
    releaseTunnel (c.streamShutdown id (if reset then .messageError else .requestCancelled)) id
  -- Output of a CONNECT-IP stream has drained before.
  else if c.ipTunnels.contains id then c.endResponse id result
  else (c.discardCapsuleOutput id).bind fun c => c.endResponse id result

/-! ### Reading -/

def answerRequest (requests : List AssignedAddress) : Option (CapsuleConnection × Bool) :=
  match c.ipTunnels.get id, c.capsuleStreams.get id with
  | none, _ => some (c, true)
  | some lease, some stream =>
    match stream.decoder with
    | .ip decoder addressRequests =>
      let (addressRequests, reply) := addressRequests.respond requests lease
      let c := c.putStream id { stream with decoder := .ip decoder addressRequests }
      match reply with
      | .error _ => some (c, true)
      | .ok reply => (encode reply []).map fun output =>
          let (c, queued) := c.queueCapsuleBytes id output
          (c, !queued)
    | .datagram _ => none
  | some _, none => none

def readFrame (id maxPayload : ℕ) : CapsuleFrame → Option (CapsuleConnection × Bool)
  | .datagram payload => c.receiveDatagram id maxPayload payload
  | .addressRequest requests => c.answerRequest id requests
  | _ => some (c, false)

def readFrames (id maxPayload : ℕ) :
    CapsuleConnection → List CapsuleFrame → Option (CapsuleConnection × Bool)
  | c, [] => some (c, false)
  | c, frame :: frames =>
    match c.readFrame id maxPayload frame with
    | none => none
    | some (c, true) => some (c, true)
    | some (c, false) => readFrames id maxPayload c frames

def readChunks (id : ℕ) : CapsuleConnection → List Bytes → Option (CapsuleConnection × Bool)
  | c, [] => some (c, false)
  | c, chunk :: chunks =>
    match c.capsuleStreams.get id with
    | none => none
    | some stream =>
      match stream.decoder.decode chunk with
      | .error _ => some (c, true)
      | .ok (decoder, frames) =>
        match readFrames id stream.maxPayload (c.putStream id { stream with decoder }) frames with
        | none => none
        | some (c, true) => some (c, true)
        | some (c, false) => readChunks id c chunks

def finishRequest (id now : ℕ) : CapsuleConnection :=
  (c.setQuic id { c.quic id with ended := true }).markCapsuleFinished id now

def readCapsuleBody (body : BodyRead) : Option CapsuleConnection :=
  if c.capsuleStreams.contains id && c.h3 then
    (readChunks id c body.chunks).bind fun (c, failed) =>
      let failed := failed || body.failed || body.finished &&
        (c.capsuleStreams.get id).any fun stream => stream.decoder.isPartial
      let c := if body.finished then c.finishRequest id body.now else c
      if failed then c.closeCapsuleStream id true .blocked else some c
  else some c

/-! ### Finished requests and idle tunnels -/

/-- Complete control replies of a CONNECT-IP stream are drained before its end. -/
def finishBody (results : ℕ → SendResult) (c : CapsuleConnection) (id : ℕ) :
    Option CapsuleConnection :=
  if (c.capsuleStreams.get id).any fun stream =>
      stream.decoder.isIp && !stream.decoder.isPartial && !stream.send.isEmpty then
    some { c with finishedCapsules := c.finishedCapsules ++ [id] }
  else c.closeCapsuleStream id false (results id)

def finishCapsuleBodies (results : ℕ → SendResult) : Option CapsuleConnection :=
  c.finishedCapsules.foldlM (finishBody results) { c with finishedCapsules := [] }

def drainExpired (c : CapsuleConnection) (sweep : IdleSweep) (id : ℕ) : Option Bool :=
  (c.capsuleStreams.get id).bind fun stream => stream.drainExpired sweep.now sweep.timeout

def isExpired (sweep : IdleSweep) (id : ℕ) : Bool :=
  (c.drainExpired sweep id).getD (sweep.idle id)

def closeIdleStream (reset : Bool) (result : SendResult) : CapsuleConnection :=
  if !reset && c.h3 then
    match c.sendFin id result with
    | (c, .accepted _) => c
    | (c, _) => c.streamShutdown id .requestCancelled
  else c.streamShutdown id .requestCancelled

def closeIdle (sweep : IdleSweep) (c : CapsuleConnection) (id : ℕ) : CapsuleConnection :=
  let reset := c.drainExpired sweep id = some true ||
    (c.capsuleStreams.get id).any QueuedStream.hasPartialOutput
  c.closeIdleStream id reset (sweep.results id)

def sweepUdp (sweep : IdleSweep) (c : CapsuleConnection) (id : ℕ) : CapsuleConnection :=
  if c.isExpired sweep id then
    { closeIdle sweep c id with udpTunnels := c.udpTunnels.remove id }
  else c

def cleanupIdleTunnels (sweep : IdleSweep) : Option CapsuleConnection :=
  let c := c.udpTunnels.keys.foldl (sweepUdp sweep) c
  let idleIpTunnels := c.ipTunnels.keys.filter fun id => c.isExpired sweep id
  let c := idleIpTunnels.foldl (closeIdle sweep) c
  let closed := c.capsuleStreams.keys.filter fun id =>
    !c.udpTunnels.contains id && !c.ipTunnels.contains id
  (closed.foldlM removeCapsuleStream c).bind fun c => idleIpTunnels.foldlM teardownIpTunnel c

/-! ### Resets -/

def dropTunnel : Option CapsuleConnection :=
  (removeCapsuleStream { c with udpTunnels := c.udpTunnels.remove id } id).bind fun c =>
    c.teardownIpTunnel id

def clientReset (c : CapsuleConnection) (id : ℕ) : Option CapsuleConnection :=
  dropTunnel (c.setQuic id { c.quic id with clientReset := true }) id

def malformedTrailers : Option CapsuleConnection :=
  dropTunnel (c.streamShutdown id .messageError) id

def resetUdpStream : Option CapsuleConnection :=
  (removeCapsuleStream { c with udpTunnels := c.udpTunnels.remove id } id).map fun c =>
    c.streamShutdown id .connectError

end CapsuleConnection

inductive CapsuleStreamEvent where
  | setupUdp (id : ℕ)
  | setupIp (id maxPayload : ℕ) (addresses : List IpAddr)
  | queue (id : ℕ) (data : Bytes)
  | queueDatagram (id : ℕ) (payload : Bytes)
  | flush (results : ℕ → List SendResult)
  | read (id : ℕ) (body : BodyRead)
  | relay
  | requestFinished (id now : ℕ)
  | finish (results : ℕ → SendResult)
  | clientReset (id : ℕ)
  | malformedTrailers (id : ℕ)
  | targetFailed (id : ℕ)
  | sweep (sweep : IdleSweep)

namespace CapsuleConnection

def serve (c : CapsuleConnection) : CapsuleStreamEvent → Option CapsuleConnection
  | .setupUdp id => some (c.openUdp id)
  | .setupIp id maxPayload addresses => c.setupIpTunnel id maxPayload addresses
  | .queue id data => some (c.queueCapsuleBytes id data).1
  | .queueDatagram id payload => (c.queueDatagramCapsule id payload).map Prod.fst
  | .flush results => c.flushCapsuleOutput results
  | .read id body => c.readCapsuleBody id body
  | .relay => c.takeReceived
  | .requestFinished id now =>
    some (if c.capsuleStreams.contains id then c.finishRequest id now else c)
  | .finish results => c.finishCapsuleBodies results
  | .clientReset id => c.clientReset id
  | .malformedTrailers id => c.malformedTrailers id
  | .targetFailed id => if c.udpTunnels.contains id then c.resetUdpStream id else some c
  | .sweep sweep => c.cleanupIdleTunnels sweep

/-- What quiche is relied on for: a stream that has failed keeps failing, and no byte of a body is
read after its end was reported. -/
def Reliable (c : CapsuleConnection) : CapsuleStreamEvent → Prop
  | .flush results => ∀ id ∈ c.capsuleStreams.keys, (c.quic id).failed = true →
      ∀ result ∈ results id, result = .failed
  | .finish results => ∀ id ∈ c.capsuleStreams.keys, (c.quic id).failed = true →
      results id = .failed
  | .sweep sweep => ∀ id ∈ c.capsuleStreams.keys, (c.quic id).failed = true →
      sweep.results id = .failed
  | .read id body => (c.quic id).ended = true → body.chunks = []
  | _ => True

instance (c : CapsuleConnection) : ∀ e, Decidable (c.Reliable e)
  | .flush results => inferInstanceAs (Decidable (∀ id ∈ c.capsuleStreams.keys,
      (c.quic id).failed = true → ∀ result ∈ results id, result = .failed))
  | .finish results => inferInstanceAs (Decidable (∀ id ∈ c.capsuleStreams.keys,
      (c.quic id).failed = true → results id = .failed))
  | .sweep sweep => inferInstanceAs (Decidable (∀ id ∈ c.capsuleStreams.keys,
      (c.quic id).failed = true → sweep.results id = .failed))
  | .read id body => inferInstanceAs (Decidable ((c.quic id).ended = true → body.chunks = []))
  | .setupUdp _ | .setupIp .. | .queue .. | .queueDatagram .. | .relay | .requestFinished ..
  | .clientReset _ | .malformedTrailers _ | .targetFailed _ => isTrue trivial

end CapsuleConnection

end MasqueServer
