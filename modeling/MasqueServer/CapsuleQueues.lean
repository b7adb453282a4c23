import MasqueServer.CapsuleEncoder
import MasqueServer.TunIngress

/-!
# The capsule queues of a connection

An HTTP/3 connection queues whole capsules for its request streams and writes them out as far as
flow control lets it. It counts the bytes and the capsules of every stream and of all streams
together, and bounds both; DATAGRAM capsules that were received wait in a bounded queue of their
own.
-/
namespace MasqueServer

def maxStreamSendBytes : ℕ := 256 * 1024
def maxConnectionSendBytes : ℕ := 1024 * 1024
def maxStreamSendPackets : ℕ := 64
def maxConnectionSendPackets : ℕ := 256

def encodeDatagramContextZero (payload buf : Bytes) : Option Bytes := do
  let buf ← (Varint.appendTo capsuleDatagram buf).toOption
  let buf ← (Varint.appendTo (payload.length + 1) buf).toOption
  return buf ++ [0] ++ payload

def StreamDecoder.isPartial : StreamDecoder → Bool
  | .datagram decoder => decoder.isPartial
  | .ip decoder _ => decoder.isPartial

/-- A capsule stream with its output; `offset` counts the bytes of the front capsule that are
written already. -/
structure QueuedStream extends CapsuleStream where
  send : List Bytes := []
  offset : ℕ := 0
  bytes : ℕ := 0
  finishedAt : Option ℕ := none

def QueuedStream.hasPartialOutput (stream : QueuedStream) : Bool := stream.offset ≠ 0

def QueuedStream.drainExpired (stream : QueuedStream) (now timeout : ℕ) : Option Bool :=
  stream.finishedAt.map fun finished => timeout < now - finished

/-! ### Quiche's side of a stream -/

inductive WireErrorCode where
  | messageError
  | requestCancelled
  | connectError
  | excessiveLoad
  deriving DecidableEq, Repr

inductive SendResult where
  | accepted (written : ℕ)
  | blocked
  | failed
  deriving DecidableEq, Repr

/-- What became of a request stream and its response. The capsules ever queued for the response
and whether a request ended inside of a capsule are recorded for the statements only. -/
structure QuicStream where
  opened : Bool := false
  queued : List Bytes := []
  accepted : Bytes := []
  fin : Bool := false
  reset : Option WireErrorCode := none
  failed : Bool := false
  clientReset : Bool := false
  ended : Bool := false
  truncated : Bool := false

/-- Quiche takes at most what it is offered, and the end of the response with the last byte. -/
def QuicStream.sendBody (quic : QuicStream) (data : Bytes) (fin : Bool) :
    SendResult → QuicStream × SendResult
  | .accepted written =>
    ({ quic with
      accepted := quic.accepted ++ data.take written
      fin := quic.fin || fin && data.length ≤ written }, .accepted (min written data.length))
  | .blocked => (quic, .blocked)
  | .failed => ({ quic with failed := true }, .failed)

lemma QuicStream.sendBody_le {quic quic' : QuicStream} {data : Bytes} {fin : Bool}
    {result : SendResult}
    {written : ℕ} (h : quic.sendBody data fin result = (quic', .accepted written)) :
    written ≤ data.length := by
  cases result with
  | accepted n =>
    cases h
    exact Nat.min_le_right n data.length
  | blocked => cases h
  | failed => cases h

/-! ### The connection -/

/-- The part of a client connection that its capsule streams use. -/
structure CapsuleConnection where
  h3 : Bool
  quic : ℕ → QuicStream := fun _ => {}
  udpTunnels : Table ℕ Unit := ∅
  ipTunnels : Table ℕ (List IpAddr) := ∅
  capsuleStreams : Table ℕ QueuedStream := ∅
  capsuleWritable : Table ℕ Unit := ∅
  finishedCapsules : List ℕ := []
  capsuleSendBytes : ℕ := 0
  capsuleSendPackets : ℕ := 0
  receivedCapsules : List Bytes := []
  receivedCapsuleBytes : ℕ := 0

namespace CapsuleConnection

variable (c : CapsuleConnection)

variable (id : ℕ)

def setQuic (quic : QuicStream) : CapsuleConnection :=
  { c with quic := Function.update c.quic id quic }

def putStream (stream : QueuedStream) : CapsuleConnection :=
  { c with capsuleStreams := c.capsuleStreams.put id stream }

def mayOpen : Bool :=
  id % 4 = 0 && id < 2 ^ 62 && !(c.quic id).opened

def openUdp : CapsuleConnection :=
  if c.mayOpen id then
    { c with
      udpTunnels := c.udpTunnels.put id ()
      capsuleStreams := c.capsuleStreams.put id { CapsuleStream.newUdp maxUdpPayload with }
      quic := Function.update c.quic id { c.quic id with opened := true } }
  else c

def openIp (id maxPayload : ℕ) (addresses : List IpAddr) : CapsuleConnection :=
  if c.mayOpen id then
    { c with
      ipTunnels := c.ipTunnels.put id addresses
      capsuleStreams := c.capsuleStreams.put id { CapsuleStream.newIp maxPayload with }
      quic := Function.update c.quic id { c.quic id with opened := true } }
  else c

def queueCapsuleBytes (data : Bytes) : CapsuleConnection × Bool :=
  match c.capsuleStreams.get id with
  | none => (c, false)
  | some stream =>
    -- The end of the request drains what is staged and admits nothing more.
    if stream.finishedAt.isSome || maxStreamSendBytes < stream.bytes + data.length ||
        maxConnectionSendBytes < c.capsuleSendBytes + data.length ||
        maxStreamSendPackets ≤ stream.send.length ||
        maxConnectionSendPackets ≤ c.capsuleSendPackets then
      (c, false)
    else
      ({ c with
        capsuleStreams := c.capsuleStreams.put id { stream with
          bytes := stream.bytes + data.length
          send := stream.send ++ [data] }
        capsuleSendBytes := c.capsuleSendBytes + data.length
        capsuleSendPackets := c.capsuleSendPackets + 1
        capsuleWritable := c.capsuleWritable.put id ()
        quic := Function.update c.quic id
          { c.quic id with queued := (c.quic id).queued ++ [data] } }, true)

def queueDatagramCapsule (payload : Bytes) : Option (CapsuleConnection × Bool) :=
  match c.capsuleStreams.get id with
  | none => some (c, false)
  | some stream =>
    if stream.finishedAt.isSome ||
        maxConnectionSendBytes < c.capsuleSendBytes + (payload.length + 17) ||
        maxStreamSendBytes < stream.bytes + (payload.length + 17) ||
        maxStreamSendPackets ≤ stream.send.length ||
        maxConnectionSendPackets ≤ c.capsuleSendPackets then
      some (c, false)
    else (encodeDatagramContextZero payload []).map (c.queueCapsuleBytes id)

def markCapsuleFinished (id now : ℕ) : CapsuleConnection :=
  match c.capsuleStreams.get id with
  | none => c
  | some stream =>
    if stream.finishedAt.isSome then c
    else { c with
      capsuleStreams := c.capsuleStreams.put id { stream with finishedAt := some now }
      finishedCapsules := c.finishedCapsules ++ [id]
      quic := Function.update c.quic id
        { c.quic id with truncated := stream.decoder.isPartial } }

def discardCapsuleOutput : Option CapsuleConnection :=
  let capsuleWritable := c.capsuleWritable.remove id
  match c.capsuleStreams.get id with
  | none => some { c with capsuleWritable }
  | some stream => do
    let capsuleSendBytes ← checkedSub c.capsuleSendBytes stream.bytes
    let capsuleSendPackets ← checkedSub c.capsuleSendPackets stream.send.length
    return { c with
      capsuleWritable
      capsuleSendBytes
      capsuleSendPackets
      capsuleStreams :=
        c.capsuleStreams.put id { stream with send := [], bytes := 0, offset := 0 } }

def removeCapsuleStream : Option CapsuleConnection :=
  let capsuleWritable := c.capsuleWritable.remove id
  let finishedCapsules := c.finishedCapsules.filter (· ≠ id)
  match c.capsuleStreams.get id with
  | none => some { c with capsuleWritable, finishedCapsules }
  | some stream => do
    let capsuleSendBytes ← checkedSub c.capsuleSendBytes stream.bytes
    let capsuleSendPackets ← checkedSub c.capsuleSendPackets stream.send.length
    return { c with
      capsuleWritable
      finishedCapsules
      capsuleSendBytes
      capsuleSendPackets
      capsuleStreams := c.capsuleStreams.remove id }

/-! ### Flushing -/

/-- What the loop over the capsules of one stream reads and writes. -/
structure Flush where
  stream : QueuedStream
  capsuleSendBytes : ℕ
  capsuleSendPackets : ℕ
  quic : QuicStream

def Flush.popFront (f : Flush) (data : Bytes) (rest : List Bytes) : Option Flush := do
  let bytes ← checkedSub f.stream.bytes data.length
  let capsuleSendBytes ← checkedSub f.capsuleSendBytes data.length
  let capsuleSendPackets ← checkedSub f.capsuleSendPackets 1
  return { f with
    stream := { f.stream with bytes, send := rest, offset := 0 }
    capsuleSendBytes
    capsuleSendPackets }

def Flush.abandon (f : Flush) : Option Flush := do
  let capsuleSendBytes ← checkedSub f.capsuleSendBytes f.stream.bytes
  let capsuleSendPackets ← checkedSub f.capsuleSendPackets f.stream.send.length
  return { f with
    stream := { f.stream with bytes := 0, send := [], offset := 0 }
    capsuleSendBytes
    capsuleSendPackets }

/-- Write capsules until quiche takes no more, each call with the next of the given results, and
tell whether the stream stays writable. When no result is left, quiche is blocked. -/
def Flush.loop : List SendResult → Flush → Option (Flush × Bool)
  | [], f => some (f, !f.stream.send.isEmpty)
  | result :: results, f =>
    match f.stream.send with
    | [] => some (f, false)
    | data :: rest =>
      match f.quic.sendBody (data.drop f.stream.offset) false result with
      | (quic, .blocked) => some ({ f with quic }, true)
      | (quic, .failed) => (Flush.abandon { f with quic }).map fun f => (f, false)
      | (quic, .accepted written) =>
        if written = 0 then some ({ f with quic }, true)
        else if f.stream.offset + written = data.length then
          (Flush.popFront { f with quic } data rest).bind (loop results)
        else loop results
          { f with quic, stream := { f.stream with offset := f.stream.offset + written } }

def flushStream (results : ℕ → List SendResult) (c : CapsuleConnection) (id : ℕ) :
    Option CapsuleConnection :=
  match c.capsuleStreams.get id with
  | none => some { c with capsuleWritable := c.capsuleWritable.remove id }
  | some stream => do
    let (f, keep) ←
      Flush.loop (results id) ⟨stream, c.capsuleSendBytes, c.capsuleSendPackets, c.quic id⟩
    return { c with
      capsuleStreams := c.capsuleStreams.put id f.stream
      capsuleSendBytes := f.capsuleSendBytes
      capsuleSendPackets := f.capsuleSendPackets
      quic := Function.update c.quic id f.quic
      capsuleWritable := if keep then c.capsuleWritable else c.capsuleWritable.remove id }

def flushCapsuleOutput (results : ℕ → List SendResult) : Option CapsuleConnection :=
  if c.h3 then c.capsuleWritable.keys.foldlM (flushStream results) c else some c

/-! ### Received capsules -/

def receiveDatagram (id maxPayload : ℕ) (payload : Bytes) :
    Option (CapsuleConnection × Bool) :=
  match Varint.decode payload with
  | .error _ => some (c, false)
  | .ok (context, contextLen) =>
    if context ≠ 0 then some (c, false)
    else if maxPayload < payload.length - contextLen then some (c, true)
    else if maxReceivedPackets ≤ c.receivedCapsules.length ∨
        maxReceivedBytes < c.receivedCapsuleBytes + payload.length + 8 then some (c, false)
    else (rebuild id payload).map fun wire =>
      ({ c with
        receivedCapsuleBytes := c.receivedCapsuleBytes + wire.length
        receivedCapsules := c.receivedCapsules ++ [wire] }, false)

def takeReceived : Option CapsuleConnection :=
  match c.receivedCapsules with
  | [] => some c
  | wire :: rest => (checkedSub c.receivedCapsuleBytes wire.length).map fun receivedCapsuleBytes =>
    { c with receivedCapsules := rest, receivedCapsuleBytes }

end CapsuleConnection

/-- A capsule in its wire form. -/
structure WireCapsule where
  octets : Bytes
  nonempty : octets ≠ []

inductive QueueEvent where
  | openUdp (id : ℕ)
  | openIp (id maxPayload : ℕ) (addresses : List IpAddr)
  | queue (id : ℕ) (capsule : WireCapsule)
  | queueDatagram (id : ℕ) (payload : Bytes)
  | flush (results : ℕ → List SendResult)
  | discard (id : ℕ)
  | remove (id : ℕ)
  | markFinished (id now : ℕ)
  | receive (id : ℕ) (payload : Bytes)
  | take

namespace CapsuleConnection

def step (c : CapsuleConnection) : QueueEvent → Option CapsuleConnection
  | .openUdp id => some (c.openUdp id)
  | .openIp id maxPayload addresses => some (c.openIp id maxPayload addresses)
  | .queue id capsule => some (c.queueCapsuleBytes id capsule.octets).1
  | .queueDatagram id payload => (c.queueDatagramCapsule id payload).map Prod.fst
  | .flush results => c.flushCapsuleOutput results
  | .discard id => c.discardCapsuleOutput id
  | .remove id => c.removeCapsuleStream id
  | .markFinished id now => some (c.markCapsuleFinished id now)
  | .receive id payload =>
    match c.capsuleStreams.get id with
    | none => some c
    | some stream => (c.receiveDatagram id stream.maxPayload payload).map Prod.fst
  | .take => c.takeReceived

end CapsuleConnection

end MasqueServer
