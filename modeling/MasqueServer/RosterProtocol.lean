import MasqueServer.ClientRegistry
import MasqueServer.Runs
import MasqueServer.VersionedCell

/-!
# The roster and the connections it admits

The roster is replaced while shards and connections read it. Each shared access is a step of its
own: a replacement stores the roster and then advances the generation, a sweep reads the generation,
records it and then loads the roster, and an HTTP/2 connection resolves its certificate between two
reads of the generation.
-/
namespace MasqueServer

abbrev SharedRoster := VersionedCell ClientRegistry

/-! ### Sweeps -/

/-- Where a worker stands in a roster sweep: it has read the generation, or it has recorded
a new one and still has to check its connections. -/
inductive SweepPhase
  | idle
  | read (generation : ℕ)
  | recorded
  deriving DecidableEq

inductive SweepEvent
  | begin
  | record
  | enforce
  deriving DecidableEq

structure Sweep where
  applied : ℕ
  phase : SweepPhase

def Sweep.step (generation : ℕ) (sweep : Sweep) : SweepEvent → Option Sweep
  | .begin => if sweep.phase = .idle then some { sweep with phase := .read generation } else none
  | .record =>
    match sweep.phase with
    | .read g => if g ≠ sweep.applied then some ⟨g, .recorded⟩ else some
      { sweep with phase := .idle }
    | _ => none
  | .enforce => if sweep.phase = .recorded then some { sweep with phase := .idle } else none

/-! ### HTTP/3 shards -/

/-- `h3` tells whether the connection has been upgraded to HTTP/3, which is when its requests
are served. -/
structure Http3Client where
  identity : Option ClientIdentity
  h3 : Bool
  closed : Bool

structure Http3Shard where
  clientCerts : Bool
  sweep : Sweep
  connections : Table ℕ Http3Client

/-- What quiche reports after a received packet. -/
structure QuicReport where
  established : Bool
  inEarlyData : Bool
  peerCert : Option Bytes
  transportOk : Bool

inductive ShardEvent
  | accept (conn : ℕ)
  | packet (conn : ℕ) (report : QuicReport)
  | close (conn : ℕ)
  | reap (conn : ℕ)

namespace Http3Client

def accepted : Http3Client := ⟨none, false, false⟩

def upgrade (client : Http3Client) (report : QuicReport) : Http3Client :=
  if !client.h3 && report.established && !report.inEarlyData && report.transportOk then
    { client with h3 := true }
  else client

def finishHandshake (codec : ClientCodec) (clientCerts : Bool) (registry : ClientRegistry)
    (client : Http3Client) (report : QuicReport) : Http3Client :=
  if clientCerts && client.identity.isNone && report.established then
    match report.peerCert.map (registry.identify codec) with
    | some (.ok identity) => { client with identity := some identity }.upgrade report
    | _ => { client with closed := true }
  else client.upgrade report

end Http3Client

namespace Http3Shard

def revoked (registry : ClientRegistry) (shard : Http3Shard) : List ℕ :=
  (shard.connections.entries.filter fun e =>
    e.2.identity.any fun identity => !registry.stillAuthorizes identity).map (·.1)

def closeEach (connections : Table ℕ Http3Client) (conns : List ℕ) : Table ℕ Http3Client :=
  conns.foldl (fun connections conn =>
    match connections.get conn with
    | some client => connections.put conn { client with closed := true }
    | none => connections) connections

def enforceRoster (registry : ClientRegistry) (shard : Http3Shard) : Http3Shard :=
  if shard.clientCerts then
    { shard with connections := closeEach shard.connections (shard.revoked registry) }
  else shard

def setClient (shard : Http3Shard) (conn : ℕ) (client : Http3Client) : Http3Shard :=
  { shard with connections := shard.connections.put conn client }

def step (codec : ClientCodec) (registry : ClientRegistry) (shard : Http3Shard) (e : ShardEvent) :
    Option Http3Shard :=
  if shard.sweep.phase = .idle then
    match e with
    | .accept conn => if shard.connections.contains conn then none else some
      (shard.setClient conn .accepted)
    | .packet conn report => (shard.connections.get conn).map fun client =>
        shard.setClient conn (client.finishHandshake codec shard.clientCerts registry report)
    | .close conn => (shard.connections.get conn).map fun client =>
        shard.setClient conn { client with closed := true }
    | .reap conn =>
      match shard.connections.get conn with
      | some client =>
        if client.closed then some { shard with connections := shard.connections.remove conn } else
          none
      | none => none
  else none

def sweepStep (roster : SharedRoster) (shard : Http3Shard) (e : SweepEvent) : Option Http3Shard :=
  (shard.sweep.step roster.generation e).map fun sweep =>
    let shard := if e = .enforce then shard.enforceRoster roster.load else shard
    { shard with sweep }

end Http3Shard

/-! ### HTTP/2 connections -/

/-- The loop of `identify_current_client`, then the life of the served connection. -/
inductive Http2Stage
  | identifying
  | loading (before : ℕ)
  | comparing (before : ℕ) (identity : Except IdentityError ClientIdentity)
  | serving (identity : Option ClientIdentity) (sweep : Sweep)
  | closed

structure Http2Connection where
  clientCerts : Bool
  peerCert : Option Bytes
  stage : Http2Stage

inductive Http2Event
  | identify
  | close

namespace Http2Connection

def identifyStep (codec : ClientCodec) (roster : SharedRoster) (conn : Http2Connection) :
    Option Http2Stage :=
  match conn.stage with
  | .identifying =>
    if conn.clientCerts then
      match conn.peerCert with
      | some _ => some (.loading roster.generation)
      | none => some .closed
    else some (.serving none ⟨0, .idle⟩)
  | .loading before =>
    conn.peerCert.map fun der => .comparing before (roster.load.identify codec der)
  | .comparing before identity =>
    if before = roster.generation then
      match identity with
      | .ok identity => some (.serving (some identity) ⟨roster.generation, .idle⟩)
      | .error _ => some .closed
    else some .identifying
  | .serving _ _ => none
  | .closed => none

def step (codec : ClientCodec) (roster : SharedRoster) (conn : Http2Connection) :
    Http2Event → Option Http2Connection
  | .identify => (conn.identifyStep codec roster).map fun stage => { conn with stage }
  | .close =>
    match conn.stage with
    | .serving _ sweep => if sweep.phase = .idle then some { conn with stage := .closed } else none
    | _ => some { conn with stage := .closed }

def sweepStep (roster : SharedRoster) (conn : Http2Connection) (e : SweepEvent) :
    Option Http2Connection :=
  match conn.stage with
  | .serving (some identity) sweep =>
    (sweep.step roster.generation e).map fun sweep =>
      if e = .enforce ∧ roster.load.stillAuthorizes identity = false then
        { conn with stage := .closed }
      else { conn with stage := .serving (some identity) sweep }
  | _ => none

def sweep (conn : Http2Connection) : Option Sweep :=
  match conn.stage with
  | .serving _ sweep => some sweep
  | _ => none

end Http2Connection

/-! ### The server -/

structure Server where
  roster : SharedRoster
  shards : Table ℕ Http3Shard
  http2 : Table ℕ Http2Connection

/-- Whoever records a generation as applied: a shard for all its connections, an HTTP/2
connection for itself. -/
inductive Worker
  | http3 (shard : ℕ)
  | http2 (conn : ℕ)
  deriving DecidableEq

inductive ServerEvent
  | store (registry : ClientRegistry)
  | advance
  | startShard (shard : ℕ) (clientCerts : Bool)
  | shard (shard : ℕ) (e : ShardEvent)
  | connect (conn : ℕ) (clientCerts : Bool) (peerCert : Option Bytes)
  | http2 (conn : ℕ) (e : Http2Event)
  | sweep (worker : Worker) (e : SweepEvent)

namespace Server

def start (registry : ClientRegistry) : Server := ⟨.new registry, ∅, ∅⟩

def setShard (s : Server) (i : ℕ) (shard : Http3Shard) : Server :=
  { s with shards := s.shards.put i shard }

def setHttp2 (s : Server) (j : ℕ) (conn : Http2Connection) : Server :=
  { s with http2 := s.http2.put j conn }

def step (codec : ClientCodec) (s : Server) : ServerEvent → Option Server
  | .store registry => some { s with roster := s.roster.store registry }
  | .advance => s.roster.advance.map fun roster => { s with roster }
  | .startShard i clientCerts =>
    if s.shards.contains i then none
    else some (s.setShard i ⟨clientCerts, ⟨s.roster.generation, .idle⟩, ∅⟩)
  | .shard i e => (s.shards.get i).bind fun shard =>
      (shard.step codec s.roster.load e).map (s.setShard i)
  | .connect j clientCerts peerCert =>
    if s.http2.contains j then none
    else some (s.setHttp2 j ⟨clientCerts, peerCert, .identifying⟩)
  | .http2 j e => (s.http2.get j).bind fun conn => (conn.step codec s.roster e).map (s.setHttp2 j)
  | .sweep (.http3 i) e => (s.shards.get i).bind fun shard =>
      (shard.sweepStep s.roster e).map (s.setShard i)
  | .sweep (.http2 j) e => (s.http2.get j).bind fun conn =>
      (conn.sweepStep s.roster e).map (s.setHttp2 j)

def sweepOf (s : Server) : Worker → Option Sweep
  | .http3 i => (s.shards.get i).map (·.sweep)
  | .http2 j => (s.http2.get j).bind (·.sweep)

end Server

end MasqueServer
