import MasqueServer.FiniteTable
import MasqueServer.RetryTokens

/-!
# Packets of one HTTP/3 shard

A shard finds the connection of a packet by the identifier the packet carries: by the key of its
connection table, while that identifier has not been retired, by an alias, or, for a first packet,
by the identifier derived from the client's own. Only a packet that belongs to no connection of any
shard may open a new one.
-/
namespace MasqueServer

def connIdLen : ℕ := 16

def minClientInitialLen : ℕ := 1200

inductive PacketType
  | initial
  | retry
  | handshake
  | zeroRtt
  | versionNegotiation
  | short
  deriving DecidableEq

structure QuicHeader where
  ty : PacketType
  version : BitVec 32
  dcid : ConnectionId
  token : Option Bytes

/-- One round of issuing a spare identifier: the random octets, and whether the connection takes
the identifier; there are none if the generator fails. -/
structure Draw where
  octets : Option Bytes
  taken : Bool

/-- A received packet, with what the QUIC library, the random generator and the admission
limiter answer while it is handled. -/
structure Packet where
  header : Option QuicHeader
  length : ℕ
  source : SocketAddr
  localAddr : SocketAddr
  now : BitVec 64
  nonce : Option Nonce
  admitted : Bool
  accepted : Bool
  received : Bool
  pathsKept : Bool
  retired : List ConnectionId
  established : Bool
  draws : List Draw

inductive PacketOutput
  | forward (shard : ℕ)
  | negotiateVersion
  | retry (scid : ConnectionId) (token : Bytes)
  deriving DecidableEq

/-- What a shard is set up with; `hmac` signs under the key for connection identifiers. -/
structure ShardConfig where
  index : ℕ
  reuseportIndex : Option UInt8
  retryMode : QuicRetryMode
  retryConnectionThreshold : ℕ
  maxConnections : ℕ
  hmac : Bytes → Bytes
  versionIsSupported : BitVec 32 → Bool

namespace ShardConfig

def tagged (config : ShardConfig) (octets : Bytes) : ConnectionId :=
  let id := octets.take connIdLen
  config.reuseportIndex.elim id fun index => id.set 0 index

def deriveConnectionId (config : ShardConfig) (destination : ConnectionId) : ConnectionId :=
  config.tagged (config.hmac destination)

end ShardConfig

structure ClientConnection where
  index : ℕ
  serverConnectionIds : List ConnectionId
  primaryConnectionIdActive : Bool

namespace ClientConnection

def new (index : ℕ) (initialConnectionId : ConnectionId) : ClientConnection :=
  ⟨index, [initialConnectionId], true⟩

def publishConnectionId (client : ClientConnection) (id : ConnectionId) : ClientConnection :=
  { client with serverConnectionIds := client.serverConnectionIds ++ [id] }

def retireConnectionId (client : ClientConnection) (id : ConnectionId) : ClientConnection :=
  { client with
    primaryConnectionIdActive :=
      if client.primaryConnectionIdActive && client.serverConnectionIds.head? = some id then false
      else client.primaryConnectionIdActive
    serverConnectionIds := client.serverConnectionIds.filter (· ≠ id) }

end ClientConnection

/-- The shard's own tables, and what it shares with the others: who owns an identifier or an
index, the next index, and the Retry tokens. -/
structure Shard where
  connections : Table ConnectionId ClientConnection
  connByIndex : Table ℕ ConnectionId
  connectionIdAliases : Table ConnectionId ConnectionId
  cidShard : Table ConnectionId ℕ
  indexShard : Table ℕ ℕ
  nextConnIndex : ℕ
  retryTokens : RetryTokenCodec

/-- The connection a packet goes to: one that exists, one just accepted, or none. -/
inductive Selection
  | existing (key : ConnectionId)
  | accepted (shard : Shard) (key : ConnectionId)
  | stop (shard : Shard) (output : Option PacketOutput)

namespace Shard

def new (retryTokens : RetryTokenCodec) : Shard := ⟨∅, ∅, ∅, ∅, ∅, 0, retryTokens⟩

def lookup (s : Shard) (dcid : ConnectionId) : Option ConnectionId :=
  match s.connections.get dcid with
  | some client =>
    if client.primaryConnectionIdActive then some dcid else s.connectionIdAliases.get dcid
  | none => s.connectionIdAliases.get dcid

variable (config : ShardConfig)

variable (s : Shard)

def owned (owner : ℕ) : Selection :=
  .stop s (if owner ≠ config.index then some (.forward owner) else none)

def entered (scid : ConnectionId) : Shard :=
  { s with
    connections := s.connections.put scid (.new s.nextConnIndex scid)
    connByIndex := s.connByIndex.put s.nextConnIndex scid
    cidShard := s.cidShard.put scid config.index
    indexShard := s.indexShard.put s.nextConnIndex config.index
    nextConnIndex := s.nextConnIndex + 1 }

variable (packet : Packet)

def accept (scid : ConnectionId) : Selection :=
  if config.maxConnections ≤ s.connections.size then .stop s none
  else if !packet.admitted then .stop s none
  else if !packet.accepted then .stop s none
  else .accepted (s.entered config scid) scid

/-- A first packet of no known connection: the address may have to be validated, and the
identifier is the derived one, or the one of a valid Retry. -/
def selectNew (hdr : QuicHeader) (derived : ConnectionId) : Selection :=
  let token := hdr.token.getD []
  if token = [] ∧ retryRequired config.retryMode s.connections.size
      config.retryConnectionThreshold = true then
    match s.retryTokens.mint packet.nonce packet.now packet.source packet.localAddr hdr.dcid with
    | none => .stop s none
    | some (retryToken, retryTokens) =>
      .stop { s with retryTokens } (some (.retry derived retryToken))
  else if token = [] ∨ config.retryMode = .off then s.accept config packet derived
  else
    match s.retryTokens.validateAt packet.source packet.localAddr token packet.now with
    | none => .stop s none
    | some odcid =>
      if config.deriveConnectionId odcid ≠ hdr.dcid then .stop s none
      else s.accept config packet hdr.dcid

/-- A first packet: a copy of one seen before belongs to the connection of the derived
identifier. -/
def selectInitial (hdr : QuicHeader) : Selection :=
  let derived := config.deriveConnectionId hdr.dcid
  if s.connections.contains derived then .existing derived
  else
    match s.cidShard.get derived with
    | some owner => s.owned config owner
    | none => s.selectNew config packet hdr derived

def select (hdr : QuicHeader) : Selection :=
  match s.lookup hdr.dcid with
  | some key => .existing key
  | none =>
    match s.cidShard.get hdr.dcid with
    | some owner => s.owned config owner
    | none =>
      if hdr.ty ≠ .initial then .stop s none
      else if packet.length < minClientInitialLen then .stop s none
      else if !config.versionIsSupported hdr.version then .stop s (some .negotiateVersion)
      else s.selectInitial config packet hdr

/-! ### Identifiers of a connection -/

/-- Named, so that deciding membership refers to it by name. -/
local instance lawfulConnectionId : LawfulBEq ConnectionId := inferInstance

/-- `sync_connection_ids` takes back every identifier that quiche retires. The test stands for
quiche's part: it retires only identifiers that were published for the connection. -/
def retireId (key : ConnectionId) (s : Shard) (id : ConnectionId) : Shard :=
  match s.connections.get key with
  | none => s
  | some client =>
    if id ∈ client.serverConnectionIds then
      { s with
        cidShard := s.cidShard.remove id
        connectionIdAliases := s.connectionIdAliases.remove id
        connections := s.connections.put key (client.retireConnectionId id) }
    else s

def publishId (key : ConnectionId) (s : Shard) (id : ConnectionId) : Shard :=
  match s.connections.get key with
  | none => s
  | some client =>
    { s with
      cidShard := s.cidShard.put id config.index
      connectionIdAliases := s.connectionIdAliases.put id key
      connections := s.connections.put key (client.publishConnectionId id) }

/-- Issue spare identifiers while the connection takes more; an identifier somebody owns is
drawn again. -/
def issueIds (config : ShardConfig) (key : ConnectionId) : Shard → List Draw → Shard
  | s, [] => s
  | s, draw :: draws =>
    match draw.octets with
    | none => s
    | some octets =>
      let id := config.tagged octets
      if s.cidShard.contains id then issueIds config key s draws
      else if !draw.taken then s
      else issueIds config key (publishId config key s id) draws

def syncConnectionIds (key : ConnectionId) : Shard :=
  let s := packet.retired.foldl (retireId key) s
  if packet.established then issueIds config key s packet.draws else s

def deliver (key : ConnectionId) : Option Shard :=
  (s.connections.get key).map fun _ =>
    if packet.received && packet.pathsKept then s.syncConnectionIds config packet key else s

def handlePacket : Option (Shard × Option PacketOutput) :=
  match packet.header with
  | none => some (s, none)
  | some hdr =>
    match s.select config packet hdr with
    | .existing key => (s.deliver config packet key).map (·, none)
    | .accepted s key => (s.deliver config packet key).map (·, none)
    | .stop s output => some (s, output)

def reap (index : ℕ) (isClosed : Bool) : Shard :=
  match s.connByIndex.get index with
  | none => s
  | some key =>
    match s.connections.get key with
    | none => s
    | some client =>
      if isClosed then
        { s with
          connections := s.connections.remove key
          connByIndex := s.connByIndex.remove client.index
          cidShard := client.serverConnectionIds.foldl Table.remove s.cidShard
          connectionIdAliases := client.serverConnectionIds.foldl Table.remove s.connectionIdAliases
          indexShard := s.indexShard.remove client.index }
      else s

end Shard

/-- What happens on the shard, and to the shared tables from outside: another shard publishes or
withdraws an identifier of its own, draws an index, or mints a token. -/
inductive TableEvent
  | packet (packet : Packet)
  | reap (index : ℕ) (isClosed : Bool)
  | publish (id : ConnectionId) (owner : ℕ)
  | withdraw (id : ConnectionId)
  | takeIndex
  | mint (request : MintRequest)

def Shard.step (config : ShardConfig) (s : Shard) : TableEvent → Option Shard
  | .packet packet => (s.handlePacket config packet).map Prod.fst
  | .reap index isClosed => some (s.reap index isClosed)
  | .publish id owner =>
    if owner = config.index ∨ s.cidShard.contains id then none
    else some { s with cidShard := s.cidShard.put id owner }
  | .withdraw id =>
    if s.cidShard.get id = some config.index then none
    else some { s with cidShard := s.cidShard.remove id }
  | .takeIndex => some { s with nextConnIndex := s.nextConnIndex + 1 }
  | .mint request =>
    (s.retryTokens.mintStep request).map fun retryTokens => { s with retryTokens }

end MasqueServer
