import MasqueServer.BasicCredentials
import MasqueServer.ClientRegistry
import MasqueServer.LeaseProtocol
import MasqueServer.RetryTokens

/-!
# Settings, server identity and the record of what is loaded

The parts of a configuration that startup and reload read, the TLS identity loaded from its two
paths, and the fingerprints of the sections a running server was configured with. Parsing and
serialization, certificates and keyed digests are left to libraries.
-/
namespace MasqueServer

/-! ### Sections of the configuration -/

inductive AuthMode
  | basic
  | clientCert
  deriving DecidableEq

structure ListenerAuth extends AuthSection where
  enabled : Bool
  mode : AuthMode

namespace ListenerAuth

variable (auth : ListenerAuth)

def basicEnabled : Bool := auth.enabled && auth.mode = .basic

def clientCertEnabled : Bool := auth.enabled && auth.mode = .clientCert

def withoutCredentials : ListenerAuth :=
  { auth with username := "", passwordHash := "", users := [] }

def basicUsers : List BasicUser :=
  if auth.basicEnabled then
    if auth.users = [] then [⟨auth.username, auth.passwordHash⟩] else auth.users
  else []

end ListenerAuth

/-- `tuning` stands for the settings of a listener that are recorded but not read here. -/
structure ListenerSection where
  listenAddr : SocketAddr
  transport : Transport
  auth : ListenerAuth
  tuning : String

structure TlsSection where
  certPath : String
  keyPath : String

structure IpProxySection where
  enabled : Bool
  ipv4Pool : String
  ipv6Pool : String
  tuning : String

/-- The sections that are recorded but not read here. -/
inductive TuningSection
  | server
  | quic
  | http2
  | tcpProxy
  | udpProxy
  | observability
  deriving DecidableEq

def TuningSection.name : TuningSection → String
  | .server => "server"
  | .quic => "quic"
  | .http2 => "http2"
  | .tcpProxy => "tcp_proxy"
  | .udpProxy => "udp_proxy"
  | .observability => "observability"

def tuningSections : List TuningSection :=
  [.server, .quic, .http2, .tcpProxy, .udpProxy, .observability]

structure ServerConfig where
  listeners : List ListenerSection
  clients : List ClientEntry
  tls : TlsSection
  ipProxy : IpProxySection
  tuning : TuningSection → String

def anyClientCertListener (config : ServerConfig) : Bool :=
  config.listeners.any (·.auth.clientCertEnabled)

/-! ### The client roster -/

inductive RosterError
  | entry (error : RegistryError)
  | empty

def activeClientRegistry (codec : ClientCodec) (config : ServerConfig) (anyClientCert : Bool) :
    Except RosterError ClientRegistry := do
  if !anyClientCert then return .empty
  let clients ← (ClientRegistry.fromConfig codec config.clients).mapError .entry
  if clients.isEmpty then throw .empty
  return clients

/-! ### The server's TLS identity -/

/-- What loading an identity takes from the TLS library; `install` is the trial installation
of a leaf, its key and its chain. -/
structure TlsLibrary (Certificate PrivateKey : Type) where
  stackFromPem : Bytes → Option (List Certificate)
  privateKeyFromPem : Bytes → Option PrivateKey
  publicKey : Certificate → Option Bytes
  publicEq : Bytes → PrivateKey → Bool
  toDer : Certificate → Option Bytes
  sha256 : Bytes → Bytes
  install : Certificate → PrivateKey → List Certificate → Bool

structure TlsIdentity (Certificate PrivateKey : Type) where
  leaf : Certificate
  chain : List Certificate
  privateKey : PrivateKey
  fingerprint : Bytes

inductive TlsError
  | readCertificate (path : String)
  | parseCertificate (path : String)
  | noCertificate (path : String)
  | readKey (path : String)
  | parseKey (path : String)
  | publicKey (path : String)
  | mismatch (keyPath certPath : String)
  | encoding
  | install
  deriving DecidableEq

def TlsIdentity.load {Certificate PrivateKey : Type} (tls : TlsLibrary Certificate PrivateKey)
    (readFile : String → Option Bytes) (config : TlsSection) :
    Except TlsError (TlsIdentity Certificate PrivateKey) := do
  let certificatePem ← (readFile config.certPath).elim
    (.error (.readCertificate config.certPath)) .ok
  let certificates ← (tls.stackFromPem certificatePem).elim
    (.error (.parseCertificate config.certPath)) .ok
  match certificates with
  | [] => .error (.noCertificate config.certPath)
  | leaf :: chain =>
    let privateKeyPem ← (readFile config.keyPath).elim (.error (.readKey config.keyPath)) .ok
    let privateKey ← (tls.privateKeyFromPem privateKeyPem).elim
      (.error (.parseKey config.keyPath)) .ok
    let publicKey ← (tls.publicKey leaf).elim (.error (.publicKey config.certPath)) .ok
    if !tls.publicEq publicKey privateKey then
      throw (.mismatch config.keyPath config.certPath)
    let ders ← (leaf :: chain).mapM fun certificate =>
      (tls.toDer certificate).elim (.error TlsError.encoding) .ok
    let digested := ders.flatMap fun der => toBeBytes 8 (BitVec.ofNat 64 der.length) ++ der
    if !tls.install leaf privateKey chain then throw .install
    return ⟨leaf, chain, privateKey, tls.sha256 digested⟩

/-- An identity with the session namespace that belongs to it. -/
structure TlsSnapshot (Certificate PrivateKey : Type) where
  identity : TlsIdentity Certificate PrivateKey
  generation : ℕ

def TlsSnapshot.replace {Certificate PrivateKey : Type}
    (current : TlsSnapshot Certificate PrivateKey) (identity : TlsIdentity Certificate PrivateKey) :
    TlsSnapshot Certificate PrivateKey :=
  ⟨identity, (current.generation + 1) % 2 ^ 64⟩

/-! ### The record of what is loaded -/

/-- What is recorded under the name of a section. -/
inductive SectionValue
  | listeners (listeners : List ListenerSection)
  | clients (clients : List ClientEntry)
  | tls (tls : TlsSection)
  | ipProxy (ipProxy : IpProxySection)
  | tuning (text : String)
  | basicCredentials (users : List (List BasicUser))
  | tlsIdentity (fingerprint : Bytes)

/-- Serialization to bytes, which may fail, and the keyed digest. -/
structure StatusLibrary where
  encode : SectionValue → Option Bytes
  sign : Bytes → Bytes → Bytes

structure RecordedSection where
  digest : Bytes
  reloadable : Bool
  deriving DecidableEq

structure ConfigSnapshot where
  version : String
  key : Bytes
  configFile : Option Bytes
  sections : Table String RecordedSection

/-- Credentials are recorded apart from their listeners, and clients only while some listener
uses them. -/
def sectionValues (config : ServerConfig) (tls : Bytes) : List (String × SectionValue) :=
  [("listeners", .listeners (config.listeners.map fun l =>
      { l with auth := l.auth.withoutCredentials })),
    ("clients", .clients (if anyClientCertListener config then config.clients else [])),
    ("tls", .tls config.tls),
    ("ip_proxy", .ipProxy config.ipProxy),
    ("basic_credentials", .basicCredentials (config.listeners.map (·.auth.basicUsers))),
    ("tls_identity", .tlsIdentity tls)] ++
  tuningSections.map fun part => (part.name, .tuning (config.tuning part))

def reloadable (name : String) : Bool :=
  name = "clients" || name = "basic_credentials" || name = "tls_identity"

def sections (status : StatusLibrary) (key : Bytes) (config : ServerConfig)
    (tls : Bytes) : Option (Table String RecordedSection) :=
  (sectionValues config tls).foldlM (fun recorded (name, value) =>
    (status.encode value).map fun bytes =>
      recorded.put name ⟨status.sign key bytes, reloadable name⟩) ∅

namespace ConfigSnapshot

def new (status : StatusLibrary) (canonicalize : String → Option Bytes) (version : String)
    (key : Bytes) (config : ServerConfig) (path : Option String) (tls : Bytes) :
    Option ConfigSnapshot := do
  let configFile ← match path with
    | none => some none
    | some path => (canonicalize path).map fun resolved => some (status.sign key resolved)
  let recorded ← MasqueServer.sections status key config tls
  return ⟨version, key, configFile, recorded⟩

def prepareReload (status : StatusLibrary) (snapshot : ConfigSnapshot) (config : ServerConfig)
    (tls : Bytes) : Option ConfigSnapshot :=
  (MasqueServer.sections status snapshot.key config tls).map fun loaded =>
    { snapshot with sections := snapshot.sections.overlay (·.reloadable) loaded }

end ConfigSnapshot

deriving instance DecidableEq for BasicUser
deriving instance DecidableEq for AuthSection
deriving instance DecidableEq for ListenerAuth
deriving instance DecidableEq for ListenerSection
deriving instance DecidableEq for TlsSection
deriving instance DecidableEq for IpProxySection
deriving instance DecidableEq for ClientEntry
deriving instance DecidableEq for SectionValue

end MasqueServer
