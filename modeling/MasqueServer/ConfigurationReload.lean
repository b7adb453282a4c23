import MasqueServer.RosterProtocol
import MasqueServer.ServerSettings
import MasqueServer.Transactions

/-!
# Startup and reload of the configuration

Startup captures what must not change while the server runs: the addresses, transports and
authentication kinds of its listeners, the TLS paths, and whether pinned addresses are reserved at
all. A reload reads the file again, prepares every replacement, and then installs them one after the
other in the shared state.
-/
namespace MasqueServer

inductive ReloadAuthKind
  | disabled
  | basic
  | clientCert
  deriving DecidableEq

def ListenerAuth.reloadKind (auth : ListenerAuth) : ReloadAuthKind :=
  if auth.basicEnabled then .basic
  else if auth.clientCertEnabled then .clientCert
  else .disabled

structure ReloadListener where
  listenAddr : SocketAddr
  transport : Transport
  auth : ReloadAuthKind
  deriving DecidableEq

def ListenerSection.reloadListener (listener : ListenerSection) : ReloadListener :=
  ⟨listener.listenAddr, listener.transport, listener.auth.reloadKind⟩

/-- What governs every reload of this process. -/
structure ConfigReload where
  path : String
  tls : TlsSection
  clientCertEnabled : Bool
  ipProxyEnabled : Bool
  listeners : List ReloadListener

def configReloadSettings (config : ServerConfig) (configPath : Option String) :
    Option ConfigReload :=
  configPath.map fun path =>
    { path
      tls := config.tls
      clientCertEnabled := anyClientCertListener config
      ipProxyEnabled := config.ipProxy.enabled
      listeners := config.listeners.map (·.reloadListener) }

section

variable {Key Digest Certificate PrivateKey : Type}

/-- The shared state a reload replaces parts of. `credentials` are all credentials allocated so
far; the slot of a listener is empty unless it uses Basic authentication. -/
structure Shared (Key Certificate PrivateKey : Type) where
  world : World
  basicAuth : List (Option BasicAuthenticator)
  credentials : List (BasicCredential Key)
  clients : SharedRoster
  tls : TlsSnapshot Certificate PrivateKey
  loadedConfig : ConfigSnapshot
  configReload : Option ConfigReload

structure Libraries (Key Digest Certificate PrivateKey : Type) where
  parseToml : String → Option ServerConfig
  parseV4 : String → Option (Cidr 32)
  parseV6 : String → Option (Cidr 128)
  basic : BasicPrimitives Key Digest
  clients : ClientCodec
  tls : TlsLibrary Certificate PrivateKey
  status : StatusLibrary

/-- What startup or one reload finds: the files, and the cache keys the random generator gives
to the users of each listener. -/
structure Surroundings (Key : Type) where
  readToString : String → Option String
  readFile : String → Option Bytes
  canonicalize : String → Option Bytes
  cacheKeys : ℕ → ℕ → Option Key

variable (lib : Libraries Key Digest Certificate PrivateKey) (found : Surroundings Key)

def basicSlot (index : ℕ) (basic : Bool) (credentials : List (BasicCredential Key))
    (auth : ListenerAuth) :
    Except BasicError (Option BasicAuthenticator × List (BasicCredential Key)) :=
  if basic then
    (fromSection lib.basic (found.cacheKeys index) credentials auth.toAuthSection).map
      fun built => (some built.1, built.2)
  else .ok (none, credentials)

/-! ### Startup -/

inductive StartupError
  | clients (error : RosterError)
  | pool (error : PoolError)
  | reservation (addr : IpAddr) (error : PoolError)
  | tls (error : TlsError)
  | basic (error : BasicError)
  | seed
  | status

def reserveEach : List (IpAddr × ClientKey) → AddressPool → Except StartupError AddressPool
  | [], pool => .ok pool
  | (addr, owner) :: rest, pool => do
    let pool ← (pool.reserveStatic addr owner).mapError (.reservation addr)
    reserveEach rest pool

def startReservations (config : ServerConfig) (clients : ClientRegistry) (pool : AddressPool) :
    Except StartupError AddressPool :=
  if config.ipProxy.enabled then reserveEach clients.staticReservations pool else .ok pool

def startCredentials : ℕ → List (BasicCredential Key) → List ListenerSection →
    Except BasicError (List (Option BasicAuthenticator) × List (BasicCredential Key))
  | _, credentials, [] => .ok ([], credentials)
  | index, credentials, listener :: rest => do
    let slot ← basicSlot lib found index listener.auth.basicEnabled credentials listener.auth
    let slots ← startCredentials (index + 1) slot.2 rest
    return (slot.1 :: slots.1, slots.2)

/-- The shared state of a process that starts with `config`. The validation of settings that no
reload reads is left out: it only refuses configurations. -/
def bindWithReload (version : String) (statusKey : Option Bytes) (config : ServerConfig)
    (configPath : Option String) :
    Except StartupError (Shared Key Certificate PrivateKey) := do
  let clients ← (activeClientRegistry lib.clients config (anyClientCertListener config)).mapError
    .clients
  let pool ← (AddressPool.new lib.parseV4 lib.parseV6 config.ipProxy.ipv4Pool
    config.ipProxy.ipv6Pool).mapError .pool
  let reserved ← startReservations config clients pool
  let identity ← (TlsIdentity.load lib.tls found.readFile config.tls).mapError .tls
  let basic ← (startCredentials lib found 0 [] config.listeners).mapError .basic
  let key ← statusKey.elim (.error .seed) .ok
  let loadedConfig ← (ConfigSnapshot.new lib.status found.canonicalize version key config configPath
    identity.fingerprint).elim (.error .status) .ok
  return { world := { World.start pool.v4Net pool.v6Net with pool := reserved }
           basicAuth := basic.1
           credentials := basic.2
           clients := .new clients
           tls := ⟨identity, 0⟩
           loadedConfig
           configReload := configReloadSettings config configPath }

/-! ### Reload -/

inductive ReloadError
  | noFile
  | read (path : String)
  | parse (path : String)
  | listenerCount (startup current : ℕ)
  | listenerChanged (position : ℕ)
  | basicCredentials (position : ℕ) (error : BasicError)
  | tls (error : TlsError)
  | sections
  | noClientCert
  | roster (error : RosterError)
  | reservation (error : PoolError)
  /-- The `unreachable!` of the loop that installs the credentials. -/
  | slotMismatch

/-- What a reload reports: the new generation of the TLS identity, that of the roster with its
number of clients, and the number of Basic listeners with that of their users. -/
structure ReloadOutcome where
  tlsGeneration : ℕ
  roster : Option (ℕ × ℕ)
  basic : Option (ℕ × ℕ)

def prepareListeners : ℕ → List (BasicCredential Key) → List (ReloadListener × ListenerSection) →
    Except ReloadError (List (Option BasicAuthenticator) × List (BasicCredential Key))
  | _, credentials, [] => .ok ([], credentials)
  | index, credentials, (startup, current) :: rest =>
    if startup ≠ current.reloadListener then .error (.listenerChanged (index + 1))
    else do
      let slot ← (basicSlot lib found index (startup.auth = .basic) credentials
        current.auth).mapError (.basicCredentials (index + 1))
      let slots ← prepareListeners (index + 1) slot.2 rest
      return (slot.1 :: slots.1, slots.2)

def reloadRegistry (reload : ConfigReload) (config : ServerConfig) :
    Except ReloadError (Option ClientRegistry) :=
  if reload.clientCertEnabled then
    if !anyClientCertListener config then .error .noClientCert
    else ((activeClientRegistry lib.clients config (anyClientCertListener config)).map
      some).mapError .roster
  else .ok none

namespace Shared

def reserve (reload : ConfigReload) (registry : Option ClientRegistry)
    (shared : Shared Key Certificate PrivateKey) :
    Except ReloadError (Shared Key Certificate PrivateKey) :=
  match reload.ipProxyEnabled, registry with
  | true, some registry =>
    ((shared.world.pool.setStaticReservations registry.staticReservations).mapError
      .reservation).map fun pool => { shared with world := { shared.world with pool } }
  | _, _ => .ok shared

def setSlot (index : ℕ) (replacement : BasicAuthenticator)
    (shared : Shared Key Certificate PrivateKey) : Shared Key Certificate PrivateKey :=
  { shared with basicAuth := shared.basicAuth.set index (some replacement) }

end Shared

open Transaction in
def installCredentials : ℕ → List (Option BasicAuthenticator × Option BasicAuthenticator) →
    Transaction (Shared Key Certificate PrivateKey) ReloadError (ℕ × ℕ)
  | _, [] => return (0, 0)
  | index, (some replacement, some _) :: rest => do
    write fun shared => ((), shared.setSlot index replacement)
    let counts ← installCredentials (index + 1) rest
    return (counts.1 + 1, counts.2 + replacement.size)
  | index, (none, none) :: rest => installCredentials (index + 1) rest
  | _, _ => throw .slotMismatch

namespace Shared

def replaceRoster (registry : Option ClientRegistry) (shared : Shared Key Certificate PrivateKey) :
    Option (ℕ × ℕ) × Shared Key Certificate PrivateKey :=
  match registry with
  | some registry =>
    let clients := shared.clients.replace registry
    (some (clients.generation, registry.size), { shared with clients })
  | none => (none, shared)

def replaceTls (identity : TlsIdentity Certificate PrivateKey)
    (shared : Shared Key Certificate PrivateKey) : ℕ × Shared Key Certificate PrivateKey :=
  let tls := shared.tls.replace identity
  (tls.generation, { shared with tls })

end Shared

open Transaction in
def installReload (slots : List (Option BasicAuthenticator))
    (credentials : List (BasicCredential Key)) (registry : Option ClientRegistry)
    (identity : TlsIdentity Certificate PrivateKey) (loadedConfig : ConfigSnapshot) :
    Transaction (Shared Key Certificate PrivateKey) ReloadError ReloadOutcome := do
  let shared ← get
  write fun shared => ((), { shared with credentials })
  let counts ← installCredentials 0 (slots.zip shared.basicAuth)
  let roster ← write (Shared.replaceRoster registry)
  let tlsGeneration ← write (Shared.replaceTls identity)
  write fun shared => ((), { shared with loadedConfig })
  return ⟨tlsGeneration, roster, if 0 < counts.1 then some counts else none⟩

open Transaction in
def reloadConfiguration :
    Transaction (Shared Key Certificate PrivateKey) ReloadError ReloadOutcome := do
  let shared ← get
  let reload ← require (shared.configReload.elim (.error .noFile) .ok)
  let text ← require ((found.readToString reload.path).elim (.error (.read reload.path)) .ok)
  let config ← require ((lib.parseToml text).elim (.error (.parse reload.path)) .ok)
  require (if config.listeners.length ≠ reload.listeners.length then
    .error (.listenerCount reload.listeners.length config.listeners.length) else .ok ())
  let basic ← require (prepareListeners lib found 0 shared.credentials
    (reload.listeners.zip config.listeners))
  let identity ← require ((TlsIdentity.load lib.tls found.readFile reload.tls).mapError .tls)
  let loadedConfig ← require ((shared.loadedConfig.prepareReload lib.status config
    identity.fingerprint).elim (.error .sections) .ok)
  let registry ← require (reloadRegistry lib reload config)
  attempt (Shared.reserve reload registry)
  installReload basic.1 basic.2 registry identity loadedConfig

/-! ### The running server -/

/-- Steps of the tunnels and of the packet relay, and reloads, each with what it finds. -/
inductive ServiceEvent (Key : Type)
  | tunnel (e : TunnelEvent)
  | reload (found : Surroundings Key)

def Shared.step (shared : Shared Key Certificate PrivateKey) :
    ServiceEvent Key → Option (Shared Key Certificate PrivateKey)
  | .tunnel (.setStaticReservations _) => none
  | .tunnel e => (shared.world.step e).map fun world => { shared with world }
  | .reload found => some ((reloadConfiguration lib found).perform shared).2

end

end MasqueServer
