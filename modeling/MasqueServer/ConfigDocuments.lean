import MasqueServer.AddressDisplay
import MasqueServer.ServerSettings
import MasqueServer.TomlDocuments

/-!
# Configurations as documents

How the sections of a configuration file are deserialized: every field has a default or is
required, and a key that is no field is refused. Users, authentication and listeners are read from
tables and arrays of tables; what restricts the targets of a listener is left to the library.
-/
namespace MasqueServer

open Option

/-- The authentication section with its obsolete switch. -/
structure ConfigAuth extends ListenerAuth where
  stealth : Bool
  deriving DecidableEq

structure ListenerBlock (Targets : Type) where
  listenAddr : SocketAddr
  transport : Transport
  shards : BitVec 64
  maxDatagramSize : Option (BitVec 64)
  tcpTargets : Option Targets
  udpTargets : Option Targets
  auth : ConfigAuth

def Transport.asStr : Transport → String
  | .http3 => "http3"
  | .http2 => "http2"

namespace TomlItem

def asString : TomlItem → Option String
  | .string value => some value
  | _ => none

def asBool : TomlItem → Option Bool
  | .boolean value => some value
  | _ => none

def asUsize : TomlItem → Option (BitVec 64)
  | .integer value => if value < 2 ^ 64 then some (BitVec.ofNat 64 value) else none
  | _ => none

def asTable : TomlItem → Option TomlTable
  | .table entries => some entries
  | _ => none

def asTables : TomlItem → Option (List TomlTable)
  | .tables elements => some elements
  | _ => none

def asTransport (item : TomlItem) : Option Transport :=
  item.asString.bind fun text =>
    if text = "http3" then some .http3 else if text = "http2" then some .http2 else none

def asAuthMode (item : TomlItem) : Option AuthMode :=
  item.asString.bind fun text =>
    if text = "basic" then some .basic else if text = "client_cert" then some .clientCert else none

def asSocketAddr (item : TomlItem) : Option SocketAddr :=
  item.asString.bind fun text => parseSocketAddr text.toList

end TomlItem

namespace TomlTable

def required {α : Type} (table : TomlTable) (key : String) (decode : TomlItem → Option α) :
    Option α :=
  (get table key).bind decode

def field {α : Type} (table : TomlTable) (key : String) (default : α)
    (decode : TomlItem → Option α) : Option α :=
  (get table key).elim (some default) decode

def optional {α : Type} (table : TomlTable) (key : String) (decode : TomlItem → Option α) :
    Option (Option α) :=
  table.field key none fun item => (decode item).map some

def hasOnly (table : TomlTable) (keys : List String) : Bool := table.all fun entry => entry.1 ∈ keys

end TomlTable

open TomlTable in
def decodeUser (table : TomlTable) : Option BasicUser := do
  if !hasOnly table ["username", "password_hash"] then none
  let username ← field table "username" "" TomlItem.asString
  let passwordHash ← field table "password_hash" "" TomlItem.asString
  return ⟨username, passwordHash⟩

open TomlTable in
def decodeAuth (table : TomlTable) : Option ConfigAuth := do
  if !hasOnly table ["enabled", "mode", "stealth", "username", "password_hash", "users"] then none
  let enabled ← field table "enabled" true TomlItem.asBool
  let mode ← field table "mode" .basic TomlItem.asAuthMode
  let stealth ← field table "stealth" false TomlItem.asBool
  let username ← field table "username" "" TomlItem.asString
  let passwordHash ← field table "password_hash" "" TomlItem.asString
  let users ← field table "users" [] fun item => item.asTables.bind (·.mapM decodeUser)
  return ⟨⟨⟨username, passwordHash, users⟩, enabled, mode⟩, stealth⟩

open TomlTable in
def decodeListener {Targets : Type} (decodeTargets : TomlItem → Option Targets)
    (table : TomlTable) :
    Option (ListenerBlock Targets) := do
  if !hasOnly table ["listen_addr", "transport", "shards", "max_datagram_size", "tcp_targets",
    "udp_targets", "auth"] then none
  let listenAddr ← required table "listen_addr" TomlItem.asSocketAddr
  let transport ← field table "transport" .http3 TomlItem.asTransport
  let shards ← field table "shards" 1 TomlItem.asUsize
  let maxDatagramSize ← optional table "max_datagram_size" TomlItem.asUsize
  let tcpTargets ← optional table "tcp_targets" decodeTargets
  let udpTargets ← optional table "udp_targets" decodeTargets
  let auth ← required table "auth" fun item => item.asTable.bind decodeAuth
  return ⟨listenAddr, transport, shards, maxDatagramSize, tcpTargets, udpTargets, auth⟩

open TomlTable in
def decodeClient (table : TomlTable) : Option ClientEntry := do
  if !hasOnly table ["name", "public_key", "ipv4", "ipv6"] then none
  let name ← field table "name" "" TomlItem.asString
  let publicKey ← field table "public_key" "" TomlItem.asString
  let ipv4 ← optional table "ipv4" TomlItem.asString
  let ipv6 ← optional table "ipv6" TomlItem.asString
  return ⟨name, publicKey, ipv4, ipv6⟩

/-! ### What is read -/

section Fields

open TomlTable

variable {table : TomlTable} {Targets : Type} {decodeTargets : TomlItem → Option Targets}

lemma decodeUser_eq_some_iff {user : BasicUser} :
    decodeUser table = some user ↔
      hasOnly table ["username", "password_hash"] = true ∧
      field table "username" "" TomlItem.asString = some user.username ∧
      field table "password_hash" "" TomlItem.asString = some user.passwordHash := by
  unfold decodeUser
  cases hasOnly table ["username", "password_hash"] with
  | false => simp
  | true =>
    simp only [Bool.not_true, Bool.false_eq_true, if_false, bind_eq_bind, Option.pure_def,
      bind_eq_some_iff, some.injEq, true_and]
    constructor
    · rintro ⟨_, husername, _, hhash, rfl⟩
      exact ⟨husername, hhash⟩
    · rintro ⟨husername, hhash⟩
      exact ⟨_, husername, _, hhash, rfl⟩

lemma decodeAuth_eq_some_iff {auth : ConfigAuth} :
    decodeAuth table = some auth ↔
      hasOnly table ["enabled", "mode", "stealth", "username", "password_hash", "users"] = true ∧
      field table "enabled" true TomlItem.asBool = some auth.enabled ∧
      field table "mode" .basic TomlItem.asAuthMode = some auth.mode ∧
      field table "stealth" false TomlItem.asBool = some auth.stealth ∧
      field table "username" "" TomlItem.asString = some auth.username ∧
      field table "password_hash" "" TomlItem.asString = some auth.passwordHash ∧
      field table "users" [] (fun item => item.asTables.bind (·.mapM decodeUser)) =
        some auth.users := by
  unfold decodeAuth
  cases hasOnly table ["enabled", "mode", "stealth", "username", "password_hash", "users"] with
  | false => simp
  | true =>
    simp only [Bool.not_true, Bool.false_eq_true, if_false, bind_eq_bind, Option.pure_def,
      bind_eq_some_iff, some.injEq, true_and]
    constructor
    · rintro ⟨_, henabled, _, hmode, _, hstealth, _, husername, _, hhash, _, husers, rfl⟩
      exact ⟨henabled, hmode, hstealth, husername, hhash, husers⟩
    · rintro ⟨henabled, hmode, hstealth, husername, hhash, husers⟩
      exact ⟨_, henabled, _, hmode, _, hstealth, _, husername, _, hhash, _, husers, rfl⟩

lemma decodeListener_eq_some_iff {listener : ListenerBlock Targets} :
    decodeListener decodeTargets table = some listener ↔
      hasOnly table ["listen_addr", "transport", "shards", "max_datagram_size", "tcp_targets",
        "udp_targets", "auth"] = true ∧
      required table "listen_addr" TomlItem.asSocketAddr = some listener.listenAddr ∧
      field table "transport" .http3 TomlItem.asTransport = some listener.transport ∧
      field table "shards" 1 TomlItem.asUsize = some listener.shards ∧
      optional table "max_datagram_size" TomlItem.asUsize = some listener.maxDatagramSize ∧
      optional table "tcp_targets" decodeTargets = some listener.tcpTargets ∧
      optional table "udp_targets" decodeTargets = some listener.udpTargets ∧
      required table "auth" (fun item => item.asTable.bind decodeAuth) = some listener.auth := by
  unfold decodeListener
  cases hasOnly table ["listen_addr", "transport", "shards", "max_datagram_size", "tcp_targets",
    "udp_targets", "auth"] with
  | false => simp
  | true =>
    simp only [Bool.not_true, Bool.false_eq_true, if_false, bind_eq_bind, Option.pure_def,
      bind_eq_some_iff, some.injEq, true_and]
    constructor
    · rintro ⟨_, haddr, _, htransport, _, hshards, _, hsize, _, htcp, _, hudp, _, hauth, rfl⟩
      exact ⟨haddr, htransport, hshards, hsize, htcp, hudp, hauth⟩
    · rintro ⟨haddr, htransport, hshards, hsize, htcp, hudp, hauth⟩
      exact ⟨_, haddr, _, htransport, _, hshards, _, hsize, _, htcp, _, hudp, _, hauth, rfl⟩

end Fields

end MasqueServer
