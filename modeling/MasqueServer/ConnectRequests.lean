import MasqueServer.BasicCredentials
import MasqueServer.Varint

/-!
# CONNECT requests

One pass over a header block collects the pseudo-headers and the proxy credential; a second
credential is noted rather than chosen. The method and `:protocol` select the kind of tunnel among
those the configuration enables, and the request is dispatched to its setup or refused with a
status.
-/
namespace MasqueServer

open List

structure Header where
  name : Bytes
  value : Bytes
  deriving DecidableEq

def Header.isPseudo (h : Header) : Bool := h.name.head? = some 58

inductive ConnectRequest
  | tcp (authority : Bytes)
  | udp (path : Bytes)
  | ip (path : Bytes) (standard : Bool) (validPseudoHeaders : Bool)
  deriving DecidableEq

/-- The variables of a CONNECT-IP path that restrict its tunnel. -/
structure IpScope where
  target : Bool
  ipproto : Bool
  deriving DecidableEq

/-- What request handling reads of the configuration. -/
structure RequestConfig where
  basicAuth : Bool
  tcpEnabled : Bool
  udpEnabled : Bool
  ipEnabled : Bool
  connectProtocols : List Bytes
  maxTunnels : ℕ
  parseConnectAuthority : Bytes → Bool
  parseUdpPath : Bytes → Bool
  parseIpPath : Bytes → Option IpScope

/-- What the pass over the header block has found so far. -/
structure RequestFields where
  method : Bytes
  path : Bytes
  scheme : Bytes
  protocol : Bytes
  authority : Bytes
  proxyAuthorization : Option Bytes
  duplicateProxyAuthorization : Bool

namespace RequestFields

def empty : RequestFields := ⟨[], [], [], [], [], none, false⟩

def read (f : RequestFields) (h : Header) : RequestFields :=
  if h.name = asBytes ":method" then { f with method := h.value }
  else if h.name = asBytes ":path" then { f with path := h.value }
  else if h.name = asBytes ":scheme" then { f with scheme := h.value }
  else if h.name = asBytes ":protocol" then { f with protocol := h.value }
  else if h.name = asBytes ":authority" then { f with authority := h.value }
  else if h.name = asBytes "proxy-authorization" then
    { f with
      proxyAuthorization := some h.value
      duplicateProxyAuthorization :=
        f.duplicateProxyAuthorization || f.proxyAuthorization.isSome }
  else f

def ofHeaders (headers : List Header) : RequestFields := headers.foldl read empty

end RequestFields

def acceptsConnectIp (configured : List Bytes) (protocol : Bytes) : Bool :=
  !protocol.isEmpty && configured.contains protocol

def classifyConnectRequest (f : RequestFields) (config : RequestConfig) : Option ConnectRequest :=
  if f.method ≠ asBytes "CONNECT" then none
  else if f.protocol.isEmpty && config.tcpEnabled then some (.tcp f.authority)
  else if f.protocol = asBytes "connect-udp" && config.udpEnabled then some (.udp f.path)
  else if config.ipEnabled && acceptsConnectIp config.connectProtocols f.protocol then
    some (.ip f.path (f.protocol = asBytes "connect-ip")
      (!f.authority.isEmpty && !f.scheme.isEmpty && !f.path.isEmpty))
  else none

/-- The status that refuses a CONNECT-IP request. Deployed aliases are taken as they are; a
scope is refused because no data path would enforce it. -/
def prepareConnectIp (path : Bytes) (standard validPseudoHeaders : Bool)
    (config : RequestConfig) : Option ℕ :=
  if !standard then none
  else if !validPseudoHeaders then some 400
  else
    match config.parseIpPath path with
    | none => some 400
    | some scope => if scope.target || scope.ipproto then some 501 else none

def datagramHeader (streamId : ℕ) : Bool := streamId % 4 = 0 && streamId ≤ Varint.maxValue

/-- Where an authorized request goes. -/
inductive Dispatch
  | tcp
  | udp
  | ip
  | error (status : ℕ)
  deriving DecidableEq

def ConnectRequest.dispatch (config : RequestConfig) (streamId : ℕ) : ConnectRequest → Dispatch
  | .tcp authority => if config.parseConnectAuthority authority then .tcp else .error 400
  | .udp path =>
    if !config.parseUdpPath path then .error 400
    else if !datagramHeader streamId then .error 400
    else .udp
  | .ip path standard validPseudoHeaders =>
    match prepareConnectIp path standard validPseudoHeaders config with
    | some status => .error status
    | none => .ip

/-! ### The credential of a header block -/

def proxyCredentials (headers : List Header) : List Bytes :=
  (headers.filter fun h => h.name = asBytes "proxy-authorization").map (·.value)

namespace RequestFields

lemma read_credential (f : RequestFields) (h : Header) :
    (f.read h).proxyAuthorization =
        (if h.name = asBytes "proxy-authorization" then some h.value else f.proxyAuthorization) ∧
      (f.read h).duplicateProxyAuthorization =
        (f.duplicateProxyAuthorization ||
          (h.name = asBytes "proxy-authorization" && f.proxyAuthorization.isSome)) := by
  have hnames : asBytes "proxy-authorization" ∉
      [asBytes ":method", asBytes ":path", asBytes ":scheme", asBytes ":protocol",
        asBytes ":authority"] := by decide
  by_cases hname : h.name = asBytes "proxy-authorization"
  · simp only [mem_cons, not_mem_nil, or_false, not_or] at hnames
    simp [read, hname, hnames]
  · unfold read
    split_ifs <;> simp_all

lemma foldl_credential {headers : List Header} {value : Bytes} {f : RequestFields}
    (hvalue : (headers.foldl read f).proxyAuthorization = some value)
    (hsingle : (headers.foldl read f).duplicateProxyAuthorization = false) :
    f.duplicateProxyAuthorization = false ∧
      f.proxyAuthorization.toList ++ proxyCredentials headers = [value] := by
  induction headers generalizing f with
  | nil =>
    rw [foldl_nil] at hvalue hsingle
    rw [hvalue]
    exact ⟨hsingle, rfl⟩
  | cons h headers ih =>
    obtain ⟨hdup, hcredentials⟩ := ih hvalue hsingle
    rw [(f.read_credential h).2, Bool.or_eq_false_iff] at hdup
    rw [(f.read_credential h).1] at hcredentials
    refine ⟨hdup.1, ?_⟩
    by_cases hname : h.name = asBytes "proxy-authorization"
    · have hnone : f.proxyAuthorization = none := by
        simpa [hname] using hdup.2
      rw [if_pos hname] at hcredentials
      rw [hnone]
      simpa [proxyCredentials, hname] using hcredentials
    · rw [if_neg hname] at hcredentials
      simpa [proxyCredentials, hname] using hcredentials

theorem ofHeaders_credential {headers : List Header} {value : Bytes}
    (hvalue : (ofHeaders headers).proxyAuthorization = some value)
    (hsingle : (ofHeaders headers).duplicateProxyAuthorization = false) :
    proxyCredentials headers = [value] :=
  (foldl_credential hvalue hsingle).2

end RequestFields

end MasqueServer
