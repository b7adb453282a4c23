import MasqueServer.Capsule
import MasqueServer.FiniteTable

/-!
# Answers to address requests

A tunnel answers address requests from its own lease and never widens it. Request identifiers
are nonzero and used once in a tunnel's life, which also bounds their number.
-/
namespace MasqueServer

def maxAddressRequestIds : ℕ := 1024

/-- The request identifiers used so far. -/
structure AddressRequests where
  seen : Table ℕ Unit

namespace AddressRequests

def new : AddressRequests := ⟨∅⟩

def record : Table ℕ Unit → List AssignedAddress → Table ℕ Unit × Except DecodeError Unit
  | seen, [] => (seen, .ok ())
  | seen, request :: requests =>
    if request.requestId = 0 || seen.contains request.requestId then
      (seen, .error (.malformed "reused ADDRESS_REQUEST identifier"))
    else record (seen.put request.requestId ()) requests

def assignment (requestId : ℕ) : IpAddr → AssignedAddress
  | .v4 ip => ⟨requestId, .v4 ip, 32⟩
  | .v6 ip => ⟨requestId, .v6 ip, 128⟩

def answers (request : AssignedAddress) (ip : IpAddr) : Bool :=
  match ip, request.ip with
  | .v4 ip, .v4 wanted => request.prefixLen = 32 && (wanted = 0 || ip = wanted)
  | .v6 ip, .v6 wanted => request.prefixLen = 128 && (wanted = 0 || ip = wanted)
  | _, _ => false

def rejected (request : AssignedAddress) : IpAddr :=
  match request.ip with
  | .v4 _ => .v4 0
  | .v6 _ => .v6 0

def assign (lease : List IpAddr) (request : AssignedAddress) : AssignedAddress :=
  assignment request.requestId ((lease.find? (answers request)).getD (rejected request))

def complete (assigned : List AssignedAddress) (lease : List IpAddr) : List AssignedAddress :=
  lease.foldl (fun assigned ip =>
    let entry := assignment 0 ip
    if assigned.any fun address => address.ip = entry.ip then assigned else assigned ++ [entry])
    assigned

def respond (state : AddressRequests) (requests : List AssignedAddress) (lease : List IpAddr) :
    AddressRequests × Except DecodeError CapsuleFrame :=
  if requests.isEmpty || maxAddressRequestIds - state.seen.size < requests.length then
    (state, .error (.malformed "ADDRESS_REQUEST limit exceeded"))
  else
    match record state.seen requests with
    | (seen, .error e) => (⟨seen⟩, .error e)
    | (seen, .ok ()) =>
      (⟨seen⟩, .ok (.addressAssign (complete (requests.map (assign lease)) lease)))

end AddressRequests

end MasqueServer
