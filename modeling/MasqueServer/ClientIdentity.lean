import MasqueServer.AddressPool

/-!
# Client identities

A pre-registered client is known by its public key and may be pinned to fixed tunnel
addresses, at most one of each family.
-/
namespace MasqueServer

structure ClientIdentity where
  name : String
  key : ClientKey
  ipv4 : Option Ipv4Addr
  ipv6 : Option Ipv6Addr
  deriving DecidableEq

namespace ClientIdentity

def staticAddresses (identity : ClientIdentity) : List IpAddr :=
  (identity.ipv4.map IpAddr.v4).toList ++ (identity.ipv6.map IpAddr.v6).toList

def hasStaticAddresses (identity : ClientIdentity) : Bool :=
  identity.ipv4.isSome || identity.ipv6.isSome

lemma nodup_staticAddresses (identity : ClientIdentity) : identity.staticAddresses.Nodup := by
  unfold staticAddresses
  cases identity.ipv4 <;> cases identity.ipv6 <;> simp

end ClientIdentity

end MasqueServer
