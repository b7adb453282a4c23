import MasqueServer.Cidr

/-!
# IP addresses and networks

Addresses are words in network order. An IPv4-mapped IPv6 address `::ffff:a.b.c.d` names the same
host as its IPv4 address, and the canonical form reads it so.
-/
namespace MasqueServer

abbrev Ipv4Addr := BitVec 32
abbrev Ipv6Addr := BitVec 128

inductive IpAddr
  | v4 (a : Ipv4Addr)
  | v6 (a : Ipv6Addr)
  deriving DecidableEq, Repr

inductive IpNet
  | v4 (n : Cidr 32)
  | v6 (n : Cidr 128)
  deriving DecidableEq

/-- `Ipv6Addr::to_ipv4_mapped`: defined on `::ffff:0:0/96` only. -/
def toIpv4Mapped (a : Ipv6Addr) : Option Ipv4Addr :=
  if a >>> 32 = 0xffff#128 then some (a.setWidth 32) else none

/-- `Ipv4Addr::to_ipv6_mapped`. -/
def toIpv6Mapped (a : Ipv4Addr) : Ipv6Addr := 0xffff#96 ++ a

/-- `IpAddr::to_canonical`. -/
def IpAddr.toCanonical : IpAddr → IpAddr
  | .v4 a => .v4 a
  | .v6 a => match toIpv4Mapped a with
    | some b => .v4 b
    | none => .v6 a

/-- `IpNet::contains` on an address: families never mix. -/
def IpNet.contains : IpNet → IpAddr → Bool
  | .v4 n, .v4 a => n.contains a
  | .v6 n, .v6 a => n.contains a
  | _, _ => false

theorem toIpv6Mapped_toNat (a : Ipv4Addr) :
    (toIpv6Mapped a).toNat = 0xffff * 2 ^ 32 + a.toNat := by
  have h := a.isLt
  rw [toIpv6Mapped, BitVec.toNat_append, Nat.shiftLeft_eq, Nat.mul_comm,
    ← Nat.two_pow_add_eq_or_of_lt h]
  rfl

lemma mapped_prefix_iff (a : Ipv6Addr) : a >>> 32 = 0xffff#128 ↔ a.toNat / 2 ^ 32 = 0xffff := by
  rw [← BitVec.toNat_inj, BitVec.toNat_ushiftRight, Nat.shiftRight_eq_div_pow]
  rfl

@[simp] theorem toIpv4Mapped_toIpv6Mapped (a : Ipv4Addr) :
    toIpv4Mapped (toIpv6Mapped a) = some a := by
  have h := a.isLt
  have hp : toIpv6Mapped a >>> 32 = 0xffff#128 := by
    rw [mapped_prefix_iff, toIpv6Mapped_toNat]
    omega
  rw [toIpv4Mapped, if_pos hp]
  congr 1
  apply BitVec.eq_of_toNat_eq
  rw [BitVec.toNat_setWidth, toIpv6Mapped_toNat]
  omega

theorem toIpv4Mapped_eq_some {a : Ipv6Addr} {v4 : Ipv4Addr} :
    toIpv4Mapped a = some v4 ↔ a = toIpv6Mapped v4 := by
  constructor
  · intro h
    unfold toIpv4Mapped at h
    split_ifs at h with hp
    rw [mapped_prefix_iff] at hp
    obtain rfl := Option.some.inj h
    apply BitVec.eq_of_toNat_eq
    rw [toIpv6Mapped_toNat, BitVec.toNat_setWidth]
    omega
  · rintro rfl
    simp

/-- An IPv4 address and its mapped form have one canonical form. -/
@[simp] theorem toCanonical_mapped (a : Ipv4Addr) :
    (IpAddr.v6 (toIpv6Mapped a)).toCanonical = .v4 a := by
  simp [IpAddr.toCanonical]

end MasqueServer
