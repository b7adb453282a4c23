import Mathlib.Data.Nat.Bitwise
import Mathlib.Tactic

/-!
# Address prefixes of a fixed width

A prefix is an address together with the number of leading bits that are fixed. Masks, the network
address and the range test are words of the address width.
-/
namespace MasqueServer

/-- An address of `w` bits with a prefix length that fits the width. It stands for `Ipv4Net` and
`Ipv6Net` of the `ipnet` crate as that crate documents them: any address is taken, `network` clears
its host bits, and a prefix contains the addresses that share its network bits. -/
structure Cidr (w : ℕ) where
  addr : BitVec w
  prefixLen : ℕ
  prefixLen_le : prefixLen ≤ w
  deriving DecidableEq

namespace Cidr

variable {w : ℕ}

abbrev hostBits (n : Cidr w) : ℕ := w - n.prefixLen

variable (n : Cidr w)

def netmask : BitVec w := BitVec.allOnes w <<< n.hostBits

def hostmask : BitVec w := ~~~n.netmask

def network : BitVec w := n.addr &&& n.netmask

def broadcast : BitVec w := n.addr ||| n.hostmask

def contains (a : BitVec w) : Bool := n.network ≤ a && a ≤ n.broadcast

lemma hostRange_pos : 0 < 2 ^ n.hostBits := Nat.two_pow_pos _

theorem network_eq_shift : n.network = n.addr >>> n.hostBits <<< n.hostBits := by
  ext i hi
  simp only [network, netmask]
  by_cases h : i < n.hostBits
  · simp [h]
  · have he : n.hostBits + (i - n.hostBits) = i := by omega
    simp [h, he, hi]

theorem network_toNat : n.network.toNat = n.addr.toNat / 2 ^ n.hostBits * 2 ^ n.hostBits := by
  have hle := Nat.div_mul_le_self n.addr.toNat (2 ^ n.hostBits)
  have hlt := n.addr.isLt
  rw [network_eq_shift, BitVec.toNat_shiftLeft, BitVec.toNat_ushiftRight,
    Nat.shiftRight_eq_div_pow, Nat.shiftLeft_eq]
  exact Nat.mod_eq_of_lt (by omega)

theorem hostmask_toNat : n.hostmask.toNat = 2 ^ n.hostBits - 1 := by
  have hbits : n.hostmask = BitVec.ofNat w (2 ^ n.hostBits - 1) := by
    ext i hi
    rw [← BitVec.getLsbD_eq_getElem, ← BitVec.getLsbD_eq_getElem, BitVec.getLsbD_ofNat,
      Nat.testBit_two_pow_sub_one]
    by_cases h : i < n.hostBits <;> simp [hostmask, netmask, h, hi]
  have hle : 2 ^ n.hostBits ≤ 2 ^ w := Nat.pow_le_pow_right (by omega) (Nat.sub_le _ _)
  have hpos := n.hostRange_pos
  rw [hbits, BitVec.toNat_ofNat]
  exact Nat.mod_eq_of_lt (by omega)

theorem network_or_toNat (off : BitVec w) (h : off.toNat < 2 ^ n.hostBits) :
    (n.network ||| off).toNat = n.network.toNat + off.toNat := by
  rw [BitVec.toNat_or, network_toNat, Nat.mul_comm, ← Nat.two_pow_add_eq_or_of_lt h]

theorem broadcast_eq : n.broadcast = n.network ||| n.hostmask := by
  ext i hi
  simp only [broadcast, network, hostmask, BitVec.getElem_or, BitVec.getElem_and,
    BitVec.getElem_not]
  cases n.addr[i] <;> cases n.netmask[i] <;> rfl

theorem broadcast_toNat : n.broadcast.toNat = n.network.toNat + (2 ^ n.hostBits - 1) := by
  have hpos := n.hostRange_pos
  rw [broadcast_eq, network_or_toNat n _ (by rw [hostmask_toNat]; omega), hostmask_toNat]

theorem contains_iff (a : BitVec w) :
    n.contains a = true ↔ a.toNat / 2 ^ n.hostBits = n.addr.toNat / 2 ^ n.hostBits := by
  have hpos := n.hostRange_pos
  simp only [contains, Bool.and_eq_true, decide_eq_true_eq, BitVec.le_def, broadcast_toNat,
    network_toNat]
  rw [Nat.div_eq_iff hpos]
  constructor
  · rintro ⟨h1, h2⟩
    constructor <;> omega
  · rintro ⟨h1, h2⟩
    constructor <;> omega

theorem contains_network_or (off : BitVec w) (h : off.toNat < 2 ^ n.hostBits) :
    n.contains (n.network ||| off) = true := by
  have hpos := n.hostRange_pos
  rw [contains_iff, network_or_toNat n off h, network_toNat, Nat.add_comm,
    Nat.add_mul_div_right _ _ hpos, Nat.div_eq_of_lt h, Nat.zero_add]

theorem network_or_inj {a b : BitVec w} (ha : a.toNat < 2 ^ n.hostBits)
    (hb : b.toNat < 2 ^ n.hostBits) : n.network ||| a = n.network ||| b ↔ a = b := by
  constructor
  · intro h
    have he := congrArg BitVec.toNat h
    rw [network_or_toNat n a ha, network_or_toNat n b hb] at he
    exact BitVec.eq_of_toNat_eq (by omega)
  · rintro rfl
    rfl

end Cidr

end MasqueServer
