import MasqueServer.IpPacket
import MasqueServer.Varint

/-!
# Words and their octets in network order

A word of `n` octets is written as exactly `n` octets and read back from any `n` octets; the two
directions are inverse to each other.
-/
namespace MasqueServer

def toBeBytes {w : ℕ} (n : ℕ) (word : BitVec w) : Bytes := Varint.toBytes n word.toNat

@[simp] lemma length_toBeBytes {w : ℕ} (n : ℕ) (word : BitVec w) : (toBeBytes n word).length = n :=
  Varint.length_toBytes n _

lemma toNat_shiftLeft_or {w : ℕ} (hw : 8 ≤ w) (word : BitVec w) (octet : UInt8) :
    (word <<< 8 ||| octet.toBitVec.setWidth w).toNat =
      (word.toNat * 256 + octet.toNat) % 2 ^ w := by
  have hoctet := octet.toNat_lt
  obtain ⟨v, rfl⟩ : ∃ v, w = v + 8 := ⟨w - 8, by omega⟩
  have hpow : 2 ^ (v + 8) = 256 * 2 ^ v := by ring
  have hshift : word.toNat <<< 8 % 2 ^ (v + 8) = 2 ^ 8 * (word.toNat % 2 ^ v) := by
    rw [Nat.shiftLeft_eq, Nat.mul_comm, hpow]
    exact Nat.mul_mod_mul_left 256 _ _
  have hsmall : octet.toNat % 2 ^ (v + 8) = octet.toNat :=
    Nat.mod_eq_of_lt (lt_of_lt_of_le hoctet (Nat.pow_le_pow_right (by decide) (by omega)))
  have hsum : (word.toNat * 256 + octet.toNat) % (256 * 2 ^ v) =
      256 * (word.toNat % 2 ^ v) + octet.toNat := by
    have hdiv : (word.toNat * 256 + octet.toNat) / 256 = word.toNat := by omega
    have hmod : (word.toNat * 256 + octet.toNat) % 256 = octet.toNat := by omega
    rw [Nat.mod_mul, hdiv, hmod, Nat.add_comm]
  rw [BitVec.toNat_or, BitVec.toNat_shiftLeft, BitVec.toNat_setWidth, hshift]
  change 2 ^ 8 * (word.toNat % 2 ^ v) ||| octet.toNat % 2 ^ (v + 8) = _
  rw [hsmall, ← Nat.two_pow_add_eq_or_of_lt hoctet, hpow, hsum]

lemma toNat_fromBeBytes {w : ℕ} (hw : 8 ≤ w) (octets : Bytes) :
    (fromBeBytes w octets).toNat = Varint.ofBytes octets % 2 ^ w := by
  induction octets using List.reverseRecOn with
  | nil => simp [fromBeBytes, Varint.ofBytes]
  | append_singleton octets octet ih =>
    have hword : fromBeBytes w (octets ++ [octet]) =
        fromBeBytes w octets <<< 8 ||| octet.toBitVec.setWidth w := by
      simp [fromBeBytes, List.foldl_append]
    have hnumber : Varint.ofBytes (octets ++ [octet]) =
      Varint.ofBytes octets * 256 + octet.toNat := by
      simp [Varint.ofBytes, List.foldl_append]
    rw [hword, toNat_shiftLeft_or hw, ih, hnumber, Nat.add_mod, Nat.mod_mul_mod, ← Nat.add_mod]

section Words

variable {n : ℕ} (hn : 1 ≤ n)
include hn

@[simp] theorem fromBeBytes_toBeBytes (word : BitVec (8 * n)) :
    fromBeBytes (8 * n) (toBeBytes n word) = word := by
  apply BitVec.eq_of_toNat_eq
  have hpow : 2 ^ (8 * n) = 256 ^ n := by rw [pow_mul]; rfl
  rw [toNat_fromBeBytes (by omega), toBeBytes, Varint.ofBytes_toBytes, hpow, Nat.mod_mod, ← hpow,
    Nat.mod_eq_of_lt word.isLt]

theorem toBeBytes_fromBeBytes {octets : Bytes} (hlen : octets.length = n) :
    toBeBytes n (fromBeBytes (8 * n) octets) = octets := by
  have hpow : 2 ^ (8 * n) = 256 ^ n := by rw [pow_mul]; rfl
  have hlt := Varint.ofBytes_lt octets
  rw [hlen] at hlt
  rw [toBeBytes, toNat_fromBeBytes (by omega), hpow, Nat.mod_eq_of_lt hlt, ← hlen,
    Varint.toBytes_ofBytes]

end Words

end MasqueServer
