import MasqueServer.ByteOrder
import MasqueServer.OnesComplement

/-!
# Checksums of probe packets

The checksum of the probe client adds the octets up in pairs and folds the carries until sixteen
bits are left. It is computed with sums of 32 bits: where one of them would overflow there is no
result.
-/
namespace MasqueServer.Probe

open List Option

open OnesComplement

def checkedAdd (a b : ℕ) : Option ℕ := if a + b < 2 ^ 32 then some (a + b) else none

/-- The pairs of octets added up; the last octet of an odd number is paired with zero. -/
def addChunks : ℕ → Bytes → Option ℕ
  | sum, [] => some sum
  | sum, [high] => checkedAdd sum (fromBeBytes 16 [high, 0]).toNat
  | sum, high :: low :: rest =>
    (checkedAdd sum (fromBeBytes 16 [high, low]).toNat).bind fun sum => addChunks sum rest

def foldCarries (sum : ℕ) : Option ℕ :=
  if sum / 2 ^ 16 = 0 then some sum
  else if 2 ^ 32 ≤ sum % 2 ^ 16 + sum / 2 ^ 16 then none
  else foldCarries (sum % 2 ^ 16 + sum / 2 ^ 16)
termination_by sum
decreasing_by omega

def checksum (bytes : Bytes) : Option (BitVec 16) := do
  let sum ← addChunks 0 bytes
  let folded ← foldCarries sum
  some (~~~BitVec.ofNat 16 folded)

/-! ### Sums of pairs -/

def wordSum : Bytes → ℕ
  | [] => 0
  | [high] => Varint.ofBytes [high, 0]
  | high :: low :: rest => Varint.ofBytes [high, low] + wordSum rest

lemma toNat_pair (high low : UInt8) :
    (fromBeBytes 16 [high, low]).toNat = Varint.ofBytes [high, low] := by
  have hlt : Varint.ofBytes [high, low] < 2 ^ 16 := by
    have := Varint.ofBytes_lt [high, low]
    simpa using this
  rw [toNat_fromBeBytes (by decide), Nat.mod_eq_of_lt hlt]

lemma addChunks_eq {sum : ℕ} {bytes : Bytes} (h : sum + wordSum bytes < 2 ^ 32) :
    addChunks sum bytes = some (sum + wordSum bytes) := by
  induction bytes using wordSum.induct generalizing sum with
  | case1 => rfl
  | case2 high =>
    rw [wordSum] at h ⊢
    rw [addChunks, toNat_pair, checkedAdd, if_pos h]
  | case3 high low rest ih =>
    rw [wordSum, ← Nat.add_assoc] at h ⊢
    rw [addChunks, toNat_pair, checkedAdd, if_pos (by omega), bind_some]
    exact ih h

lemma wordSum_le (bytes : Bytes) : 2 * wordSum bytes ≤ 65535 * (bytes.length + 1) := by
  induction bytes using wordSum.induct with
  | case1 => simp [wordSum]
  | case2 high =>
    have hlt := Varint.ofBytes_lt [high, 0]
    simp only [wordSum, length_cons, length_nil] at hlt ⊢
    omega
  | case3 high low rest ih =>
    have hlt := Varint.ofBytes_lt [high, low]
    simp only [wordSum, length_cons, length_nil] at hlt ⊢
    omega

lemma wordSum_append {front : Bytes} (h : Even front.length) (rest : Bytes) :
    wordSum (front ++ rest) = wordSum front + wordSum rest := by
  induction front using wordSum.induct with
  | case1 => simp [wordSum]
  | case2 high => simp at h
  | case3 high low front ih =>
    have heven : Even front.length := by
      simp only [length_cons] at h
      grind
    rw [cons_append, cons_append, wordSum, wordSum, ih heven, Nat.add_assoc]

lemma wordSum_toBeBytes (word : BitVec 16) : wordSum (toBeBytes 2 word) = word.toNat := by
  have hword : word.toNat < 256 ^ 2 := word.isLt
  have hpair : wordSum (toBeBytes 2 word) = Varint.ofBytes (toBeBytes 2 word) := by
    rw [toBeBytes, Varint.toBytes, Varint.toBytes, Varint.toBytes, wordSum, wordSum, Nat.add_zero]
  rw [hpair, toBeBytes, Varint.ofBytes_toBytes, Nat.mod_eq_of_lt hword]

/-! ### The checksum -/

lemma foldCarries_eq {sum : ℕ} (h : sum < 2 ^ 32) : foldCarries sum = some (fold 65535 sum) := by
  induction sum using foldCarries.induct with
  | case1 sum hsmall =>
    rw [foldCarries, if_pos hsmall, fold_of_le (by omega)]
  | case2 sum hlarge hover => omega
  | case3 sum hlarge hover ih =>
    rw [foldCarries, if_neg hlarge, if_neg hover, ih (by omega)]
    exact congrArg some (fold_carry sum)

lemma checksum_eq {bytes : Bytes} (h : bytes.length < 2 ^ 17) :
    checksum bytes = some (~~~BitVec.ofNat 16 (fold 65535 (wordSum bytes))) := by
  have hsum : 0 + wordSum bytes < 2 ^ 32 := by
    have hle := wordSum_le bytes
    omega
  have hadd := addChunks_eq hsum
  rw [Nat.zero_add] at hsum hadd
  rw [checksum, hadd]
  simp only [bind, bind_some, foldCarries_eq hsum]

lemma toNat_not (n : ℕ) (h : n ≤ 65535) : (~~~BitVec.ofNat 16 n).toNat = 65535 - n := by
  rw [BitVec.toNat_not, BitVec.toNat_ofNat, Nat.mod_eq_of_lt (by omega)]

lemma checksum_eq_zero {bytes : Bytes} (h : bytes.length < 2 ^ 17)
    (hfold : fold 65535 (wordSum bytes) = 65535) : checksum bytes = some 0 := by
  rw [checksum_eq h, hfold]
  rfl

variable {front rest : Bytes} {sum : BitVec 16}

lemma wordSum_field (hfront : Even front.length) (field : BitVec 16) (rest : Bytes) :
    wordSum (front ++ (toBeBytes 2 field ++ rest)) =
      wordSum (front ++ (toBeBytes 2 0#16 ++ rest)) + field.toNat := by
  have heven : ∀ word : BitVec 16, Even (toBeBytes 2 word).length := fun _ => by simp
  rw [wordSum_append hfront, wordSum_append hfront, wordSum_append (heven field),
    wordSum_append (heven 0#16), wordSum_toBeBytes, wordSum_toBeBytes, BitVec.toNat_zero]
  omega

/-- The checksum computed over a blank field verifies once it is written there; where it is
zero, so does its other form. -/
theorem checksum_patched (hfront : Even front.length)
    (hlen : front.length + rest.length + 2 < 2 ^ 17)
    (h : checksum (front ++ (toBeBytes 2 0#16 ++ rest)) = some sum) :
    checksum (front ++ (toBeBytes 2 sum ++ rest)) = some 0 ∧
      (sum = 0 → checksum (front ++ (toBeBytes 2 0xffff#16 ++ rest)) = some 0) := by
  have hlength : ∀ field : BitVec 16,
      (front ++ (toBeBytes 2 field ++ rest)).length < 2 ^ 17 := fun field => by
    rw [length_append, length_append, length_toBeBytes]
    omega
  have hle := fold_le (m := 65535) (by decide)
    (wordSum (front ++ (toBeBytes 2 0#16 ++ rest)))
  rw [checksum_eq (hlength 0#16), some.injEq] at h
  have hsum := congrArg BitVec.toNat h
  rw [toNat_not _ hle] at hsum
  refine ⟨checksum_eq_zero (hlength sum) ?_, fun hzero => checksum_eq_zero (hlength _) ?_⟩
  · rw [wordSum_field hfront, ← hsum]
    exact fold_complement (by decide) _
  · rw [hzero, show (0 : BitVec 16).toNat = 0 from rfl] at hsum
    rw [wordSum_field hfront]
    exact fold_add_max (by decide) (by omega)

end MasqueServer.Probe
