import Mathlib.Algebra.Order.Ring.Nat
import Mathlib.Order.Bounds.Defs
import Mathlib.Tactic.IntervalCases
import Mathlib.Tactic.Positivity
import Mathlib.Tactic.Ring
import MasqueServer.Octets

/-!
# Variable-length integers

The two most significant bits of the first octet give the length of the encoding: one, two, four or
eight octets in network order. Values have at most 62 bits.
-/
namespace MasqueServer.Varint

open List

def maxValue : ℕ := 2 ^ 62 - 1

inductive Error
  | bufferTooShort
  | overflow
  deriving DecidableEq, Repr

def ofBytes (octets : Bytes) : ℕ := octets.foldl (fun n octet => n * 256 + octet.toNat) 0

def toBytes : ℕ → ℕ → Bytes
  | 0, _ => []
  | n + 1, value => UInt8.ofNat (value / 256 ^ n) :: toBytes n value

def lengthOf (first : UInt8) : ℕ := 1 <<< (first >>> 6).toNat

def decode : Bytes → Except Error (ℕ × ℕ)
  | [] => .error .bufferTooShort
  | first :: rest =>
    if rest.length + 1 < lengthOf first then .error .bufferTooShort
    else .ok (ofBytes ((first &&& 0x3f) :: rest.take (lengthOf first - 1)), lengthOf first)

def encodedLen (value : ℕ) : Except Error ℕ :=
  if value ≤ 63 then .ok 1
  else if value ≤ 16383 then .ok 2
  else if value ≤ 1073741823 then .ok 4
  else if value ≤ maxValue then .ok 8
  else .error .overflow

def lengthTag (len : ℕ) : UInt8 :=
  if len = 1 then 0 else if len = 2 then 0x40 else if len = 4 then 0x80 else 0xc0

def octets (value len : ℕ) : Bytes :=
  match toBytes len value with
  | [] => []
  | first :: rest => (first ||| lengthTag len) :: rest

def encode (value : ℕ) (buf : Bytes) : Except Error (Bytes × ℕ) := do
  let len ← encodedLen value
  if buf.length < len then .error .bufferTooShort
  else .ok (octets value len ++ buf.drop len, len)

/-- `encode_to_vec`: the vector as it is left, and the answer. -/
def encodeToVec (value : ℕ) (vec : Bytes) : Bytes × Except Error ℕ :=
  match encode value (List.replicate 8 0) with
  | .error e => (vec, .error e)
  | .ok (scratch, len) => (vec ++ scratch.take len, .ok len)

/-- How a caller goes on: with the vector, after a success only. -/
def appendTo (value : ℕ) (vec : Bytes) : Except Error Bytes :=
  (encodeToVec value vec).2.map fun _ => (encodeToVec value vec).1

/-! ### Reading -/

lemma lengthOf_eq (first : UInt8) : lengthOf first = 2 ^ (first.toNat / 64) := by
  rw [lengthOf, UInt8.toNat_shiftRight, Nat.shiftLeft_eq, one_mul]
  simp [Nat.shiftRight_eq_div_pow]

lemma lengthOf_bounds (first : UInt8) : 1 ≤ lengthOf first ∧ lengthOf first ≤ 8 := by
  have hlt : first.toNat / 64 ≤ 3 := by
    have := first.toNat_lt
    omega
  rw [lengthOf_eq]
  exact ⟨Nat.one_le_two_pow, Nat.pow_le_pow_right (by decide) hlt⟩

variable {buf rest : Bytes} {value len : ℕ}

lemma decode_cons (first : UInt8) (rest : Bytes) :
    decode (first :: rest) = if rest.length + 1 < lengthOf first then .error .bufferTooShort
      else .ok (ofBytes ((first &&& 0x3f) :: rest.take (lengthOf first - 1)), lengthOf first) := rfl

lemma decode_bounds (h : decode buf = .ok (value, len)) :
    1 ≤ len ∧ len ≤ 8 ∧ len ≤ buf.length := by
  cases buf with
  | nil => cases h
  | cons first rest =>
    rw [decode_cons] at h
    split_ifs at h with hlong
    cases h
    have hb := lengthOf_bounds first
    rw [length_cons]
    omega

lemma decode_append (h : decode buf = .ok (value, len)) (rest : Bytes) :
    decode (buf ++ rest) = .ok (value, len) := by
  cases buf with
  | nil => cases h
  | cons first tail =>
    rw [decode_cons] at h
    split_ifs at h with hlong
    rw [cons_append, decode_cons, if_neg (by rw [length_append]; omega),
      take_append_of_le_length (by omega)]
    exact h

lemma decode_take (h : decode buf = .ok (value, len)) {n : ℕ} (hn : len ≤ n) :
    decode (buf.take n) = .ok (value, len) := by
  cases buf with
  | nil => cases h
  | cons first tail =>
    rw [decode_cons] at h
    split_ifs at h with hlong
    cases h
    have hb := lengthOf_bounds first
    obtain ⟨m, rfl⟩ : ∃ m, n = m + 1 := ⟨n - 1, by omega⟩
    rw [take_succ_cons, decode_cons, if_neg (by rw [length_take]; omega),
      take_take, min_eq_left (by omega)]

lemma decode_take_lt (h : decode buf = .ok (value, len)) {n : ℕ} (hn : n < len) :
    decode (buf.take n) = .error .bufferTooShort := by
  cases buf with
  | nil => cases h
  | cons first tail =>
    rw [decode_cons] at h
    split_ifs at h with hlong
    cases h
    cases n with
    | zero => rfl
    | succ m =>
      rw [take_succ_cons, decode_cons, if_pos (by rw [length_take]; omega)]

lemma length_lt_of_decode_error {e : Error} (h : decode buf = .error e) : buf.length < 8 := by
  cases buf with
  | nil => decide
  | cons first tail =>
    rw [decode_cons] at h
    split_ifs at h with hlong
    have hb := lengthOf_bounds first
    rw [length_cons]
    omega

lemma decode_error {e : Error} (h : decode buf = .error e) : e = .bufferTooShort := by
  cases buf with
  | nil => exact (Except.error.inj h).symm
  | cons first tail =>
    rw [decode_cons] at h
    split_ifs at h
    exact (Except.error.inj h).symm

/-! ### Writing -/

lemma ofBytes_foldl (bytes : Bytes) (acc : ℕ) :
    bytes.foldl (fun n octet => n * 256 + octet.toNat) acc =
      acc * 256 ^ bytes.length + ofBytes bytes := by
  induction bytes generalizing acc with
  | nil => simp [ofBytes]
  | cons b bytes ih =>
    rw [ofBytes, foldl_cons, foldl_cons, ih, ih, length_cons]
    ring

lemma ofBytes_cons (b : UInt8) (bytes : Bytes) :
    ofBytes (b :: bytes) = b.toNat * 256 ^ bytes.length + ofBytes bytes := by
  rw [ofBytes, foldl_cons, ofBytes_foldl]
  ring

@[simp] lemma length_toBytes (n value : ℕ) : (toBytes n value).length = n := by
  induction n with
  | zero => rfl
  | succ n ih => rw [toBytes, length_cons, ih]

lemma ofBytes_toBytes (n value : ℕ) : ofBytes (toBytes n value) = value % 256 ^ n := by
  induction n with
  | zero => simp [toBytes, ofBytes, Nat.mod_one]
  | succ n ih =>
    have hoctet : (UInt8.ofNat (value / 256 ^ n)).toNat = value / 256 ^ n % 256 :=
      UInt8.toNat_ofNat'
    rw [toBytes, ofBytes_cons, ih, length_toBytes, hoctet, pow_succ, Nat.mod_mul]
    ring

lemma toNat_first {q k : ℕ} (hq : q < 64) (hk : k < 4) :
    (UInt8.ofNat q ||| UInt8.ofNat (64 * k)).toNat = 64 * k + q := by
  have htag : (UInt8.ofNat (64 * k)).toNat = 2 ^ 6 * k := by
    rw [UInt8.toNat_ofNat']
    omega
  have hlow : (UInt8.ofNat q).toNat = q := by
    rw [UInt8.toNat_ofNat']
    omega
  rw [UInt8.toNat_or, htag, hlow, Nat.or_comm, ← Nat.two_pow_add_eq_or_of_lt hq]

lemma lengthOf_first {q k : ℕ} (hq : q < 64) (hk : k < 4) :
    lengthOf (UInt8.ofNat q ||| UInt8.ofNat (64 * k)) = 2 ^ k := by
  rw [lengthOf_eq, toNat_first hq hk]
  congr 1
  omega

lemma toNat_first_and {q k : ℕ} (hq : q < 64) (hk : k < 4) :
    ((UInt8.ofNat q ||| UInt8.ofNat (64 * k)) &&& 0x3f).toNat = q := by
  rw [UInt8.toNat_and, show (0x3f : UInt8).toNat = 2 ^ 6 - 1 from rfl,
    Nat.and_two_pow_sub_one_eq_mod, toNat_first hq hk]
  omega

lemma encodedLen_cases (h : encodedLen value = .ok len) :
    ∃ k n, k < 4 ∧ len = 2 ^ k ∧ len = n + 1 ∧ lengthTag len = UInt8.ofNat (64 * k) ∧
      value < 64 * 256 ^ n := by
  unfold encodedLen maxValue at h
  split_ifs at h with h1 h2 h4 h8 <;> cases h
  · exact ⟨0, 0, by decide, rfl, rfl, rfl, by omega⟩
  · exact ⟨1, 1, by decide, rfl, rfl, rfl, by omega⟩
  · exact ⟨2, 3, by decide, rfl, rfl, rfl, by omega⟩
  · exact ⟨3, 7, by decide, rfl, rfl, rfl, by omega⟩

theorem decode_octets (h : encodedLen value = .ok len) (rest : Bytes) :
    decode (octets value len ++ rest) = .ok (value, len) := by
  obtain ⟨k, n, hk, hpow, rfl, htag, hvalue⟩ := encodedLen_cases h
  have hq : value / 256 ^ n < 64 := Nat.div_lt_of_lt_mul (by rwa [Nat.mul_comm])
  rw [octets, toBytes, htag]
  simp only [cons_append]
  rw [decode_cons, lengthOf_first hq hk, ← hpow, if_neg (by simp), Nat.add_sub_cancel,
    take_append_of_le_length (by simp), take_of_length_le (by simp), ofBytes_cons,
    toNat_first_and hq hk, length_toBytes, ofBytes_toBytes, Nat.div_add_mod']

lemma encodedLen_ok (h : value ≤ maxValue) : ∃ len, encodedLen value = .ok len := by
  unfold encodedLen
  split_ifs
  · exact ⟨1, rfl⟩
  · exact ⟨2, rfl⟩
  · exact ⟨4, rfl⟩
  · exact ⟨8, rfl⟩

lemma length_octets (h : encodedLen value = .ok len) : (octets value len).length = len := by
  obtain ⟨k, n, -, -, rfl, -, -⟩ := encodedLen_cases h
  simp [octets, toBytes]

lemma encodeToVec_eq (h : encodedLen value = .ok len) (vec : Bytes) :
    encodeToVec value vec = (vec ++ octets value len, .ok len) := by
  have hlen := length_octets h
  have hle : len ≤ 8 := by
    have hdec := decode_octets h []
    have hb := decode_bounds hdec
    omega
  have hencode : encode value (List.replicate 8 0) =
      .ok (octets value len ++ (List.replicate 8 0).drop len, len) := by
    simp only [encode, h, bind, Except.bind, length_replicate]
    rw [if_neg (by omega)]
  rw [encodeToVec, hencode]
  simp only
  rw [take_append_of_le_length (by omega), take_of_length_le (by omega)]

lemma appendTo_eq (h : encodedLen value = .ok len) (vec : Bytes) :
    appendTo value vec = .ok (vec ++ octets value len) := by
  rw [appendTo, encodeToVec_eq h]
  rfl

/-! ### Bounds -/

lemma ofBytes_lt (octets : Bytes) : ofBytes octets < 256 ^ octets.length := by
  induction octets with
  | nil => simp [ofBytes]
  | cons b octets ih =>
    have hb : b.toNat + 1 ≤ 256 := b.toNat_lt
    calc ofBytes (b :: octets) = b.toNat * 256 ^ octets.length + ofBytes octets :=
      ofBytes_cons b octets
      _ < b.toNat * 256 ^ octets.length + 256 ^ octets.length := Nat.add_lt_add_left ih _
      _ = (b.toNat + 1) * 256 ^ octets.length := by ring
      _ ≤ 256 * 256 ^ octets.length := Nat.mul_le_mul_right _ hb
      _ = 256 ^ (b :: octets).length := by rw [length_cons]; ring

lemma toBytes_add_mul (n a b : ℕ) : toBytes n (a * 256 ^ n + b) = toBytes n b := by
  induction n generalizing a with
  | zero => rfl
  | succ n ih =>
    have hsplit : a * 256 ^ (n + 1) + b = a * 256 * 256 ^ n + b := by ring
    have hoctet : UInt8.ofNat ((a * 256 * 256 ^ n + b) / 256 ^ n) = UInt8.ofNat (b / 256 ^ n) := by
      rw [Nat.mul_comm (a * 256), Nat.mul_add_div (by positivity)]
      apply UInt8.toNat_inj.mp
      rw [UInt8.toNat_ofNat', UInt8.toNat_ofNat']
      omega
    rw [toBytes, toBytes, hsplit, hoctet, ih]

theorem toBytes_ofBytes (octets : Bytes) :
    toBytes octets.length (ofBytes octets) = octets := by
  induction octets with
  | nil => rfl
  | cons b octets ih =>
    have hlt := ofBytes_lt octets
    rw [length_cons, toBytes, ofBytes_cons, toBytes_add_mul, ih, Nat.mul_comm,
      Nat.mul_add_div (by positivity), Nat.div_eq_of_lt hlt, Nat.add_zero, UInt8.ofNat_toNat]

lemma decode_lt {buf : Bytes} {value len : ℕ} (h : decode buf = .ok (value, len)) :
    value < 64 * 256 ^ (len - 1) ∧ (len = 1 ∨ len = 2 ∨ len = 4 ∨ len = 8) := by
  cases buf with
  | nil => cases h
  | cons first rest =>
    rw [decode_cons] at h
    split_ifs at h with hshort
    cases h
    have hrest : (rest.take (lengthOf first - 1)).length = lengthOf first - 1 := by
      rw [length_take]
      omega
    have hfirst : (first &&& 0x3f).toNat < 64 := by
      rw [UInt8.toNat_and, show (0x3f : UInt8).toNat = 2 ^ 6 - 1 from rfl,
        Nat.and_two_pow_sub_one_eq_mod]
      omega
    have hlow := ofBytes_lt (rest.take (lengthOf first - 1))
    have hhigh := Nat.mul_le_mul_right (256 ^ (rest.take (lengthOf first - 1)).length)
      (Nat.le_of_lt_succ hfirst)
    refine ⟨?_, ?_⟩
    · rw [ofBytes_cons]
      rw [hrest] at hlow hhigh ⊢
      omega
    · have hfour : first.toNat / 64 < 4 := by
        have := first.toNat_lt
        omega
      rw [lengthOf_eq]
      interval_cases first.toNat / 64 <;> simp

lemma decode_le_maxValue {buf : Bytes} {value len : ℕ} (h : decode buf = .ok (value, len)) :
    value ≤ maxValue := by
  obtain ⟨hlt, rfl | rfl | rfl | rfl⟩ := decode_lt h <;> simp only [maxValue] <;> omega

/-! ### The codec -/

/-- Some octets of the given length are read as the value. -/
def Holds (len value : ℕ) : Prop := ∃ buf, buf.length = len ∧ decode buf = .ok (value, len)

lemma encodedLen_isLeast (h : encodedLen value = .ok len) :
    IsLeast {l | l ∈ [1, 2, 4, 8] ∧ Holds l value} len := by
  have hdecode : decode (octets value len) = .ok (value, len) := by
    simpa using decode_octets h []
  refine ⟨⟨?_, octets value len, length_octets h, hdecode⟩, ?_⟩
  · obtain ⟨-, hlen⟩ := decode_lt hdecode
    simpa using hlen
  · rintro l ⟨-, buf, -, hread⟩
    obtain ⟨hlt, rfl | rfl | rfl | rfl⟩ := decode_lt hread <;>
    · unfold encodedLen maxValue at h
      split_ifs at h <;> cases h <;> omega

lemma maxValue_lt_of_encodedLen_error {e : Error} (h : encodedLen value = .error e) :
    maxValue < value := by
  by_contra hle
  obtain ⟨len, hlen⟩ := encodedLen_ok (not_lt.mp hle)
  rw [hlen] at h
  cases h

lemma le_maxValue_of_encodedLen (h : encodedLen value = .ok len) : value ≤ maxValue :=
  decode_le_maxValue (decode_octets h [])

lemma encode_error_iff (value : ℕ) (buf : Bytes) :
    (∃ e, encode value buf = .error e) ↔
      maxValue < value ∨ ∃ len, encodedLen value = .ok len ∧ buf.length < len := by
  cases h : encodedLen value with
  | error e =>
    have hencode : encode value buf = .error e := by simp only [encode, h, bind, Except.bind]
    exact ⟨fun _ => .inl (maxValue_lt_of_encodedLen_error h), fun _ => ⟨e, hencode⟩⟩
  | ok len =>
    have hle := le_maxValue_of_encodedLen h
    simp only [encode, h, bind, Except.bind, Except.ok.injEq, exists_eq_left', not_lt.mpr hle,
      false_or]
    split_ifs with hshort
    · exact ⟨fun _ => hshort, fun _ => ⟨_, rfl⟩⟩
    · exact ⟨nofun, fun hlt => absurd hlt hshort⟩

/-- What is written is the shortest encoding and is read back whatever follows it; what is read
stays within the buffer and the 62 bits; writing fails only for want of bits or of room, and a
failed write leaves the vector as it was. -/
theorem codec_roundTrip :
    (∀ value ≤ maxValue, ∃ len written, encodedLen value = .ok len ∧
      IsLeast {l | l ∈ [1, 2, 4, 8] ∧ Holds l value} len ∧ written.length = len ∧
      (∀ vec, encodeToVec value vec = (vec ++ written, .ok len)) ∧
      ∀ rest, decode (written ++ rest) = .ok (value, len)) ∧
    (∀ buf, decode buf = .error .bufferTooShort ∨
      ∃ value len, decode buf = .ok (value, len) ∧ value < 2 ^ 62 ∧ 1 ≤ len ∧ len ≤ buf.length) ∧
    (∀ value buf, (∃ e, encode value buf = .error e) ↔
      maxValue < value ∨ ∃ len, encodedLen value = .ok len ∧ buf.length < len) ∧
    ∀ value vec e, (encodeToVec value vec).2 = .error e →
      maxValue < value ∧ (encodeToVec value vec).1 = vec := by
  refine ⟨fun value hvalue => ?_, fun buf => ?_, encode_error_iff, fun value vec e herror => ?_⟩
  · obtain ⟨len, hlen⟩ := encodedLen_ok hvalue
    exact ⟨len, octets value len, hlen, encodedLen_isLeast hlen, length_octets hlen,
      encodeToVec_eq hlen, decode_octets hlen⟩
  · cases h : decode buf with
    | error e => exact .inl (decode_error h ▸ rfl)
    | ok read =>
      obtain ⟨value, len⟩ := read
      have hmax := decode_le_maxValue h
      have hbounds := decode_bounds h
      unfold maxValue at hmax
      exact .inr ⟨value, len, rfl, by omega, hbounds.1, hbounds.2.2⟩
  · cases h : encodedLen value with
    | ok len =>
      rw [encodeToVec_eq h] at herror
      cases herror
    | error e' =>
      have hencode : encode value (List.replicate 8 0) = .error e' := by
        simp only [encode, h, bind, Except.bind]
      refine ⟨maxValue_lt_of_encodedLen_error h, ?_⟩
      rw [encodeToVec, hencode]

theorem codec_roundTrip_max : maxValue ≤ maxValue ∧
    (∃ len written, encodedLen maxValue = .ok len ∧
      IsLeast {l | l ∈ [1, 2, 4, 8] ∧ Holds l maxValue} len ∧ written.length = len ∧
      (∀ vec, encodeToVec maxValue vec = (vec ++ written, .ok len)) ∧
      ∀ rest, decode (written ++ rest) = .ok (maxValue, len)) ∧
    (encodeToVec (maxValue + 1) [7]).2 = .error .overflow ∧
      (encodeToVec (maxValue + 1) [7]).1 = [7] :=
  ⟨le_rfl, codec_roundTrip.1 maxValue le_rfl, by decide,
    (codec_roundTrip.2.2.2 (maxValue + 1) [7] .overflow (by decide)).2⟩

end MasqueServer.Varint
