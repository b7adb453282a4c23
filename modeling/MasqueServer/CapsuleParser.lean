import MasqueServer.Capsule
import MasqueServer.FallibleLists

/-!
# The streaming capsule parser

The parser is fed the chunks of a request body as they arrive. It buffers the header of a capsule
until both of its integers are complete, then the value if its type has a limit, and skips the
values of all other types.
-/
namespace MasqueServer

open List

def readHeader (header : Bytes) : Option (ℕ × ℕ) :=
  match Varint.decode header with
  | .error _ => none
  | .ok (kind, typeLen) =>
    match Varint.decode (header.drop typeLen) with
    | .error _ => none
    | .ok (length, _) => some (kind, length)

structure DatagramCapsules where
  header : Bytes
  remaining : ℕ
  value : Option Bytes
  limit : ℕ
  controlLimit : Option ℕ
  kind : ℕ
  incomplete : readHeader header = none

namespace DatagramCapsules

def new (limit : ℕ) : DatagramCapsules := ⟨[], 0, none, limit, none, capsuleDatagram, rfl⟩

def withIpControls (limit controlLimit : ℕ) : DatagramCapsules :=
  { new limit with controlLimit := some controlLimit }

variable (d : DatagramCapsules)

def isPartial : Bool := !d.header.isEmpty || d.remaining ≠ 0

def limitFor (kind : ℕ) : Option ℕ :=
  if kind = capsuleDatagram then some d.limit
  else if kind = capsuleAddressAssign ∨ kind = capsuleAddressRequest ∨
      kind = capsuleRouteAdvertisement then d.controlLimit
  else none

def beginValue (kind length : ℕ) :
    Except DecodeError (DatagramCapsules × Option (ℕ × Bytes)) :=
  let d := { d with header := [], incomplete := rfl, remaining := length, kind }
  match d.limitFor kind with
  | some limit =>
    if limit < length then .error (.tooLarge length limit)
    else if length = 0 then .ok ({ d with value := none }, some (kind, []))
    else .ok ({ d with value := some [] }, none)
  | none => .ok ({ d with value := none }, none)

def takeValue (data : Bytes) : DatagramCapsules × Option (ℕ × Bytes) :=
  let take := min d.remaining data.length
  let value := d.value.map (· ++ data.take take)
  if d.remaining - take = 0 then
    ({ d with remaining := 0, value := none }, value.map fun value => (d.kind, value))
  else ({ d with remaining := d.remaining - take, value }, none)

end DatagramCapsules

variable {γ : Type}

def emit (receive : ℕ → Bytes → Except DecodeError γ) :
    Option (ℕ × Bytes) → Except DecodeError (List γ)
  | none => .ok []
  | some (kind, value) => (receive kind value).map fun frame => [frame]

namespace DatagramCapsules

def decodeLoop (receive : ℕ → Bytes → Except DecodeError γ) :
    ℕ → DatagramCapsules → Bytes → Except DecodeError (DatagramCapsules × List γ)
  | _, d, [] => .ok (d, [])
  | 0, d, _ :: _ => .ok (d, [])
  | fuel + 1, d, byte :: rest =>
    if d.remaining = 0 then
      match h : readHeader (d.header ++ [byte]) with
      | none => decodeLoop receive fuel
          { d with header := d.header ++ [byte], incomplete := h } rest
      | some (kind, length) => do
        let (d, out) ← d.beginValue kind length
        let frames ← emit receive out
        let (d, more) ← decodeLoop receive fuel d rest
        return (d, frames ++ more)
    else do
      let (d', out) := d.takeValue (byte :: rest)
      let frames ← emit receive out
      let (d', more) ← decodeLoop receive fuel d' ((byte :: rest).drop d.remaining)
      return (d', frames ++ more)

def decodeWith (receive : ℕ → Bytes → Except DecodeError γ) (d : DatagramCapsules)
    (data : Bytes) : Except DecodeError (DatagramCapsules × List γ) :=
  decodeLoop receive data.length d data

end DatagramCapsules

def maxAddressRequestSize : ℕ := 16 * 1024

/-- The parser of a CONNECT-IP stream keeps the values of the address and route capsules too. -/
structure IpCapsules where
  decoder : DatagramCapsules

namespace IpCapsules

def new (maxDatagram : ℕ) : IpCapsules := ⟨.withIpControls maxDatagram maxAddressRequestSize⟩

def isPartial (c : IpCapsules) : Bool := c.decoder.isPartial

def frame (kind : ℕ) (value : Bytes) : Except DecodeError CapsuleFrame :=
  if kind = capsuleDatagram then .ok (.datagram value) else parseCapsuleValue kind value

def decode (c : IpCapsules) (data : Bytes) :
    Except DecodeError (IpCapsules × List CapsuleFrame) := do
  let (decoder, frames) ← c.decoder.decodeWith frame data
  return (⟨decoder⟩, frames)

end IpCapsules

/-! ### Rounds of the loop -/

lemma length_lt_of_incomplete {header : Bytes} (h : readHeader header = none) :
    header.length < 16 := by
  unfold readHeader at h
  split at h
  · rename_i e hdec
    have := Varint.length_lt_of_decode_error hdec
    omega
  · rename_i kind typeLen hdec
    have hb := Varint.decode_bounds hdec
    split at h
    · rename_i e hdec'
      have hlt := Varint.length_lt_of_decode_error hdec'
      rw [length_drop] at hlt
      omega
    · cases h

namespace DatagramCapsules

variable {receive : ℕ → Bytes → Except DecodeError γ} {d : DatagramCapsules}

lemma decodeLoop_fuel (fuel : ℕ) (d : DatagramCapsules) (data : Bytes)
    (hfuel : data.length ≤ fuel) :
    decodeLoop receive fuel d data = decodeLoop receive data.length d data := by
  induction fuel using Nat.strong_induction_on generalizing d data with
  | _ fuel ih =>
    cases data with
    | nil => cases fuel <;> rfl
    | cons byte rest =>
      obtain ⟨fuel, rfl⟩ : ∃ n, fuel = n + 1 := ⟨fuel - 1, by simp at hfuel; omega⟩
      rw [length_cons] at hfuel ⊢
      have hshort (d' : DatagramCapsules) (data : Bytes) (hdata : data.length ≤ rest.length) :
          decodeLoop receive fuel d' data = decodeLoop receive rest.length d' data := by
        rw [ih fuel (by omega) d' data (by omega)]
        by_cases heq : rest.length < fuel + 1
        · exact (ih rest.length heq d' data hdata).symm
        · omega
      unfold decodeLoop
      split_ifs with hzero
      · split
        · exact hshort _ rest le_rfl
        · simp only [hshort _ rest le_rfl]
      · have hdrop : ((byte :: rest).drop d.remaining).length ≤ rest.length := by
          rw [length_drop, length_cons]
          omega
        simp only [hshort _ _ hdrop]

@[simp] lemma decodeWith_nil : d.decodeWith receive [] = .ok (d, []) := rfl

lemma decodeWith_header {byte : UInt8} {rest : Bytes} (hzero : d.remaining = 0)
    (h : readHeader (d.header ++ [byte]) = none) :
    d.decodeWith receive (byte :: rest) =
      ({ d with header := d.header ++ [byte], incomplete := h } : DatagramCapsules).decodeWith
        receive rest := by
  rw [decodeWith, length_cons, decodeLoop, if_pos hzero]
  split
  · rfl
  · rename_i kind length hsome
    rw [h] at hsome
    cases hsome

def andThen (receive : ℕ → Bytes → Except DecodeError γ) (rest : Bytes)
    (p : DatagramCapsules × Option (ℕ × Bytes)) :
    Except DecodeError (DatagramCapsules × List γ) := do
  let frames ← emit receive p.2
  let (d, more) ← p.1.decodeWith receive rest
  return (d, frames ++ more)

lemma andThen_none (d : DatagramCapsules) (rest : Bytes) :
    andThen receive rest (d, none) = d.decodeWith receive rest := by
  simp only [andThen, emit, bind, Except.bind, nil_append]
  cases d.decodeWith receive rest <;> rfl

lemma decodeWith_begin {byte : UInt8} {rest : Bytes} {kind length : ℕ}
    (hzero : d.remaining = 0) (h : readHeader (d.header ++ [byte]) = some (kind, length)) :
    d.decodeWith receive (byte :: rest) = d.beginValue kind length >>= andThen receive rest := by
  rw [decodeWith, length_cons, decodeLoop, if_pos hzero]
  split
  · rename_i hnone
    rw [h] at hnone
    cases hnone
  · rename_i kind' length' hsome
    rw [h, Option.some.injEq] at hsome
    cases hsome
    rfl

lemma decodeWith_value {data : Bytes} (hpos : d.remaining ≠ 0) (hdata : data ≠ []) :
    d.decodeWith receive data = andThen receive (data.drop d.remaining) (d.takeValue data) := by
  cases data with
  | nil => exact absurd rfl hdata
  | cons byte rest =>
    have hdrop : ((byte :: rest).drop d.remaining).length ≤ rest.length := by
      rw [length_drop, length_cons]
      omega
    rw [decodeWith, length_cons, decodeLoop, if_neg hpos]
    simp only [decodeLoop_fuel rest.length _ _ hdrop]
    rfl

/-! ### Limits -/

lemma beginValue_limit {kind length : ℕ} {p : DatagramCapsules × Option (ℕ × Bytes)}
    (h : d.beginValue kind length = .ok p) : p.1.limit = d.limit := by
  unfold beginValue at h
  simp only at h
  split at h
  · split_ifs at h <;> cases h <;> rfl
  · cases h
    rfl

@[simp] lemma takeValue_limit (data : Bytes) : (d.takeValue data).1.limit = d.limit := by
  unfold takeValue
  simp only
  split_ifs <;> rfl

lemma decodeLoop_limit {fuel : ℕ} {data : Bytes} {d' : DatagramCapsules} {frames : List γ}
    (h : decodeLoop receive fuel d data = .ok (d', frames)) : d'.limit = d.limit := by
  induction fuel generalizing d data frames with
  | zero => cases data <;> cases h <;> rfl
  | succ fuel ih =>
    cases data with
    | nil =>
      cases h
      rfl
    | cons byte rest =>
      unfold decodeLoop at h
      split_ifs at h with hzero
      · split at h
        · exact (ih h).trans rfl
        · rw [bind_ok_iff] at h
          obtain ⟨p, hbegin, h⟩ := h
          rw [bind_ok_iff] at h
          obtain ⟨out, -, h⟩ := h
          rw [bind_ok_iff] at h
          obtain ⟨q, hrest, h⟩ := h
          cases h
          rw [ih hrest, beginValue_limit hbegin]
      · simp only at h
        rw [bind_ok_iff] at h
        obtain ⟨out, -, h⟩ := h
        rw [bind_ok_iff] at h
        obtain ⟨q, hrest, h⟩ := h
        cases h
        rw [ih hrest, takeValue_limit]

/-! ### Whole capsules -/

lemma decodeWith_headers {more rest : Bytes} {kind length : ℕ} (hzero : d.remaining = 0)
    (hmore : more ≠ [])
    (hproper : ∀ n < (d.header ++ more).length, readHeader ((d.header ++ more).take n) = none)
    (hfull : readHeader (d.header ++ more) = some (kind, length)) :
    d.decodeWith receive (more ++ rest) = d.beginValue kind length >>= andThen receive rest := by
  induction more generalizing d with
  | nil => exact absurd rfl hmore
  | cons byte more ih =>
    rw [cons_append]
    cases more with
    | nil => exact decodeWith_begin hzero hfull
    | cons next more =>
      have happ : d.header ++ byte :: next :: more = d.header ++ [byte] ++ next :: more := by simp
      have hnone : readHeader (d.header ++ [byte]) = none := by
        have h := hproper (d.header ++ [byte]).length (by simp)
        rwa [happ, take_left] at h
      rw [decodeWith_header hzero hnone]
      rw [happ] at hproper hfull
      exact ih (d := { d with header := d.header ++ [byte], incomplete := hnone }) hzero (by simp)
        hproper hfull

end DatagramCapsules

section Header

variable {t l : Bytes} {kind length : ℕ} (ht : Varint.decode t = .ok (kind, t.length))
  (hl : Varint.decode l = .ok (length, l.length))
include ht hl

lemma readHeader_append : readHeader (t ++ l) = some (kind, length) := by
  unfold readHeader
  rw [Varint.decode_append ht l]
  simp only [drop_left]
  rw [hl]

lemma readHeader_take {n : ℕ} (hn : n < (t ++ l).length) : readHeader ((t ++ l).take n) = none := by
  rw [length_append] at hn
  unfold readHeader
  by_cases hshort : n < t.length
  · rw [take_append_of_le_length (by omega), Varint.decode_take_lt ht hshort]
  · have htake : (t ++ l).take n = t ++ l.take (n - t.length) := by
      rw [take_append, take_of_length_le (by omega)]
    rw [htake, Varint.decode_append ht]
    simp only [drop_left]
    rw [Varint.decode_take_lt hl (by omega)]

end Header

namespace DatagramCapsules

variable {receive : ℕ → Bytes → Except DecodeError γ} {d : DatagramCapsules}

def cleared (d : DatagramCapsules) (kind : ℕ) : DatagramCapsules :=
  { d with header := [], incomplete := rfl, remaining := 0, value := none, kind }

lemma decodeWith_capsule {t l v rest : Bytes} {kind limit : ℕ} (hheader : d.header = [])
    (hzero : d.remaining = 0) (ht : Varint.decode t = .ok (kind, t.length))
    (hl : Varint.decode l = .ok (v.length, l.length)) (hlimit : d.limitFor kind = some limit)
    (hv : v.length ≤ limit) :
    d.decodeWith receive (t ++ l ++ v ++ rest) =
      andThen receive rest (d.cleared kind, some (kind, v)) := by
  have hbegin : d.decodeWith receive (t ++ l ++ (v ++ rest)) =
      d.beginValue kind v.length >>= andThen receive (v ++ rest) := by
    have hne : t ++ l ≠ [] := by
      have hb := Varint.decode_bounds ht
      rw [← length_pos_iff, length_append]
      omega
    refine decodeWith_headers hzero hne ?_ ?_
    · rw [hheader, nil_append]
      exact fun n hn => readHeader_take ht hl hn
    · rw [hheader, nil_append]
      exact readHeader_append ht hl
  rw [append_assoc (t ++ l), hbegin]
  unfold beginValue
  have hlimit' : limitFor { d with header := [], incomplete := rfl, remaining := v.length, kind }
      kind = some limit := hlimit
  simp only [hlimit', if_neg (Nat.not_lt.mpr hv)]
  cases v with
  | nil => rfl
  | cons b v =>
    rw [if_neg (by simp)]
    simp only [bind, Except.bind]
    rw [andThen_none, decodeWith_value (by simp) (by simp)]
    simp only [takeValue, length_append, Nat.min_add_right_self, Nat.sub_self,
      take_left, drop_left, if_true]
    rfl

end DatagramCapsules

lemma IpCapsules.decode_datagram {c : IpCapsules} {t l v : Bytes} (hidle : c.isPartial = false)
    (ht : Varint.decode t = .ok (capsuleDatagram, t.length))
    (hl : Varint.decode l = .ok (v.length, l.length)) (hv : v.length ≤ c.decoder.limit) :
    c.decode (t ++ l ++ v) = .ok (⟨c.decoder.cleared capsuleDatagram⟩, [.datagram v]) := by
  simp only [isPartial, DatagramCapsules.isPartial, Bool.or_eq_false_iff, Bool.not_eq_false',
    List.isEmpty_iff, decide_eq_false_iff_not, not_not] at hidle
  have hlimit : c.decoder.limitFor capsuleDatagram = some c.decoder.limit := rfl
  have hcapsule : c.decoder.decodeWith frame (t ++ l ++ v ++ []) =
      DatagramCapsules.andThen frame []
        (c.decoder.cleared capsuleDatagram, some (capsuleDatagram, v)) :=
    DatagramCapsules.decodeWith_capsule hidle.1 hidle.2 ht hl hlimit hv
  rw [append_nil] at hcapsule
  rw [decode, hcapsule]
  rfl

end MasqueServer
