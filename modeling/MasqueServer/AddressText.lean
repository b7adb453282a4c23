import MasqueServer.IpAddress
import MasqueServer.PercentEncoding

/-!
# Texts of IP addresses

The standard library's address parser: readers that take a number, a separator or an address off
the front of a text, and an address text as one that a reader takes completely. Every octet a
reader takes is a hexadecimal digit, a colon or a dot.
-/
namespace MasqueServer

open List Option

/-- What is left of a text after its first part has been read; a failed reader takes nothing. -/
abbrev Reader (β : Type) := Bytes → Option (β × Bytes)

def toDigit (radix : ℕ) (octet : UInt8) : Option ℕ :=
  match hexDigit octet with
  | some digit => if digit.toNat < radix then some digit.toNat else none
  | none => none

def readNumberLoop (radix maxDigits : ℕ) : ℕ → ℕ → Bytes → Option (ℕ × ℕ × Bytes)
  | count, result, [] => some (count, result, [])
  | count, result, octet :: rest =>
    match toDigit radix octet with
    | none => some (count, result, octet :: rest)
    | some digit =>
      if maxDigits < count + 1 then none
      else readNumberLoop radix maxDigits (count + 1) (result * radix + digit) rest

def readNumber (radix maxDigits : ℕ) (allowZeroPrefix : Bool) (limit : ℕ) : Reader ℕ := fun text =>
  match readNumberLoop radix maxDigits 0 0 text with
  | none => none
  | some (count, result, rest) =>
    if count = 0 then none
    else if !allowZeroPrefix && text.head? == some 48 && 1 < count then none
    else if result < limit then some (result, rest) else none

def readGivenChar (char : UInt8) : Reader Unit
  | [] => none
  | octet :: rest => if octet = char then some ((), rest) else none

def readSeparator {β : Type} (separator : UInt8) (index : ℕ) (inner : Reader β) : Reader β :=
  fun text =>
    if 0 < index then (readGivenChar separator text).bind fun p => inner p.2 else inner text

def readDecimalOctet (index : ℕ) : Reader ℕ := readSeparator 46 index (readNumber 10 3 false 256)

def readIpv4Addr : Reader Ipv4Addr := fun text => do
  let (a, text) ← readDecimalOctet 0 text
  let (b, text) ← readDecimalOctet 1 text
  let (c, text) ← readDecimalOctet 2 text
  let (d, text) ← readDecimalOctet 3 text
  some (BitVec.ofNat 32 (((a * 256 + b) * 256 + c) * 256 + d), text)

/-- At most `left` more groups after those already read; an IPv4 address may stand for the last
two and ends them. -/
def readGroups : ℕ → List ℕ → Bytes → List ℕ × Bool × Bytes
  | 0, groups, text => (groups, false, text)
  | left + 1, groups, text =>
    match (if 0 < left then readSeparator 58 groups.length readIpv4Addr text else none) with
    | some (address, rest) =>
      (groups ++ [address.toNat / 65536, address.toNat % 65536], true, rest)
    | none =>
      match readSeparator 58 groups.length (readNumber 16 4 true 65536) text with
      | some (group, rest) => readGroups left (groups ++ [group]) rest
      | none => (groups, false, text)

def ofGroups (groups : List ℕ) : Ipv6Addr :=
  BitVec.ofNat 128 (groups.foldl (fun value group => value * 65536 + group) 0)

/-- The groups before a double colon, which stands for at least one group of zeroes, and those
after it. -/
def readIpv6Addr : Reader Ipv6Addr := fun text =>
  let (head, headIpv4, rest) := readGroups 8 [] text
  if head.length = 8 then some (ofGroups head, rest)
  else if headIpv4 then none
  else do
    let (_, rest) ← readGivenChar 58 rest
    let (_, rest) ← readGivenChar 58 rest
    let (tail, _, rest) := readGroups (8 - (head.length + 1)) [] rest
    some (ofGroups (head ++ List.replicate (8 - head.length - tail.length) 0 ++ tail), rest)

def readIpAddr : Reader IpAddr := fun text =>
  match readIpv4Addr text with
  | some (address, rest) => some (.v4 address, rest)
  | none => (readIpv6Addr text).map fun p => (.v6 p.1, p.2)

def parseWith {β : Type} (reader : Reader β) (text : Bytes) : Option β :=
  match reader text with
  | some (a, []) => some a
  | _ => none

def parseIpv6Addr : Bytes → Option Ipv6Addr := parseWith readIpv6Addr

def parseIpAddr : Bytes → Option IpAddr := parseWith readIpAddr

def IsAddressOctet (octet : UInt8) : Prop := (hexDigit octet).isSome ∨ octet = 58 ∨ octet = 46

instance (octet : UInt8) : Decidable (IsAddressOctet octet) :=
  inferInstanceAs (Decidable ((hexDigit octet).isSome ∨ octet = 58 ∨ octet = 46))

/-- Address octets have been taken off the front of `text`, and `rest` is left. -/
def Taken (text rest : Bytes) : Prop :=
  ∃ used, text = used ++ rest ∧ ∀ octet ∈ used, IsAddressOctet octet

def Reader.TakesAddressOctets {β : Type} (reader : Reader β) : Prop :=
  ∀ {text rest : Bytes} {a : β}, reader text = some (a, rest) → Taken text rest

section Taken

variable {β : Type} {octet : UInt8} {text middle rest : Bytes}

lemma Taken.refl (text : Bytes) : Taken text text := ⟨[], rfl, by simp⟩

lemma Taken.cons (hoctet : IsAddressOctet octet) (h : Taken text rest) :
    Taken (octet :: text) rest := by
  obtain ⟨used, rfl, hused⟩ := h
  exact ⟨octet :: used, rfl, forall_mem_cons.mpr ⟨hoctet, hused⟩⟩

lemma Taken.trans (h : Taken text middle) (h' : Taken middle rest) : Taken text rest := by
  obtain ⟨used, rfl, hused⟩ := h
  obtain ⟨used', rfl, hused'⟩ := h'
  refine ⟨used ++ used', (append_assoc _ _ _).symm, ?_⟩
  intro octet hmem
  rcases mem_append.mp hmem with hmem | hmem
  · exact hused octet hmem
  · exact hused' octet hmem

lemma isAddressOctet_of_toDigit {radix digit : ℕ} (h : toDigit radix octet = some digit) :
    IsAddressOctet octet := by
  unfold toDigit at h
  split at h
  next hdigit => exact Or.inl (by simp [hdigit])
  next => cases h

lemma readNumberLoop_taken {radix maxDigits count result count' result' : ℕ}
    (h : readNumberLoop radix maxDigits count result text = some (count', result', rest)) :
    Taken text rest := by
  induction text generalizing count result with
  | nil =>
    simp only [readNumberLoop, some.injEq, Prod.mk.injEq] at h
    obtain ⟨-, -, rfl⟩ := h
    exact Taken.refl []
  | cons octet text ih =>
    rw [readNumberLoop] at h
    split at h
    next =>
      simp only [some.injEq, Prod.mk.injEq] at h
      obtain ⟨-, -, rfl⟩ := h
      exact Taken.refl _
    next digit hdigit =>
      split_ifs at h
      exact (ih h).cons (isAddressOctet_of_toDigit hdigit)

lemma readNumber_taken (radix maxDigits : ℕ) (allowZeroPrefix : Bool) (limit : ℕ) :
    (readNumber radix maxDigits allowZeroPrefix limit).TakesAddressOctets := by
  intro text rest value h
  unfold readNumber at h
  split at h
  next => cases h
  next count result rest' hloop =>
    split_ifs at h
    simp only [some.injEq, Prod.mk.injEq] at h
    obtain ⟨-, rfl⟩ := h
    exact readNumberLoop_taken hloop

lemma readGivenChar_taken {char : UInt8} (hchar : IsAddressOctet char) :
    (readGivenChar char).TakesAddressOctets := by
  intro text rest _ h
  cases text with
  | nil => cases h
  | cons octet text =>
    simp only [readGivenChar] at h
    split_ifs at h with heq
    simp only [some.injEq, Prod.mk.injEq, true_and] at h
    subst h heq
    exact (Taken.refl text).cons hchar

lemma readSeparator_taken {separator : UInt8} {reader : Reader β} (index : ℕ)
    (hseparator : IsAddressOctet separator) (hreader : reader.TakesAddressOctets) :
    (readSeparator separator index reader).TakesAddressOctets := by
  intro text rest a h
  unfold readSeparator at h
  split_ifs at h
  · simp only [bind_eq_some_iff, Prod.exists] at h
    obtain ⟨_, middle, hfirst, hrest⟩ := h
    exact (readGivenChar_taken hseparator hfirst).trans (hreader hrest)
  · exact hreader h

lemma readIpv4Addr_taken : readIpv4Addr.TakesAddressOctets := by
  intro text rest address h
  have hoctet (index : ℕ) : (readDecimalOctet index).TakesAddressOctets :=
    readSeparator_taken index (by decide) (readNumber_taken 10 3 false 256)
  simp only [readIpv4Addr, bind_eq_bind, bind_eq_some_iff, Prod.exists,
    some.injEq, Prod.mk.injEq] at h
  obtain ⟨_, _, ha, _, _, hb, _, _, hc, _, _, hd, -, rfl⟩ := h
  exact (hoctet 0 ha).trans ((hoctet 1 hb).trans ((hoctet 2 hc).trans (hoctet 3 hd)))

lemma readGroups_taken (left : ℕ) (groups : List ℕ) (text : Bytes) :
    Taken text (readGroups left groups text).2.2 := by
  induction left generalizing groups text with
  | zero => exact Taken.refl text
  | succ left ih =>
    rw [readGroups]
    split
    next address rest haddress =>
      split_ifs at haddress
      exact readSeparator_taken _ (by decide) readIpv4Addr_taken haddress
    next =>
      split
      next group rest hgroup =>
        exact (readSeparator_taken _ (by decide) (readNumber_taken 16 4 true 65536) hgroup).trans
          (ih _ rest)
      next => exact Taken.refl text

lemma readIpv6Addr_taken : readIpv6Addr.TakesAddressOctets := by
  intro text rest address h
  have hhead := readGroups_taken 8 [] text
  simp only [readIpv6Addr, bind_eq_bind] at h
  split_ifs at h
  · simp only [some.injEq, Prod.mk.injEq] at h
    exact h.2 ▸ hhead
  · simp only [bind_eq_some_iff, Prod.exists, some.injEq, Prod.mk.injEq] at h
    obtain ⟨_, _, hfirst, _, middle, hsecond, -, rfl⟩ := h
    have hcolon : (readGivenChar 58).TakesAddressOctets := readGivenChar_taken (by decide)
    exact hhead.trans ((hcolon hfirst).trans ((hcolon hsecond).trans (readGroups_taken _ _ _)))

lemma readIpAddr_taken : readIpAddr.TakesAddressOctets := by
  intro text rest address h
  unfold readIpAddr at h
  split at h
  next hv4 =>
    simp only [some.injEq, Prod.mk.injEq] at h
    exact h.2 ▸ readIpv4Addr_taken hv4
  next =>
    simp only [map_eq_some_iff, Prod.exists, Prod.mk.injEq] at h
    obtain ⟨_, _, hv6, -, rfl⟩ := h
    exact readIpv6Addr_taken hv6

theorem addressOctets_of_parseWith {reader : Reader β} (hreader : reader.TakesAddressOctets) {a : β}
    (h : parseWith reader text = some a) : ∀ octet ∈ text, IsAddressOctet octet := by
  unfold parseWith at h
  split at h
  next hread =>
    obtain ⟨used, rfl, hused⟩ := hreader hread
    simpa using hused
  next => cases h

lemma ascii_of_isAddressOctet (h : IsAddressOctet octet) : octet < 128 := by
  have hall : ∀ n : Fin 256, IsAddressOctet (UInt8.ofFin n) → UInt8.ofFin n < 128 := by
    decide +kernel
  exact hall octet.toFin h

end Taken

/-- `2001:db8::192.0.2.1`. -/
example : parseIpv6Addr
    [50, 48, 48, 49, 58, 100, 98, 56, 58, 58, 49, 57, 50, 46, 48, 46, 50, 46, 49] =
      some 0x20010db80000000000000000c0000201#128 := by
  decide +kernel

end MasqueServer
