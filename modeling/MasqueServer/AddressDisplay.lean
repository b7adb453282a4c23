import MasqueServer.AddressText
import MasqueServer.RetryTokens
import Mathlib.Data.Nat.Digits.Defs

/-!
# Written addresses

How the standard library writes IP and socket addresses, and its reader of socket addresses. What is
written reads back, except for the flow information of an IPv6 socket address, which has no text.
-/
namespace MasqueServer

open List Option

/-! ### Writing -/

def octetsOf (text : List Char) : Bytes := text.flatMap String.utf8EncodeChar

def displayIpv4 (a : Ipv4Addr) : List Char :=
  Nat.toDigits 10 (a.toNat / 16777216) ++ '.' :: (Nat.toDigits 10 (a.toNat / 65536 % 256) ++
    '.' :: (Nat.toDigits 10 (a.toNat / 256 % 256) ++ '.' :: Nat.toDigits 10 (a.toNat % 256)))

def segments (a : Ipv6Addr) : List ℕ :=
  (List.range 8).map fun i => a.toNat / 65536 ^ (7 - i) % 65536

structure Span where
  start : ℕ
  len : ℕ

/-- The first longest run of zeroes: the groups from `index` on, after the longest run so far and
the run that is going on. -/
def longestZeros : ℕ → Span → Span → List ℕ → Span
  | _, longest, _, [] => longest
  | index, longest, current, segment :: rest =>
    if segment = 0 then
      let current : Span := ⟨if current.len = 0 then index else current.start, current.len + 1⟩
      longestZeros (index + 1) (if longest.len < current.len then current else longest) current rest
    else longestZeros (index + 1) longest ⟨0, 0⟩ rest

def fmtSubslice : List ℕ → List Char
  | [] => []
  | first :: tail => Nat.toDigits 16 first ++ tail.flatMap fun segment =>
    ':' :: Nat.toDigits 16 segment

def displayIpv6 (a : Ipv6Addr) : List Char :=
  match toIpv4Mapped a with
  | some mapped => "::ffff:".toList ++ displayIpv4 mapped
  | none =>
    let zeroes := longestZeros 0 ⟨0, 0⟩ ⟨0, 0⟩ (segments a)
    if 1 < zeroes.len then
      fmtSubslice ((segments a).take zeroes.start) ++ "::".toList ++
        fmtSubslice ((segments a).drop (zeroes.start + zeroes.len))
    else fmtSubslice (segments a)

def SocketAddr.display : SocketAddr → List Char
  | .v4 ip port => displayIpv4 ip ++ ':' :: Nat.toDigits 10 port.toNat
  | .v6 ip port _ scopeId =>
    if scopeId = 0 then '[' :: (displayIpv6 ip ++ "]:".toList ++ Nat.toDigits 10 port.toNat)
    else '[' :: (displayIpv6 ip ++ '%' :: (Nat.toDigits 10 scopeId.toNat ++ "]:".toList ++
      Nat.toDigits 10 port.toNat))

/-! ### Reading socket addresses -/

def readLongNumber (limit : ℕ) : Reader ℕ := fun text => readNumber 10 text.length true limit text

def readPort : Reader (BitVec 16) := fun text => do
  let (_, text) ← readGivenChar 58 text
  let (port, text) ← readLongNumber 65536 text
  some (BitVec.ofNat 16 port, text)

def readScopeId : Reader (BitVec 32) := fun text => do
  let (_, text) ← readGivenChar 37 text
  let (scopeId, text) ← readLongNumber 4294967296 text
  some (BitVec.ofNat 32 scopeId, text)

def readSocketAddrV4 : Reader SocketAddr := fun text => do
  let (ip, text) ← readIpv4Addr text
  let (port, text) ← readPort text
  some (.v4 ip port, text)

def readSocketAddrV6 : Reader SocketAddr := fun text => do
  let (_, text) ← readGivenChar 91 text
  let (ip, text) ← readIpv6Addr text
  let (scopeId, text) := (readScopeId text).getD (0, text)
  let (_, text) ← readGivenChar 93 text
  let (port, text) ← readPort text
  some (.v6 ip port 0 scopeId, text)

def readSocketAddr : Reader SocketAddr := fun text =>
  (readSocketAddrV4 text).or (readSocketAddrV6 text)

def parseSocketAddr (text : List Char) : Option SocketAddr :=
  parseWith readSocketAddr (octetsOf text)

/-! ### Numbers -/

section Numbers

variable {radix maxDigits count result n : ℕ} {text rest : Bytes}

def Stops (radix : ℕ) (rest : Bytes) : Prop := ∀ octet ∈ rest.head?, toDigit radix octet = none

lemma exists_digit_of_mem_toDigits {c : Char} (hradix : 1 < radix) (h : c ∈ Nat.toDigits radix n) :
    ∃ d < radix, c = d.digitChar := by
  induction n using Nat.strong_induction_on with
  | h n ih =>
    rw [Nat.toDigits_eq_if hradix] at h
    split_ifs at h with hlt
    · exact ⟨n, hlt, mem_singleton.mp h⟩
    · obtain h | h := mem_append.mp h
      · exact ih (n / radix) (Nat.div_lt_self (by omega) hradix) h
      · exact ⟨n % radix, Nat.mod_lt n (by omega), mem_singleton.mp h⟩

lemma octetsOf_append (text text' : List Char) :
    octetsOf (text ++ text') = octetsOf text ++ octetsOf text' := flatMap_append

lemma octetsOf_cons (c : Char) (text : List Char) :
    octetsOf (c :: text) = String.utf8EncodeChar c ++ octetsOf text := flatMap_cons

variable {d : ℕ}

lemma octetsOf_digitChar (hd : d < 16) :
    ∃ octet, octetsOf [d.digitChar] = [octet] ∧ octet ≠ 46 ∧ octet ≠ 58 ∧
      hexDigit octet = some (UInt8.ofNat d) := by
  interval_cases d
  all_goals exact ⟨_, rfl, by decide, by decide, by decide⟩

lemma toDigit_of_hexDigit {octet : UInt8} (hd : d < 16) (h : hexDigit octet = some (UInt8.ofNat d))
    (hradix : d < radix) : toDigit radix octet = some d := by
  have hvalue : (UInt8.ofNat d).toNat = d := by
    rw [UInt8.toNat_ofNat']
    omega
  rw [toDigit, h]
  simp only [hvalue, hradix, if_true]

lemma readNumberLoop_stops (h : Stops radix rest) :
    readNumberLoop radix maxDigits count result rest = some (count, result, rest) := by
  cases rest with
  | nil => rfl
  | cons octet rest => rw [readNumberLoop, h octet rfl]

lemma readNumberLoop_digit (hsmall : radix ≤ 16) (hd : d < radix) (hcount : count < maxDigits)
    (rest : Bytes) :
    readNumberLoop radix maxDigits count result (octetsOf [d.digitChar] ++ rest) =
      readNumberLoop radix maxDigits (count + 1) (result * radix + d) rest := by
  obtain ⟨octet, hoctet, -, -, hdigit⟩ := octetsOf_digitChar (hd.trans_le hsmall)
  rw [hoctet, singleton_append, readNumberLoop,
    toDigit_of_hexDigit (hd.trans_le hsmall) hdigit hd]
  exact if_neg (by omega)

lemma readNumberLoop_toDigits (hradix : 1 < radix) (hsmall : radix ≤ 16) (rest : Bytes)
    (hfits : count + (Nat.toDigits radix n).length ≤ maxDigits) :
    readNumberLoop radix maxDigits count result (octetsOf (Nat.toDigits radix n) ++ rest) =
      readNumberLoop radix maxDigits (count + (Nat.toDigits radix n).length)
        (result * radix ^ (Nat.toDigits radix n).length + n) rest := by
  induction n using Nat.strong_induction_on generalizing rest with
  | h n ih =>
    rw [Nat.toDigits_eq_if hradix] at hfits ⊢
    split_ifs at hfits ⊢ with hlt
    · rw [readNumberLoop_digit hsmall hlt hfits, length_singleton, pow_one]
    · have hdiv : n / radix < n := Nat.div_lt_self (by omega) hradix
      rw [length_append, length_singleton] at hfits ⊢
      rw [octetsOf_append, append_assoc, ih _ hdiv _ (by omega),
        readNumberLoop_digit hsmall (Nat.mod_lt n (by omega)) (by omega)]
      congr 1
      rw [add_mul, mul_assoc, ← pow_succ, add_assoc, Nat.div_add_mod']

lemma eq_zero_of_head_octetsOf (hradix : 1 < radix) (hsmall : radix ≤ 16)
    (h : (octetsOf (Nat.toDigits radix n) ++ rest).head? = some 48) : n = 0 := by
  induction n using Nat.strong_induction_on generalizing rest with
  | h n ih =>
    rw [Nat.toDigits_eq_if hradix] at h
    split_ifs at h with hlt
    · obtain ⟨octet, hoctet, -, -, hdigit⟩ := octetsOf_digitChar (hlt.trans_le hsmall)
      rw [hoctet] at h
      cases h
      have hzero := congrArg UInt8.toNat (some.inj hdigit)
      rw [UInt8.toNat_ofNat', show ((48 : UInt8) - 48).toNat = 0 from rfl] at hzero
      omega
    · rw [octetsOf_append, append_assoc] at h
      have hdiv := ih (n / radix) (Nat.div_lt_self (by omega) hradix) h
      rw [Nat.div_eq_zero_iff] at hdiv
      omega

theorem readNumber_toDigits {limit : ℕ} {allowZeroPrefix : Bool} (hradix : 1 < radix)
    (hsmall : radix ≤ 16) (hfits : (Nat.toDigits radix n).length ≤ maxDigits) (hlimit : n < limit)
    (hrest : Stops radix rest) :
    readNumber radix maxDigits allowZeroPrefix limit (octetsOf (Nat.toDigits radix n) ++ rest) =
      some (n, rest) := by
  have hloop := @readNumberLoop_toDigits radix maxDigits 0 0 n hradix hsmall rest (by omega)
  rw [readNumberLoop_stops hrest, zero_mul, zero_add, zero_add] at hloop
  have hpositive : (Nat.toDigits radix n).length ≠ 0 := by
    rw [Ne, length_eq_zero_iff]
    exact Nat.toDigits_ne_nil
  have hleading :
    ¬ ((!allowZeroPrefix && (octetsOf (Nat.toDigits radix n) ++ rest).head? == some 48 &&
      decide (1 < (Nat.toDigits radix n).length)) = true) := by
    simp only [Bool.and_eq_true, beq_iff_eq, decide_eq_true_eq, not_and]
    rintro ⟨-, hhead⟩ hlong
    rw [eq_zero_of_head_octetsOf hradix hsmall hhead, Nat.toDigits_zero] at hlong
    exact absurd hlong (by decide)
  rw [readNumber, hloop]
  simp only [if_neg hpositive, if_neg hleading, if_pos hlimit]

end Numbers

/-! ### IPv4 -/

section Ipv4

variable {text rest : Bytes}

variable {n radix : ℕ}

lemma readDecimalOctet_zero (hn : n < 256) (hrest : Stops 10 rest) :
    readDecimalOctet 0 (octetsOf (Nat.toDigits 10 n) ++ rest) = some (n, rest) := by
  have hfits : (Nat.toDigits 10 n).length ≤ 3 :=
    (Nat.length_toDigits_le_iff (by decide) (by decide)).mpr (by omega)
  exact readNumber_toDigits (by decide) (by decide) hfits hn hrest

lemma readDecimalOctet_succ (index : ℕ) (hn : n < 256) (hrest : Stops 10 rest) :
    readDecimalOctet (index + 1) (46 :: (octetsOf (Nat.toDigits 10 n) ++ rest)) = some (n, rest) :=
  readDecimalOctet_zero hn hrest

lemma stops_cons {octet : UInt8} (h : toDigit radix octet = none) :
    Stops radix (octet :: rest) := by
  intro first hfirst
  cases hfirst
  exact h

theorem readIpv4Addr_display (a : Ipv4Addr) (hrest : Stops 10 rest) :
    readIpv4Addr (octetsOf (displayIpv4 a) ++ rest) = some (a, rest) := by
  have hdot : ∀ text : List Char, octetsOf ('.' :: text) = 46 :: octetsOf text := fun _ => rfl
  have hstop : ∀ rest : Bytes, Stops 10 (46 :: rest) := fun rest => stops_cons (by decide)
  have hlt := a.isLt
  simp only [displayIpv4, octetsOf_append, hdot, append_assoc, cons_append, readIpv4Addr,
    bind_eq_bind]
  rw [readDecimalOctet_zero (by omega) (hstop _), bind_some,
    readDecimalOctet_succ 0 (by omega) (hstop _), bind_some,
    readDecimalOctet_succ 1 (by omega) (hstop _), bind_some,
    readDecimalOctet_succ 2 (by omega) hrest, bind_some]
  congr 2
  rw [BitVec.toNat_eq, BitVec.toNat_ofNat]
  omega

lemma readNumberLoop_rest {maxDigits count result count' result' : ℕ}
    (h : readNumberLoop radix maxDigits count result text = some (count', result', rest)) :
    rest = text.dropWhile fun octet => (toDigit radix octet).isSome := by
  induction text generalizing count result with
  | nil =>
    cases h
    rfl
  | cons octet text ih =>
    rw [readNumberLoop] at h
    split at h
    next hdigit =>
      cases h
      rw [dropWhile_cons_of_neg (by simp [hdigit])]
    next digit hdigit =>
      split_ifs at h
      rw [dropWhile_cons_of_pos (by simp [hdigit])]
      exact ih h

lemma readNumber_rest {maxDigits limit : ℕ} {allowZeroPrefix : Bool}
    (h : readNumber radix maxDigits allowZeroPrefix limit text = some (n, rest)) :
    rest = text.dropWhile fun octet => (toDigit radix octet).isSome := by
  unfold readNumber at h
  split at h
  next => cases h
  next hloop =>
    split_ifs at h
    cases h
    exact readNumberLoop_rest hloop

lemma readNumber_of_stops (h : Stops radix text) (maxDigits limit : ℕ) (allowZeroPrefix : Bool) :
    readNumber radix maxDigits allowZeroPrefix limit text = none := by
  rw [readNumber, readNumberLoop_stops h]
  rfl

lemma dot_of_readIpv4Addr {p : Ipv4Addr × Bytes} (h : readIpv4Addr text = some p) :
    (text.dropWhile fun octet => (toDigit 10 octet).isSome).head? = some 46 := by
  simp only [readIpv4Addr, bind_eq_bind, bind_eq_some_iff, Prod.exists] at h
  obtain ⟨_, rest, hfirst, _, _, hsecond, -⟩ := h
  rw [← readNumber_rest hfirst]
  simp only [readDecimalOctet, readSeparator, Nat.one_pos, if_true, bind_eq_some_iff,
    Prod.exists] at hsecond
  obtain ⟨_, _, hdot, -⟩ := hsecond
  cases rest with
  | nil => cases hdot
  | cons octet rest =>
    rw [readGivenChar] at hdot
    split_ifs at hdot with hoctet
    rw [hoctet]
    rfl

lemma readIpv4Addr_of_stops (h : Stops 10 text) : readIpv4Addr text = none := by
  have hfirst : readDecimalOctet 0 text = none := readNumber_of_stops h 3 256 false
  rw [readIpv4Addr, hfirst]
  rfl

end Ipv4

/-! ### IPv6 -/

section Ipv6

variable {left g : ℕ} {groups l : List ℕ} {text rest : Bytes}

/-- What may follow a group: no digit, and no dot. -/
structure EndsGroup (rest : Bytes) : Prop where
  stops : Stops 16 rest
  dot : rest.head? ≠ some 46

lemma endsGroup_colon (rest : Bytes) : EndsGroup (58 :: rest) :=
  ⟨stops_cons (by decide), fun h => absurd (some.inj h) (by decide)⟩

lemma stops_ten (h : Stops 16 rest) : Stops 10 rest := by
  intro octet hoctet
  have hsixteen := h octet hoctet
  unfold toDigit at hsixteen ⊢
  split at hsixteen
  next digit hdigit =>
    split_ifs at hsixteen with hlt
    rw [if_neg (by omega)]
  next => rfl

lemma mem_octetsOf_toDigits {octet : UInt8} (h : octet ∈ octetsOf (Nat.toDigits 16 g)) :
    octet ≠ 46 := by
  obtain ⟨c, hc, hoctet⟩ := mem_flatMap.mp h
  obtain ⟨d, hd, rfl⟩ := exists_digit_of_mem_toDigits (by decide) hc
  obtain ⟨_, heq, hdot, -⟩ := octetsOf_digitChar hd
  rw [octetsOf, flatMap_singleton] at heq
  rw [heq, mem_singleton] at hoctet
  exact hoctet ▸ hdot

lemma readIpv4Addr_group (h : EndsGroup rest) :
    readIpv4Addr (octetsOf (Nat.toDigits 16 g) ++ rest) = none := by
  by_contra hsome
  obtain ⟨p, hp⟩ := ne_none_iff_exists'.mp hsome
  have hdot := dot_of_readIpv4Addr hp
  rw [dropWhile_append] at hdot
  split_ifs at hdot with hempty
  · have hstay : rest.dropWhile (fun octet => (toDigit 10 octet).isSome) = rest := by
      cases rest with
      | nil => rfl
      | cons octet rest =>
        have hoctet := stops_ten h.stops octet rfl
        exact dropWhile_cons_of_neg (by simp [hoctet])
    exact h.dot (hstay ▸ hdot)
  · obtain ⟨octet, kept, hkept⟩ := exists_cons_of_ne_nil fun hnil =>
      hempty (List.isEmpty_iff.mpr hnil)
    rw [hkept] at hdot
    cases hdot
    have hmem : 46 ∈ octetsOf (Nat.toDigits 16 g) :=
      dropWhile_subset _ (hkept ▸ mem_cons_self)
    exact mem_octetsOf_toDigits hmem rfl

def groupSeparator (groups : List ℕ) : Bytes := if groups = [] then [] else [58]

lemma readSeparator_groupSeparator {β : Type} (groups : List ℕ) (inner : Reader β)
    (text : Bytes) :
    readSeparator 58 groups.length inner (groupSeparator groups ++ text) = inner text := by
  cases groups with
  | nil => rfl
  | cons group groups => rfl

lemma readGroups_group (hg : g < 65536) (h : EndsGroup rest) :
    readGroups (left + 1) groups (groupSeparator groups ++ (octetsOf (Nat.toDigits 16 g) ++ rest)) =
      readGroups left (groups ++ [g]) rest := by
  have hfits : (Nat.toDigits 16 g).length ≤ 4 :=
    (Nat.length_toDigits_le_iff (by decide) (by decide)).mpr hg
  have hnumber : readNumber 16 4 true 65536 (octetsOf (Nat.toDigits 16 g) ++ rest) =
    some (g, rest) :=
    readNumber_toDigits (by decide) (by decide) hfits hg h.stops
  rw [readGroups, readSeparator_groupSeparator, readSeparator_groupSeparator, readIpv4Addr_group h,
    ite_self, hnumber]

def groupsText (groups l : List ℕ) : Bytes :=
  match l with
  | [] => []
  | first :: l => groupSeparator groups ++ (octetsOf (Nat.toDigits 16 first) ++
      groupsText (groups ++ [first]) l)

lemma octetsOf_flatMap_groups (hgroups : groups ≠ []) (l : List ℕ) :
    octetsOf (l.flatMap fun segment => ':' :: Nat.toDigits 16 segment) = groupsText groups l := by
  induction l generalizing groups with
  | nil => rfl
  | cons first l ih =>
    have hcolon : ∀ text : List Char, octetsOf (':' :: text) = 58 :: octetsOf text := fun _ => rfl
    have hnext : groups ++ [first] ≠ [] := by simp
    rw [flatMap_cons, cons_append, hcolon, octetsOf_append, ih hnext, groupsText,
      groupSeparator, if_neg hgroups]
    rfl

lemma octetsOf_fmtSubslice (l : List ℕ) : octetsOf (fmtSubslice l) = groupsText [] l := by
  cases l with
  | nil => rfl
  | cons first l =>
    rw [fmtSubslice, octetsOf_append, octetsOf_flatMap_groups (cons_ne_nil first [])]
    rfl

lemma endsGroup_groupsText (hgroups : groups ≠ []) (h : EndsGroup rest) :
    EndsGroup (groupsText groups l ++ rest) := by
  cases l with
  | nil => exact h
  | cons first l =>
    rw [groupsText, groupSeparator, if_neg hgroups]
    exact endsGroup_colon _

lemma readGroups_groupsText (hl : ∀ g ∈ l, g < 65536) (h : EndsGroup rest) :
    readGroups (left + l.length) groups (groupsText groups l ++ rest) =
      readGroups left (groups ++ l) rest := by
  induction l generalizing groups with
  | nil => rw [append_nil]; rfl
  | cons first l ih =>
    rw [forall_mem_cons] at hl
    have hends : EndsGroup (groupsText (groups ++ [first]) l ++ rest) :=
      endsGroup_groupsText (by simp) h
    rw [groupsText, append_assoc, append_assoc, length_cons, ← add_assoc,
      readGroups_group hl.1 hends, ih hl.2, append_assoc]
    rfl

lemma readGroups_end (h : EndsGroup rest) (hcolon : rest.head? ≠ some 58) :
    readGroups left groups rest = (groups, false, rest) := by
  cases left with
  | zero => rfl
  | succ left =>
    have hnone : ∀ {β : Type} (inner : Reader β), inner rest = none →
        readSeparator 58 groups.length inner rest = none := by
      intro β inner hinner
      unfold readSeparator
      split_ifs
      · cases rest with
        | nil => rfl
        | cons octet rest =>
          have hoctet : octet ≠ 58 := fun h => hcolon (congrArg some h)
          rw [readGivenChar, if_neg hoctet]
          rfl
      · exact hinner
    rw [readGroups, hnone _ (readIpv4Addr_of_stops (stops_ten h.stops)), ite_self,
      hnone _ (readNumber_of_stops h.stops 4 65536 true)]

lemma readGroups_doubleColon (left : ℕ) (groups : List ℕ) (rest : Bytes) :
    readGroups left groups (58 :: 58 :: rest) = (groups, false, 58 :: 58 :: rest) := by
  cases left with
  | zero => rfl
  | succ left =>
    have hnone : ∀ {β : Type} (inner : Reader β), (∀ rest, inner (58 :: rest) = none) →
        readSeparator 58 groups.length inner (58 :: 58 :: rest) = none := by
      intro β inner hinner
      unfold readSeparator
      split_ifs
      · exact hinner rest
      · exact hinner (58 :: rest)
    rw [readGroups, hnone _ fun rest => readIpv4Addr_of_stops (stops_cons (by decide)), ite_self,
      hnone _ fun rest => readNumber_of_stops (stops_cons (by decide)) 4 65536 true]

/-! The run of zeroes that is left out. -/

lemma length_segments (a : Ipv6Addr) : (segments a).length = 8 := by
  rw [segments, length_map, length_range]

lemma segments_lt (a : Ipv6Addr) : ∀ g ∈ segments a, g < 65536 := by
  intro g hg
  obtain ⟨i, -, rfl⟩ := List.mem_map.mp hg
  exact Nat.mod_lt _ (by decide)

lemma ofGroups_segments (a : Ipv6Addr) : ofGroups (segments a) = a := by
  have hlt := a.isLt
  have hlist : segments a =
    [a.toNat / 65536 ^ 7 % 65536, a.toNat / 65536 ^ 6 % 65536, a.toNat / 65536 ^ 5 % 65536,
      a.toNat / 65536 ^ 4 % 65536, a.toNat / 65536 ^ 3 % 65536, a.toNat / 65536 ^ 2 % 65536,
        a.toNat / 65536 ^ 1 % 65536, a.toNat / 65536 ^ 0 % 65536] := rfl
  rw [hlist, ofGroups, BitVec.toNat_eq, BitVec.toNat_ofNat]
  simp only [foldl_cons, foldl_nil]
  omega

def IsZeroRun (all : List ℕ) (run : Span) : Prop :=
  ∃ before after, all = before ++ List.replicate run.len 0 ++ after ∧ before.length = run.start

lemma longestZeros_isZeroRun {all done : List ℕ} {longest current : Span}
    (hall : all = done ++ l) (hlongest : IsZeroRun all longest)
    (hcurrent : ∃ before, done = before ++ List.replicate current.len 0 ∧
      (current.len ≠ 0 → before.length = current.start)) :
    IsZeroRun all (longestZeros done.length longest current l) := by
  induction l generalizing done longest current with
  | nil => exact hlongest
  | cons segment l ih =>
    obtain ⟨before, hdone, hstart⟩ := hcurrent
    have hlength : done.length + 1 = (done ++ [segment]).length := by simp
    have hall' : all = done ++ [segment] ++ l := by rw [hall, append_assoc]; rfl
    rw [longestZeros, hlength]
    by_cases hzero : segment = 0
    · subst hzero
      have hrun : done ++ [0] = before ++ List.replicate (current.len + 1) 0 := by
        rw [hdone, append_assoc, replicate_succ']
      have hbefore : before.length = if current.len = 0 then done.length else current.start := by
        split_ifs with hlen
        · rw [hdone, hlen, replicate_zero, append_nil]
        · exact hstart hlen
      rw [if_pos rfl]
      refine ih hall' ?_ ⟨before, hrun, fun _ => hbefore⟩
      by_cases hlonger : longest.len < current.len + 1
      · rw [if_pos hlonger]
        exact ⟨before, l, by rw [hall', hrun], hbefore⟩
      · rw [if_neg hlonger]
        exact hlongest
    · rw [if_neg hzero]
      exact ih hall' hlongest ⟨done ++ [segment], by simp, fun h => absurd rfl h⟩

lemma drop_zeroRun {all : List ℕ} {run : Span} (h : IsZeroRun all run) :
    all = all.take run.start ++ List.replicate run.len 0 ++ all.drop (run.start + run.len) ∧
      run.start + run.len ≤ all.length := by
  obtain ⟨before, after, rfl, hstart⟩ := h
  have hlength : (before ++ List.replicate run.len 0).length = run.start + run.len := by
    rw [length_append, length_replicate, hstart]
  refine ⟨?_, ?_⟩
  · rw [← hlength, drop_left, ← hstart, append_assoc before, take_left,
      ← append_assoc]
  · rw [length_append, hlength]
    omega

lemma readIpv6Addr_doubleColon {head tail : List ℕ} {mapped : Bool} {middle : Bytes}
    (hhead : readGroups 8 [] text = (head, false, 58 :: 58 :: middle)) (hlength : head.length ≠ 8)
    (htail : readGroups (8 - (head.length + 1)) [] middle = (tail, mapped, rest)) :
    readIpv6Addr text =
      some (ofGroups (head ++ List.replicate (8 - head.length - tail.length) 0 ++ tail), rest) := by
  have hcolon : ∀ rest, readGivenChar 58 (58 :: rest) = some ((), rest) := fun _ => rfl
  simp only [readIpv6Addr, hhead, if_neg hlength, Bool.false_eq_true, if_false, bind_eq_bind,
    hcolon, bind_some, htail]

lemma readIpv6Addr_compressed {before after : List ℕ} (hbefore : ∀ g ∈ before, g < 65536)
    (hafter : ∀ g ∈ after, g < 65536) (hlength : before.length + after.length < 8)
    (h : EndsGroup rest) (hcolon : rest.head? ≠ some 58) :
    readIpv6Addr (groupsText [] before ++ 58 :: 58 :: (groupsText [] after ++ rest)) =
      some (ofGroups (before ++ List.replicate (8 - before.length - after.length) 0 ++
        after), rest) := by
  have hhead : readGroups 8 [] (groupsText [] before ++ 58 :: 58 :: (groupsText [] after ++ rest)) =
      (before, false, 58 :: 58 :: (groupsText [] after ++ rest)) := by
    have hread := @readGroups_groupsText (8 - before.length) [] before
      (58 :: 58 :: (groupsText [] after ++ rest)) hbefore (endsGroup_colon _)
    rwa [Nat.sub_add_cancel (by omega), readGroups_doubleColon] at hread
  have htail : readGroups (8 - (before.length + 1)) [] (groupsText [] after ++ rest) =
      (after, false, rest) := by
    have hread :=
      @readGroups_groupsText (8 - (before.length + 1) - after.length) [] after rest hafter h
    rwa [Nat.sub_add_cancel (by omega), readGroups_end h hcolon] at hread
  exact readIpv6Addr_doubleColon hhead (by omega) htail

lemma readIpv6Addr_mapped (m : Ipv4Addr) (hrest : Stops 10 rest) :
    readIpv6Addr (octetsOf ("::ffff:".toList ++ displayIpv4 m) ++ rest) =
      some (toIpv6Mapped m, rest) := by
  have htext : octetsOf ("::ffff:".toList ++ displayIpv4 m) ++ rest =
      58 :: 58 :: (groupSeparator [] ++ (octetsOf (Nat.toDigits 16 0xffff) ++
        58 :: (octetsOf (displayIpv4 m) ++ rest))) := rfl
  have hipv4 : readSeparator 58 1 readIpv4Addr (58 :: (octetsOf (displayIpv4 m) ++ rest)) =
      some (m, rest) := readIpv4Addr_display m hrest
  have htail : readGroups 7 [] (groupSeparator [] ++ (octetsOf (Nat.toDigits 16 0xffff) ++
      58 :: (octetsOf (displayIpv4 m) ++ rest))) =
      ([0xffff, m.toNat / 65536, m.toNat % 65536], true, rest) := by
    rw [readGroups_group (by decide) (endsGroup_colon _), nil_append, readGroups]
    simp only [length_singleton, hipv4, Nat.succ_pos, if_true]
    rfl
  have hlt := m.isLt
  rw [htext, readIpv6Addr_doubleColon (readGroups_doubleColon 8 [] _) (by decide) htail]
  congr 2
  rw [BitVec.toNat_eq, toIpv6Mapped_toNat, ofGroups, BitVec.toNat_ofNat]
  have hvalue : List.foldl (fun value group => value * 65536 + group) 0
      ([] ++ List.replicate 5 0 ++ [0xffff, m.toNat / 65536, m.toNat % 65536]) =
        (0xffff * 65536 + m.toNat / 65536) * 65536 + m.toNat % 65536 := rfl
  change List.foldl (fun value group => value * 65536 + group) 0
    ([] ++ List.replicate 5 0 ++ [0xffff, m.toNat / 65536, m.toNat % 65536]) % 2 ^ 128 = _
  rw [hvalue]
  omega

theorem readIpv6Addr_display (a : Ipv6Addr) (h : EndsGroup rest) (hcolon : rest.head? ≠ some 58) :
    readIpv6Addr (octetsOf (displayIpv6 a) ++ rest) = some (a, rest) := by
  unfold displayIpv6
  split
  next m hm =>
    rw [readIpv6Addr_mapped m (stops_ten h.stops), toIpv4Mapped_eq_some.mp hm]
  next =>
    have hrun : IsZeroRun (segments a) (longestZeros 0 ⟨0, 0⟩ ⟨0, 0⟩ (segments a)) :=
      @longestZeros_isZeroRun (segments a) (segments a) [] ⟨0, 0⟩ ⟨0, 0⟩ rfl
        ⟨[], segments a, rfl, rfl⟩ ⟨[], rfl, fun h => absurd rfl h⟩
    generalize longestZeros 0 ⟨0, 0⟩ ⟨0, 0⟩ (segments a) = run at hrun ⊢
    have hlt := segments_lt a
    have hlength := length_segments a
    obtain ⟨hsplit, hbound⟩ := drop_zeroRun hrun
    dsimp only
    split_ifs with hlong
    · have hcolons : ∀ text : List Char, octetsOf ("::".toList ++ text) =
        58 :: 58 :: octetsOf text :=
        fun _ => rfl
      have htake : ((segments a).take run.start).length = run.start := by
        rw [length_take]
        omega
      have hdrop : ((segments a).drop (run.start + run.len)).length =
        8 - (run.start + run.len) := by
        rw [length_drop, hlength]
      rw [append_assoc, octetsOf_append, hcolons, octetsOf_fmtSubslice, octetsOf_fmtSubslice,
        append_assoc, cons_append, cons_append,
        readIpv6Addr_compressed (fun g hg => hlt g (mem_of_mem_take hg))
          (fun g hg => hlt g (mem_of_mem_drop hg)) (by omega) h hcolon]
      have hzeros : 8 - run.start - (8 - (run.start + run.len)) = run.len := by omega
      rw [htake, hdrop, hzeros, ← hsplit, ofGroups_segments]
    · have hread := @readGroups_groupsText 0 [] (segments a) rest hlt h
      rw [hlength, nil_append] at hread
      have hgroups : readGroups 8 [] (groupsText [] (segments a) ++ rest) =
        (segments a, false, rest) :=
        hread
      simp only [octetsOf_fmtSubslice, readIpv6Addr, hgroups, hlength, if_true, ofGroups_segments]

end Ipv6

/-! ### Socket addresses -/

section Sockets

variable {rest : Bytes}

lemma length_le_octetsOf (text : List Char) : text.length ≤ (octetsOf text).length := by
  induction text with
  | nil => exact le_rfl
  | cons c text ih =>
    have hpos := length_pos_of_ne_nil (@String.utf8EncodeChar_ne_nil c)
    rw [octetsOf_cons, length_append, length_cons]
    omega

lemma readLongNumber_toDigits {n limit : ℕ} (hlimit : n < limit) (hrest : Stops 10 rest) :
    readLongNumber limit (octetsOf (Nat.toDigits 10 n) ++ rest) = some (n, rest) := by
  have hlength := length_le_octetsOf (Nat.toDigits 10 n)
  refine readNumber_toDigits (by decide) (by decide) ?_ hlimit hrest
  rw [length_append]
  omega

lemma readPort_toDigits (port : BitVec 16) (hrest : Stops 10 rest) :
    readPort (58 :: (octetsOf (Nat.toDigits 10 port.toNat) ++ rest)) = some (port, rest) := by
  have hcolon : ∀ rest, readGivenChar 58 (58 :: rest) = some ((), rest) := fun _ => rfl
  simp only [readPort, bind_eq_bind, hcolon, bind_some,
    readLongNumber_toDigits port.isLt hrest, BitVec.ofNat_toNat, BitVec.setWidth_eq]

lemma readScopeId_toDigits (scopeId : BitVec 32) (hrest : Stops 10 rest) :
    readScopeId (37 :: (octetsOf (Nat.toDigits 10 scopeId.toNat) ++ rest)) =
      some (scopeId, rest) := by
  have hpercent : ∀ rest, readGivenChar 37 (37 :: rest) = some ((), rest) := fun _ => rfl
  simp only [readScopeId, bind_eq_bind, hpercent, bind_some,
    readLongNumber_toDigits scopeId.isLt hrest, BitVec.ofNat_toNat, BitVec.setWidth_eq]

lemma stops_nil (radix : ℕ) : Stops radix [] := nofun

lemma endsGroup_cons {octet : UInt8} (hdigit : toDigit 16 octet = none) (hdot : octet ≠ 46) :
    EndsGroup (octet :: rest) := ⟨stops_cons hdigit, fun h => hdot (some.inj h)⟩

lemma readSocketAddrV6_closing (ip : Ipv6Addr) (port : BitVec 16) (scopeId : BitVec 32)
    {closing : Bytes} (hends : EndsGroup closing) (hcolon : closing.head? ≠ some 58)
    (hscope : (readScopeId closing).getD (0, closing) =
      (scopeId, 93 :: 58 :: octetsOf (Nat.toDigits 10 port.toNat))) :
    readSocketAddrV6 (91 :: (octetsOf (displayIpv6 ip) ++ closing)) =
      some (.v6 ip port 0 scopeId, []) := by
  have hopen : ∀ rest, readGivenChar 91 (91 :: rest) = some ((), rest) := fun _ => rfl
  have hclose : ∀ rest, readGivenChar 93 (93 :: rest) = some ((), rest) := fun _ => rfl
  have hport := @readPort_toDigits [] port (stops_nil 10)
  rw [append_nil] at hport
  simp only [readSocketAddrV6, bind_eq_bind, hopen, bind_some,
    readIpv6Addr_display ip hends hcolon, hscope, hclose, hport]

theorem parseSocketAddr_display (addr : SocketAddr) (hflow : addr.flowinfo = 0) :
    parseSocketAddr addr.display = some addr := by
  suffices readSocketAddr (octetsOf addr.display) = some (addr, []) by
    rw [parseSocketAddr, parseWith, this]
  cases addr with
  | v4 ip port =>
    have htext : octetsOf (SocketAddr.v4 ip port).display =
        octetsOf (displayIpv4 ip) ++ 58 :: octetsOf (Nat.toDigits 10 port.toNat) :=
      octetsOf_append _ _
    have hport := @readPort_toDigits [] port (stops_nil 10)
    rw [append_nil] at hport
    have hstop : Stops 10 (58 :: octetsOf (Nat.toDigits 10 port.toNat)) := stops_cons (by decide)
    have hread : readSocketAddrV4 (octetsOf (SocketAddr.v4 ip port).display) =
        some (.v4 ip port, []) := by
      simp only [readSocketAddrV4, bind_eq_bind, htext, readIpv4Addr_display ip hstop,
        bind_some, hport]
    rw [readSocketAddr, hread, some_or]
  | v6 ip port flowinfo scopeId =>
    obtain rfl : flowinfo = 0 := hflow
    have hnone : ∀ rest, readSocketAddrV4 (91 :: rest) = none := by
      intro rest
      rw [readSocketAddrV4, readIpv4Addr_of_stops (stops_cons (by decide))]
      rfl
    rw [SocketAddr.display]
    split_ifs with hscope
    · have htext : octetsOf ('[' :: (displayIpv6 ip ++ "]:".toList ++ Nat.toDigits 10 port.toNat)) =
          91 :: (octetsOf (displayIpv6 ip) ++
            93 :: 58 :: octetsOf (Nat.toDigits 10 port.toNat)) := by
        rw [append_assoc]
        exact congrArg _ (octetsOf_append _ _)
      rw [htext, readSocketAddr, hnone, none_or, hscope]
      exact readSocketAddrV6_closing ip port 0 (endsGroup_cons (by decide) (by decide))
        (fun h => absurd (some.inj h) (by decide)) rfl
    · have htext : octetsOf ('[' :: (displayIpv6 ip ++ '%' :: (Nat.toDigits 10 scopeId.toNat ++
          "]:".toList ++ Nat.toDigits 10 port.toNat))) =
          91 :: (octetsOf (displayIpv6 ip) ++ 37 :: (octetsOf (Nat.toDigits 10 scopeId.toNat) ++
            93 :: 58 :: octetsOf (Nat.toDigits 10 port.toNat))) := by
        rw [octetsOf_cons, octetsOf_append, octetsOf_cons, octetsOf_append, octetsOf_append,
          append_assoc (octetsOf (Nat.toDigits 10 scopeId.toNat))]
        rfl
      rw [htext, readSocketAddr, hnone, none_or]
      refine readSocketAddrV6_closing ip port scopeId (endsGroup_cons (by decide) (by decide))
        (fun h => absurd (some.inj h) (by decide)) ?_
      rw [readScopeId_toDigits scopeId (stops_cons (by decide)), getD_some]

theorem flowinfo_of_parseSocketAddr {text : List Char} {addr : SocketAddr}
    (h : parseSocketAddr text = some addr) : addr.flowinfo = 0 := by
  unfold parseSocketAddr parseWith at h
  split at h
  next hread =>
    cases h
    rw [readSocketAddr, or_eq_some_iff] at hread
    obtain hv4 | ⟨-, hv6⟩ := hread
    · simp only [readSocketAddrV4, bind_eq_bind, bind_eq_some_iff, Prod.exists] at hv4
      obtain ⟨_, _, -, _, _, -, h⟩ := hv4
      cases h
      rfl
    · simp only [readSocketAddrV6, bind_eq_bind, bind_eq_some_iff, Prod.exists] at hv6
      obtain ⟨_, _, -, _, _, -, _, _, -, _, _, -, h⟩ := hv6
      cases h
      rfl
  next => cases h

end Sockets

/-! ### Characters -/

def IsAddressChar (c : Char) : Prop := (∃ d < 16, c = d.digitChar) ∨ c = ':' ∨ c = '.'

variable {c : Char}

lemma isAddressChar_of_mem_toDigits {radix n : ℕ} (hradix : 1 < radix) (hsmall : radix ≤ 16)
    (h : c ∈ Nat.toDigits radix n) : IsAddressChar c := by
  obtain ⟨d, hd, rfl⟩ := exists_digit_of_mem_toDigits hradix h
  exact Or.inl ⟨d, hd.trans_le hsmall, rfl⟩

theorem isAddressChar_of_mem_displayIpv4 {a : Ipv4Addr} (h : c ∈ displayIpv4 a) :
    IsAddressChar c := by
  have hdigits : ∀ {n}, c ∈ Nat.toDigits 10 n → IsAddressChar c := fun h =>
    isAddressChar_of_mem_toDigits (by decide) (by decide) h
  simp only [displayIpv4, mem_append, mem_cons] at h
  obtain h | rfl | h | rfl | h | rfl | h := h
  · exact hdigits h
  · exact Or.inr (Or.inr rfl)
  · exact hdigits h
  · exact Or.inr (Or.inr rfl)
  · exact hdigits h
  · exact Or.inr (Or.inr rfl)
  · exact hdigits h

lemma isAddressChar_of_mem_fmtSubslice {l : List ℕ} (h : c ∈ fmtSubslice l) :
    IsAddressChar c := by
  have hdigits : ∀ {n}, c ∈ Nat.toDigits 16 n → IsAddressChar c := fun h =>
    isAddressChar_of_mem_toDigits (by decide) (by decide) h
  cases l with
  | nil => cases h
  | cons first tail =>
    simp only [fmtSubslice, mem_append, mem_flatMap, mem_cons] at h
    obtain h | ⟨segment, -, rfl | h⟩ := h
    · exact hdigits h
    · exact Or.inr (Or.inl rfl)
    · exact hdigits h

theorem isAddressChar_of_mem_displayIpv6 {a : Ipv6Addr} (h : c ∈ displayIpv6 a) :
    IsAddressChar c := by
  have hcolons : ∀ c ∈ "::".toList, IsAddressChar c := by
    intro c hc
    exact Or.inr (Or.inl (by simpa using hc))
  unfold displayIpv6 at h
  split at h
  · obtain h | h := mem_append.mp h
    · have hmapped : "::ffff:".toList = "::".toList ++ (Nat.toDigits 16 0xffff ++ [':']) := rfl
      rw [hmapped, mem_append, mem_append, mem_singleton] at h
      obtain h | h | rfl := h
      · exact hcolons c h
      · exact isAddressChar_of_mem_toDigits (by decide) (by decide) h
      · exact Or.inr (Or.inl rfl)
    · exact isAddressChar_of_mem_displayIpv4 h
  · dsimp only at h
    split_ifs at h
    · simp only [mem_append] at h
      obtain (h | h) | h := h
      · exact isAddressChar_of_mem_fmtSubslice h
      · exact hcolons c h
      · exact isAddressChar_of_mem_fmtSubslice h
    · exact isAddressChar_of_mem_fmtSubslice h

end MasqueServer
