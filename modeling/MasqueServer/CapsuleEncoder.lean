import MasqueServer.CapsuleDecoder

/-!
# The capsule encoder

The encoder writes numbers in their shortest form, so what was decoded and is encoded again never
grows. A frame that is well-formed by the rules of its type comes back from the decoder as it
was, and the decoder only hands out frames that are well-formed.
-/
namespace MasqueServer

open List Option

def encodeRaw (capsuleType : ℕ) (value buf : Bytes) : Option Bytes := do
  let buf ← (Varint.appendTo capsuleType buf).toOption
  let buf ← (Varint.appendTo value.length buf).toOption
  return buf ++ value

def encodeAssignedAddress (value : Bytes) (addr : AssignedAddress) : Option Bytes := do
  let value ← (Varint.appendTo addr.requestId value).toOption
  let value := match addr.ip with
    | .v4 v4 => value ++ [4] ++ toBeBytes 4 v4
    | .v6 v6 => value ++ [6] ++ toBeBytes 16 v6
  return value ++ [addr.prefixLen]

def encodeAssignedAddresses (addrs : List AssignedAddress) : Option Bytes :=
  addrs.foldlM encodeAssignedAddress []

def encodeAddressRange (value : Bytes) (range : IpAddressRange) : Option Bytes := do
  let value ← match range.startAddr, range.endAddr with
    | .v4 startAddr, .v4 endAddr =>
      some (value ++ [4] ++ toBeBytes 4 startAddr ++ toBeBytes 4 endAddr)
    | .v6 startAddr, .v6 endAddr =>
      some (value ++ [6] ++ toBeBytes 16 startAddr ++ toBeBytes 16 endAddr)
    | _, _ => none
  return value ++ [range.ipProtocol]

def encodeAddressRanges (ranges : List IpAddressRange) : Option Bytes :=
  ranges.foldlM encodeAddressRange []

def encode (frame : CapsuleFrame) (buf : Bytes) : Option Bytes :=
  match frame with
  | .datagram payload => encodeRaw capsuleDatagram payload buf
  | .addressAssign addrs => do
    let value ← encodeAssignedAddresses addrs
    encodeRaw capsuleAddressAssign value buf
  | .addressRequest addrs => do
    let value ← encodeAssignedAddresses addrs
    encodeRaw capsuleAddressRequest value buf
  | .routeAdvertisement ranges => do
    let value ← encodeAddressRanges ranges
    encodeRaw capsuleRouteAdvertisement value buf
  | .unknown capsuleType value => encodeRaw capsuleType value buf

/-! ### Numbers and addresses -/

namespace Varint

variable {value len : ℕ} {buf : Bytes}

def shortest (value : ℕ) : Bytes := octets value ((encodedLen value).toOption.getD 8)

lemma shortest_eq (h : encodedLen value = .ok len) : shortest value = octets value len := by
  rw [shortest, h]
  rfl

lemma appendTo_shortest (h : value ≤ maxValue) (vec : Bytes) :
    (appendTo value vec).toOption = some (vec ++ shortest value) := by
  obtain ⟨len, hlen⟩ := encodedLen_ok h
  rw [appendTo_eq hlen, shortest_eq hlen]
  rfl

lemma decode_shortest (h : value ≤ maxValue) (rest : Bytes) :
    decode (shortest value ++ rest) = .ok (value, (shortest value).length) := by
  obtain ⟨len, hlen⟩ := encodedLen_ok h
  rw [shortest_eq hlen, decode_octets hlen, length_octets hlen]

lemma length_shortest_le (h : decode buf = .ok (value, len)) : (shortest value).length ≤ len := by
  obtain ⟨len', hlen'⟩ := encodedLen_ok (decode_le_maxValue h)
  rw [shortest_eq hlen', length_octets hlen']
  unfold encodedLen at hlen'
  obtain ⟨hlt, rfl | rfl | rfl | rfl⟩ := decode_lt h <;>
    (split_ifs at hlen' <;> cases hlen' <;> omega)

end Varint

def addressOctets : IpAddr → Bytes
  | .v4 ip => 4 :: toBeBytes 4 ip
  | .v6 ip => 6 :: toBeBytes 16 ip

lemma readAddress_octets (ip : IpAddr) (rest : Bytes) :
    ∃ version octets, addressOctets ip = version :: octets ∧
      readAddress version (octets ++ rest) = .ok (ip, rest) := by
  cases ip with
  | v4 ip =>
    refine ⟨4, toBeBytes 4 ip, rfl, ?_⟩
    have hlen := length_toBeBytes 4 ip
    rw [readAddress, if_pos rfl, if_neg (by rw [length_append]; omega), take_left' hlen,
      drop_left' hlen]
    exact congrArg (fun word => Except.ok (IpAddr.v4 word, rest))
      (fromBeBytes_toBeBytes (by decide : 1 ≤ 4) ip)
  | v6 ip =>
    refine ⟨6, toBeBytes 16 ip, rfl, ?_⟩
    have hlen := length_toBeBytes 16 ip
    rw [readAddress, if_neg (by decide), if_pos rfl, if_neg (by rw [length_append]; omega),
      take_left' hlen, drop_left' hlen]
    exact congrArg (fun word => Except.ok (IpAddr.v6 word, rest))
      (fromBeBytes_toBeBytes (by decide : 1 ≤ 16) ip)

lemma length_of_readAddress {version : UInt8} {buf rest : Bytes} {ip : IpAddr}
    (h : readAddress version buf = .ok (ip, rest)) :
    (addressOctets ip).length + rest.length = buf.length + 1 := by
  unfold readAddress at h
  split_ifs at h with hv4 hshort hv6 hshort
  · cases h
    simp only [addressOctets, length_cons, length_toBeBytes, length_drop]
    omega
  · cases h
    simp only [addressOctets, length_cons, length_toBeBytes, length_drop]
    omega

/-! ### Lists of addresses -/

namespace AssignedAddress

def octets (addr : AssignedAddress) : Bytes :=
  Varint.shortest addr.requestId ++ addressOctets addr.ip ++ [addr.prefixLen]

/-- The identifier fits a varint and the address has no host bits. -/
structure WellFormed (addr : AssignedAddress) : Prop where
  requestId_le : addr.requestId ≤ Varint.maxValue
  prefix_fits : prefixFits addr.prefixLen addr.ip = true

variable {addr : AssignedAddress} {buf rest : Bytes}

lemma WellFormed.parse (h : addr.WellFormed) (rest : Bytes) :
    parseAssignedAddress (addr.octets ++ rest) = .ok (addr, rest) := by
  obtain ⟨version, octets, haddress, hread⟩ := readAddress_octets addr.ip (addr.prefixLen :: rest)
  unfold parseAssignedAddress AssignedAddress.octets
  rw [append_assoc, append_assoc, Varint.decode_shortest h.requestId_le]
  simp only [drop_left]
  rw [haddress]
  simp only [cons_append, nil_append]
  rw [hread]
  simp [bind, Except.bind, h.prefix_fits]

lemma wellFormed_of_parse (h : parseAssignedAddress buf = .ok (addr, rest)) :
    addr.WellFormed ∧ addr.octets.length + rest.length ≤ buf.length ∧ rest.length < buf.length := by
  unfold parseAssignedAddress at h
  split at h
  · cases h
  · rename_i requestId rlen hid
    split at h
    · cases h
    · rename_i version buf' hbuf
      rw [bind_ok_iff] at h
      obtain ⟨⟨ip, buf''⟩, hread, h⟩ := h
      dsimp only at h
      split at h
      · cases h
      · rename_i prefixLen tail
        split_ifs at h with hfits
        cases h
        have hshortest := Varint.length_shortest_le hid
        have hbounds := Varint.decode_bounds hid
        have haddress := length_of_readAddress hread
        have hdrop := congrArg List.length hbuf
        simp only [length_drop, length_cons] at haddress hdrop
        refine ⟨⟨Varint.decode_le_maxValue hid, hfits⟩, ?_, by omega⟩
        simp only [AssignedAddress.octets, length_append, length_singleton]
        omega

end AssignedAddress

section Addresses

variable {addrs : List AssignedAddress} {buf : Bytes}

lemma encodeAssignedAddresses_eq (h : ∀ addr ∈ addrs, addr.WellFormed) :
    encodeAssignedAddresses addrs = some (addrs.flatMap AssignedAddress.octets) := by
  refine foldlM_append_eq (fun addr haddr value => ?_) []
  rw [encodeAssignedAddress, Varint.appendTo_shortest (h addr haddr).requestId_le]
  unfold AssignedAddress.octets
  cases addr.ip <;> simp [addressOctets]

lemma parseAssignedAddresses_octets (h : ∀ addr ∈ addrs, addr.WellFormed) :
    parseAssignedAddresses (addrs.flatMap AssignedAddress.octets) = .ok addrs := by
  have hloop : ∀ fuel, (addrs.flatMap AssignedAddress.octets).length ≤ fuel →
      assignedLoop fuel (addrs.flatMap AssignedAddress.octets) = .ok addrs := by
    induction addrs with
    | nil =>
      intro fuel _
      cases fuel <;> rfl
    | cons addr addrs ih =>
      intro fuel hfuel
      have haddr := h addr mem_cons_self
      have hparse := haddr.parse (addrs.flatMap AssignedAddress.octets)
      have hlen := (AssignedAddress.wellFormed_of_parse hparse).2.2
      rw [flatMap_cons] at hfuel ⊢
      obtain ⟨n, rfl⟩ : ∃ n, fuel = n + 1 := ⟨fuel - 1, by omega⟩
      have hne : addr.octets ++ addrs.flatMap AssignedAddress.octets ≠ [] := by
        rw [← length_pos_iff]
        omega
      rw [assignedLoop.eq_3 _ _ (by simpa using hne), hparse]
      simp only [bind, Except.bind]
      rw [ih (fun a ha => h a (mem_cons_of_mem addr ha)) n (by omega)]
      rfl
  exact hloop _ le_rfl

lemma wellFormed_of_parseAssigned (h : parseAssignedAddresses buf = .ok addrs) :
    (∀ addr ∈ addrs, addr.WellFormed) ∧
      (addrs.flatMap AssignedAddress.octets).length ≤ buf.length := by
  have hloop : ∀ fuel buf addrs, buf.length ≤ fuel → assignedLoop fuel buf = .ok addrs →
      (∀ addr ∈ addrs, addr.WellFormed) ∧
        (addrs.flatMap AssignedAddress.octets).length ≤ buf.length := by
    intro fuel
    induction fuel with
    | zero =>
      intro buf addrs hfuel h
      cases buf with
      | nil =>
        cases h
        simp
      | cons byte buf => simp at hfuel
    | succ fuel ih =>
      intro buf addrs hfuel h
      cases buf with
      | nil =>
        cases h
        simp
      | cons byte buf =>
        rw [assignedLoop, bind_ok_iff] at h
        · obtain ⟨⟨addr, rest⟩, hparse, h⟩ := h
          rw [bind_ok_iff] at h
          obtain ⟨more, hmore, h⟩ := h
          cases h
          obtain ⟨haddr, hlen, hlt⟩ := AssignedAddress.wellFormed_of_parse hparse
          obtain ⟨hall, hrest⟩ := ih rest more (by omega) hmore
          refine ⟨?_, ?_⟩
          · simpa using ⟨haddr, hall⟩
          · rw [flatMap_cons, length_append]
            omega
        · simp
  exact hloop buf.length buf addrs le_rfl h

end Addresses

/-! ### Lists of ranges -/

lemma slices_toBeBytes {n : ℕ} (hn : 1 ≤ n) (a b : BitVec (8 * n)) (rest : Bytes) :
    fromBeBytes (8 * n) (slice (toBeBytes n a ++ toBeBytes n b ++ rest) 0 n) = a ∧
      fromBeBytes (8 * n) (slice (toBeBytes n a ++ toBeBytes n b ++ rest) n n) = b ∧
      (toBeBytes n a ++ toBeBytes n b ++ rest).drop (n + n) = rest := by
  have ha := length_toBeBytes n a
  have hb := length_toBeBytes n b
  have hboth : (toBeBytes n a ++ toBeBytes n b).length = n + n := by rw [length_append, ha, hb]
  refine ⟨?_, ?_, drop_left' hboth⟩
  · rw [slice, drop_zero, append_assoc, take_left' ha, fromBeBytes_toBeBytes hn]
  · rw [slice, append_assoc, drop_left' ha, take_left' hb, fromBeBytes_toBeBytes hn]

lemma readRange_v4 (a b : Ipv4Addr) (ipProtocol : UInt8) (rest : Bytes) :
    readRange 4 (toBeBytes 4 a ++ toBeBytes 4 b ++ [ipProtocol] ++ rest) =
      .ok (.v4 a, .v4 b, ipProtocol :: rest) := by
  obtain ⟨hfirst, hsecond, hrest⟩ := slices_toBeBytes (by decide : 1 ≤ 4) a b (ipProtocol :: rest)
  rw [append_assoc, singleton_append, readRange, if_pos rfl, if_neg (by simp; omega),
    hfirst, hsecond, hrest]

lemma readRange_v6 (a b : Ipv6Addr) (ipProtocol : UInt8) (rest : Bytes) :
    readRange 6 (toBeBytes 16 a ++ toBeBytes 16 b ++ [ipProtocol] ++ rest) =
      .ok (.v6 a, .v6 b, ipProtocol :: rest) := by
  obtain ⟨hfirst, hsecond, hrest⟩ := slices_toBeBytes (by decide : 1 ≤ 16) a b (ipProtocol :: rest)
  rw [append_assoc, singleton_append, readRange, if_neg (by decide), if_pos rfl,
    if_neg (by simp; omega), hfirst, hsecond, hrest]

lemma toBeBytes_slices {buf : Bytes} {n : ℕ} (hn : 1 ≤ n) (h : n + n ≤ buf.length) :
    toBeBytes n (fromBeBytes (8 * n) (slice buf 0 n)) ++
      toBeBytes n (fromBeBytes (8 * n) (slice buf n n)) ++ buf.drop (n + n) = buf := by
  have hfirst : (slice buf 0 n).length = n := by
    rw [slice, length_take, length_drop]
    omega
  have hsecond : (slice buf n n).length = n := by
    rw [slice, length_take, length_drop]
    omega
  rw [toBeBytes_fromBeBytes hn hfirst, toBeBytes_fromBeBytes hn hsecond, slice, slice, drop_zero,
    append_assoc, ← drop_drop, take_append_drop, take_append_drop]

lemma readRange_eq_ok {ver : UInt8} {buf rest : Bytes} {startAddr endAddr : IpAddr}
    (h : readRange ver buf = .ok (startAddr, endAddr, rest)) :
    (∃ a b, startAddr = .v4 a ∧ endAddr = .v4 b ∧ ver = 4 ∧
      toBeBytes 4 a ++ toBeBytes 4 b ++ rest = buf) ∨
    ∃ a b, startAddr = .v6 a ∧ endAddr = .v6 b ∧ ver = 6 ∧
      toBeBytes 16 a ++ toBeBytes 16 b ++ rest = buf := by
  unfold readRange at h
  split_ifs at h with hv4 hshort hv6 hshort
  · cases h
    exact .inl ⟨_, _, rfl, rfl, hv4, toBeBytes_slices (by decide) (not_lt.mp hshort)⟩
  · cases h
    exact .inr ⟨_, _, rfl, rfl, hv6, toBeBytes_slices (by decide) (not_lt.mp hshort)⟩

namespace IpAddressRange

def version (range : IpAddressRange) : UInt8 :=
  match range.startAddr with
  | .v4 _ => 4
  | .v6 _ => 6

/-- Both ends are of one family and in order. -/
structure WellFormed (range : IpAddressRange) : Prop where
  family : match range.startAddr, range.endAddr with
    | .v4 _, .v4 _ => True
    | .v6 _, .v6 _ => True
    | _, _ => False
  ordered : addressValue range.startAddr ≤ addressValue range.endAddr

def Precedes (range next : IpAddressRange) : Prop :=
  range.version < next.version ∨ range.version = next.version ∧
    (range.ipProtocol < next.ipProtocol ∨ range.ipProtocol = next.ipProtocol ∧
      addressValue range.endAddr < addressValue next.startAddr)

def octets (range : IpAddressRange) : Bytes :=
  match range.startAddr, range.endAddr with
  | .v4 startAddr, .v4 endAddr =>
    4 :: (toBeBytes 4 startAddr ++ toBeBytes 4 endAddr ++ [range.ipProtocol])
  | .v6 startAddr, .v6 endAddr =>
    6 :: (toBeBytes 16 startAddr ++ toBeBytes 16 endAddr ++ [range.ipProtocol])
  | _, _ => []

def previous (range : Option IpAddressRange) : PreviousRange :=
  range.map fun range => (range.version, range.ipProtocol, addressValue range.endAddr)

def Follows (range : IpAddressRange) (before : Option IpAddressRange) : Prop :=
  ∀ other ∈ before, other.Precedes range

lemma outOfOrder_eq_false {before : Option IpAddressRange} {range : IpAddressRange} :
    outOfOrder (previous before) range.version range.ipProtocol (addressValue range.startAddr) =
      false ↔ range.Follows before := by
  cases before with
  | none => simp [previous, outOfOrder, Follows]
  | some other =>
    simp only [previous, outOfOrder, Follows, Precedes, map_some, mem_def,
      some.injEq, forall_eq', Bool.or_eq_false_iff, Bool.and_eq_false_iff, decide_eq_false_iff_not,
      UInt8.lt_iff_toNat_lt, ← UInt8.toNat_inj]
    omega

variable {range : IpAddressRange} {before : Option IpAddressRange}

lemma parseAddressRange_of_read {ver : UInt8} {buf rest : Bytes}
    (hversion : range.version = ver) (h : range.WellFormed) (hfollows : range.Follows before)
    (hread : readRange ver buf =
      .ok (range.startAddr, range.endAddr, range.ipProtocol :: rest)) :
    parseAddressRange (previous before) ver buf =
      .ok (range, addressValue range.endAddr, rest) := by
  have horder := outOfOrder_eq_false.mpr hfollows
  unfold parseAddressRange
  rw [hread]
  simp only [bind, Except.bind]
  rw [← hversion, horder, if_neg]
  simp [h.ordered]

lemma WellFormed.parse (h : range.WellFormed) (hfollows : range.Follows before)
    (rest : Bytes) :
    ∃ tail, range.octets = range.version :: tail ∧
      parseAddressRange (previous before) range.version (tail ++ rest) =
        .ok (range, addressValue range.endAddr, rest) := by
  obtain ⟨startAddr, endAddr, ipProtocol⟩ := range
  have hfamily := h.family
  cases startAddr with
  | v4 a =>
    cases endAddr with
    | v6 b => exact hfamily.elim
    | v4 b => exact
      ⟨_, rfl, parseAddressRange_of_read rfl h hfollows (readRange_v4 a b ipProtocol rest)⟩
  | v6 a =>
    cases endAddr with
    | v4 b => exact hfamily.elim
    | v6 b => exact
      ⟨_, rfl, parseAddressRange_of_read rfl h hfollows (readRange_v6 a b ipProtocol rest)⟩

lemma wellFormed_of_parse {ver : UInt8} {endValue : ℕ} {buf rest : Bytes}
    (h : parseAddressRange (previous before) ver buf = .ok (range, endValue, rest)) :
    range.WellFormed ∧ range.Follows before ∧ endValue = addressValue range.endAddr ∧
      ver = range.version ∧ range.octets ++ rest = ver :: buf := by
  unfold parseAddressRange at h
  rw [bind_ok_iff] at h
  obtain ⟨⟨startAddr, endAddr, buf'⟩, hread, h⟩ := h
  dsimp only at h
  split at h
  · cases h
  · rename_i ipProtocol tail
    split_ifs at h with hbad
    cases h
    rw [Bool.or_eq_true, not_or, decide_eq_true_iff, Nat.not_lt, Bool.not_eq_true] at hbad
    obtain ⟨a, b, rfl, rfl, rfl, rfl⟩ | ⟨a, b, rfl, rfl, rfl, rfl⟩ := readRange_eq_ok hread
    · exact ⟨⟨trivial, hbad.1⟩, outOfOrder_eq_false.mp hbad.2, rfl, rfl, by simp [octets]⟩
    · exact ⟨⟨trivial, hbad.1⟩, outOfOrder_eq_false.mp hbad.2, rfl, rfl, by simp [octets]⟩

end IpAddressRange

section Ranges

variable {ranges : List IpAddressRange} {buf : Bytes}

lemma encodeAddressRanges_eq (h : ∀ range ∈ ranges, range.WellFormed) :
    encodeAddressRanges ranges = some (ranges.flatMap IpAddressRange.octets) := by
  refine foldlM_append_eq (fun range hrange value => ?_) []
  have hfamily := (h range hrange).family
  unfold encodeAddressRange IpAddressRange.octets
  cases hstart : range.startAddr <;> cases hend : range.endAddr <;> simp_all

def RangesOrdered : Option IpAddressRange → List IpAddressRange → Prop
  | _, [] => True
  | before, range :: ranges =>
    range.WellFormed ∧ range.Follows before ∧ RangesOrdered (some range) ranges

lemma rangesOrdered_iff {before : Option IpAddressRange} :
    RangesOrdered before ranges ↔ (∀ range ∈ ranges, range.WellFormed) ∧
      List.IsChain IpAddressRange.Precedes (before.toList ++ ranges) := by
  induction ranges generalizing before with
  | nil => cases before <;> simp [RangesOrdered]
  | cons range ranges ih =>
    rw [RangesOrdered, ih]
    cases before with
    | none => simp [IpAddressRange.Follows, and_assoc]
    | some other =>
      simp only [IpAddressRange.Follows, toList_some, singleton_append,
        isChain_cons_cons, forall_mem_cons, mem_def, some.injEq, forall_eq']
      tauto

lemma parseAddressRanges_octets (h : RangesOrdered none ranges) :
    parseAddressRanges (ranges.flatMap IpAddressRange.octets) = .ok ranges := by
  have hloop : ∀ fuel before, RangesOrdered before ranges →
      (ranges.flatMap IpAddressRange.octets).length ≤ fuel →
      rangesLoop fuel (IpAddressRange.previous before) (ranges.flatMap IpAddressRange.octets) =
        .ok ranges := by
    clear h
    induction ranges with
    | nil =>
      intro fuel before _ _
      cases fuel <;> rfl
    | cons range ranges ih =>
      intro fuel before h hfuel
      obtain ⟨hrange, hfollows, hrest⟩ := h
      obtain ⟨tail, htail, hparse⟩ := hrange.parse hfollows (ranges.flatMap IpAddressRange.octets)
      rw [flatMap_cons, htail, cons_append] at hfuel ⊢
      rw [length_cons, length_append] at hfuel
      obtain ⟨n, rfl⟩ : ∃ n, fuel = n + 1 := ⟨fuel - 1, by omega⟩
      rw [rangesLoop, hparse]
      simp only [bind, Except.bind]
      have hmore := ih n (some range) hrest (by omega)
      rw [IpAddressRange.previous, map_some] at hmore
      rw [hmore]
      rfl
  exact hloop _ none h le_rfl

lemma rangesOrdered_of_parse (h : parseAddressRanges buf = .ok ranges) :
    RangesOrdered none ranges ∧ ranges.flatMap IpAddressRange.octets = buf := by
  have hloop : ∀ fuel before buf ranges, buf.length ≤ fuel →
      rangesLoop fuel (IpAddressRange.previous before) buf = .ok ranges →
      RangesOrdered before ranges ∧ ranges.flatMap IpAddressRange.octets = buf := by
    intro fuel
    induction fuel with
    | zero =>
      intro before buf ranges hfuel h
      cases buf with
      | nil =>
        cases h
        exact ⟨trivial, rfl⟩
      | cons byte buf => simp at hfuel
    | succ fuel ih =>
      intro before buf ranges hfuel h
      cases buf with
      | nil =>
        cases h
        exact ⟨trivial, rfl⟩
      | cons ver buf =>
        rw [rangesLoop, bind_ok_iff] at h
        obtain ⟨⟨range, endValue, rest⟩, hparse, h⟩ := h
        rw [bind_ok_iff] at h
        obtain ⟨more, hmore, h⟩ := h
        cases h
        obtain ⟨hrange, hfollows, rfl, rfl, hoctets⟩ := IpAddressRange.wellFormed_of_parse hparse
        have hpos : 0 < range.octets.length := by
          obtain ⟨tail, htail, -⟩ := hrange.parse hfollows []
          rw [htail]
          simp
        have hlen := congrArg List.length hoctets
        rw [length_append, length_cons] at hlen
        rw [length_cons] at hfuel
        obtain ⟨hordered, hrest⟩ := ih (some range) rest more (by omega) hmore
        exact ⟨⟨hrange, hfollows, hordered⟩, by rw [flatMap_cons, hrest, hoctets]⟩
  exact hloop buf.length none buf ranges le_rfl h

end Ranges

/-! ### Frames -/

namespace CapsuleFrame

def capsuleType : CapsuleFrame → ℕ
  | .datagram _ => capsuleDatagram
  | .addressAssign _ => capsuleAddressAssign
  | .addressRequest _ => capsuleAddressRequest
  | .routeAdvertisement _ => capsuleRouteAdvertisement
  | .unknown capsuleType _ => capsuleType

def valueOctets : CapsuleFrame → Bytes
  | .datagram payload => payload
  | .addressAssign addrs => addrs.flatMap AssignedAddress.octets
  | .addressRequest addrs => addrs.flatMap AssignedAddress.octets
  | .routeAdvertisement ranges => ranges.flatMap IpAddressRange.octets
  | .unknown _ value => value

def Valid : CapsuleFrame → Prop
  | .datagram _ => True
  | .addressAssign addrs => ∀ addr ∈ addrs, addr.WellFormed
  | .addressRequest addrs => addrs ≠ [] ∧ ∀ addr ∈ addrs, addr.WellFormed ∧ addr.requestId ≠ 0
  | .routeAdvertisement ranges =>
    (∀ range ∈ ranges, range.WellFormed) ∧ ranges.IsChain IpAddressRange.Precedes
  | .unknown capsuleType _ => capsuleType ≤ Varint.maxValue ∧ capsuleType ≠ capsuleDatagram ∧
      capsuleType ≠ capsuleAddressAssign ∧ capsuleType ≠ capsuleAddressRequest ∧
      capsuleType ≠ capsuleRouteAdvertisement

/-- The rules hold, and the value is no longer than a capsule can say. -/
structure WellFormed (frame : CapsuleFrame) : Prop where
  valid : frame.Valid
  length_le : frame.valueOctets.length ≤ Varint.maxValue

def octets (frame : CapsuleFrame) : Bytes :=
  Varint.shortest frame.capsuleType ++ Varint.shortest frame.valueOctets.length ++ frame.valueOctets

variable {frame : CapsuleFrame} {value : Bytes} {kind : ℕ}

lemma capsuleType_le (h : frame.Valid) : frame.capsuleType ≤ Varint.maxValue := by
  cases frame with
  | unknown capsuleType value => exact h.1
  | _ => simp only [capsuleType, Varint.maxValue]; decide

lemma encodeRaw_eq (hkind : kind ≤ Varint.maxValue) (hlength : value.length ≤ Varint.maxValue)
    (buf : Bytes) :
    encodeRaw kind value buf =
      some (buf ++ (Varint.shortest kind ++ Varint.shortest value.length ++ value)) := by
  unfold encodeRaw
  rw [Varint.appendTo_shortest hkind]
  simp only [bind_eq_bind, bind_some]
  rw [Varint.appendTo_shortest hlength]
  simp

lemma WellFormed.encode (h : frame.WellFormed) (buf : Bytes) :
    MasqueServer.encode frame buf = some (buf ++ frame.octets) := by
  have hraw := encodeRaw_eq (capsuleType_le h.valid) h.length_le buf
  cases frame with
  | datagram payload => exact hraw
  | unknown capsuleType value => exact hraw
  | addressAssign addrs =>
    rw [MasqueServer.encode, encodeAssignedAddresses_eq h.valid]
    exact hraw
  | addressRequest addrs =>
    rw [MasqueServer.encode, encodeAssignedAddresses_eq fun addr haddr => (h.valid.2 addr haddr).1]
    exact hraw
  | routeAdvertisement ranges =>
    rw [MasqueServer.encode, encodeAddressRanges_eq h.valid.1]
    exact hraw

lemma Valid.parse (h : frame.Valid) :
    parseCapsuleValue frame.capsuleType frame.valueOctets = .ok frame := by
  cases frame with
  | datagram payload => rfl
  | addressAssign addrs =>
    have hparse := parseAssignedAddresses_octets h
    simp [parseCapsuleValue, capsuleType, valueOctets, capsuleAddressAssign,
      capsuleDatagram, hparse,
      Except.map]
  | addressRequest addrs =>
    have hparse := parseAssignedAddresses_octets fun addr haddr => (h.2 addr haddr).1
    have hempty : addrs.isEmpty = false := by simpa using h.1
    have hzero : (addrs.any fun addr => decide (addr.requestId = 0)) = false := by
      simpa using fun addr haddr => (h.2 addr haddr).2
    have hrequested : parseRequestedAddresses (addrs.flatMap AssignedAddress.octets) =
      .ok addrs := by
      rw [parseRequestedAddresses, hparse]
      simp only [bind, Except.bind, hempty, hzero]
      rfl
    simp [parseCapsuleValue, capsuleType, valueOctets, capsuleAddressAssign, capsuleAddressRequest,
      capsuleDatagram, hrequested, Except.map]
  | routeAdvertisement ranges =>
    have hparse := parseAddressRanges_octets (rangesOrdered_iff.mpr h)
    simp [parseCapsuleValue, capsuleType, valueOctets, capsuleAddressAssign, capsuleAddressRequest,
      capsuleRouteAdvertisement, capsuleDatagram, hparse, Except.map]
  | unknown capsuleType value =>
    obtain ⟨-, hdatagram, hassign, hrequest, hroute⟩ := h
    simp [parseCapsuleValue, CapsuleFrame.capsuleType, valueOctets, hdatagram, hassign,
      hrequest, hroute]

lemma valid_of_parse (h : parseCapsuleValue kind value = .ok frame)
    (hkind : kind ≤ Varint.maxValue) :
    frame.Valid ∧ frame.capsuleType = kind ∧ frame.valueOctets.length ≤ value.length := by
  unfold parseCapsuleValue at h
  split_ifs at h with hdatagram hassign hrequest hroute
  · cases h
    exact ⟨trivial, hdatagram.symm, le_rfl⟩
  · obtain ⟨addrs, hparse, rfl⟩ := map_ok_iff.mp h
    obtain ⟨hall, hlen⟩ := wellFormed_of_parseAssigned hparse
    exact ⟨hall, hassign.symm, hlen⟩
  · obtain ⟨addrs, hparse, rfl⟩ := map_ok_iff.mp h
    rw [parseRequestedAddresses, bind_ok_iff] at hparse
    obtain ⟨addrs', hparse, hchecks⟩ := hparse
    split_ifs at hchecks with hempty hzero
    cases hchecks
    obtain ⟨hall, hlen⟩ := wellFormed_of_parseAssigned hparse
    refine ⟨⟨by simpa using hempty, fun addr haddr => ⟨hall addr haddr, ?_⟩⟩, hrequest.symm, hlen⟩
    simp only [List.any_eq_true, decide_eq_true_eq, not_exists, not_and] at hzero
    exact hzero addr haddr
  · obtain ⟨ranges, hparse, rfl⟩ := map_ok_iff.mp h
    obtain ⟨hordered, hvalue⟩ := rangesOrdered_of_parse hparse
    exact ⟨rangesOrdered_iff.mp hordered, hroute.symm, (congrArg List.length hvalue).le⟩
  · cases h
    exact ⟨⟨hkind, hdatagram, hassign, hrequest, hroute⟩, rfl, le_rfl⟩

lemma WellFormed.split (h : frame.WellFormed) (rest : Bytes) :
    splitHeader (frame.octets ++ rest) =
      some ((frame.capsuleType, frame.valueOctets.length), frame.valueOctets ++ rest) := by
  have hkind := Varint.decode_shortest (capsuleType_le h.valid) []
  have hlength := Varint.decode_shortest h.length_le []
  rw [append_nil] at hkind hlength
  exact splitHeader_eq_some.mpr ⟨_, _, by rw [octets, append_assoc], hkind, hlength⟩

lemma scans_octets {maxCapsuleSize : ℕ} {frames : List CapsuleFrame}
    (h : ∀ frame ∈ frames, frame.WellFormed ∧ frame.valueOctets.length ≤ maxCapsuleSize) :
    capsuleFraming.Scans (bufferedHandler maxCapsuleSize) (frames.flatMap octets) frames
      (.ok []) := by
  induction frames with
  | nil => exact .short capsuleFraming.split_nil
  | cons frame frames ih =>
    obtain ⟨hframe, hsize⟩ := h frame mem_cons_self
    have hrest := ih fun f hf => h f (mem_cons_of_mem frame hf)
    rw [flatMap_cons, ← singleton_append]
    refine .frame (hframe.split _) (if_neg (Nat.not_lt.mpr hsize)) ?_ ?_ ?_
    · rw [length_append]
      exact Nat.le_add_right _ _
    · have htake : (frame.valueOctets ++ frames.flatMap octets).take frame.valueOctets.length =
          frame.valueOctets := take_left
      simp only [bufferedHandler, capsuleFraming, htake, hframe.valid.parse]
      rfl
    · have hdrop : (frame.valueOctets ++ frames.flatMap octets).drop frame.valueOctets.length =
          frames.flatMap octets := drop_left
      simpa only [capsuleFraming, hdrop] using hrest

end CapsuleFrame

namespace CapsuleDecoder

lemma wellFormed_of_scans {maxCapsuleSize : ℕ} {octets : Bytes} {frames : List CapsuleFrame}
    {out : Except DecodeError Bytes}
    (hs : capsuleFraming.Scans (bufferedHandler maxCapsuleSize) octets frames out) :
    ∀ frame ∈ frames, frame.WellFormed ∧ frame.valueOctets.length ≤ maxCapsuleSize := by
  induction hs with
  | @frame xs header body found more out hsplit hcheck hbody hreceive hrest ih =>
    obtain ⟨kind, length⟩ := header
    obtain ⟨t, l, rfl, ht, hl⟩ := splitHeader_eq_some.mp hsplit
    simp only [bufferedHandler] at hcheck hreceive
    split_ifs at hcheck with hlarge
    cases hvalue : parseCapsuleValue kind (body.take (capsuleFraming.size (kind, length))) with
    | error e =>
      rw [hvalue] at hreceive
      cases hreceive
    | ok frame =>
      rw [hvalue] at hreceive
      cases hreceive
      obtain ⟨hvalid, -, hlen⟩ := CapsuleFrame.valid_of_parse hvalue (Varint.decode_le_maxValue ht)
      have hmax := Varint.decode_le_maxValue hl
      have htake : (body.take (capsuleFraming.size (kind, length))).length ≤ length :=
        length_take_le _ _
      intro f hf
      obtain hf | hf := mem_append.mp hf
      · obtain rfl := mem_singleton.mp hf
        exact ⟨⟨hvalid, by omega⟩, by omega⟩
      · exact ih f hf
  | _ => simp

lemma wellFormed_of_delivered {k : CapsuleDecoder} {chunks : List Bytes} :
    ∀ frame ∈ delivered decode k chunks,
      frame.WellFormed ∧ frame.valueOctets.length ≤ k.maxCapsuleSize := by
  induction chunks generalizing k with
  | nil => simp [delivered]
  | cons chunk chunks ih =>
    obtain ⟨frames, out, hs⟩ := capsuleFraming.exists_scans (bufferedHandler k.maxCapsuleSize)
      (k.pending ++ chunk)
    have hfinds := decode_finds hs
    unfold delivered
    cases out with
    | error e =>
      unfold Finds at hfinds
      rw [hfinds]
      simp
    | ok rest =>
      obtain ⟨k', hk', -, hmax⟩ := hfinds
      rw [hk']
      intro frame hframe
      obtain hframe | hframe := mem_append.mp hframe
      · exact wellFormed_of_scans hs frame hframe
      · rw [← hmax]
        exact ih frame hframe

lemma decode_octets {maxCapsuleSize : ℕ} {frames : List CapsuleFrame}
    (h : ∀ frame ∈ frames, frame.WellFormed ∧ frame.valueOctets.length ≤ maxCapsuleSize) :
    ∃ octets k, frames.foldlM (fun buf frame => encode frame buf) [] = some octets ∧
      (withMaxCapsuleSize maxCapsuleSize).decode octets = .ok (k, frames) ∧ k.buffered = 0 := by
  obtain ⟨k, hk, hpending, -⟩ := decode_finds (k := withMaxCapsuleSize maxCapsuleSize)
    (CapsuleFrame.scans_octets h)
  refine ⟨frames.flatMap CapsuleFrame.octets, k, ?_, hk, ?_⟩
  · exact foldlM_append_eq (fun frame hframe buf => (h frame hframe).1.encode buf) []
  · rw [← length_pending, hpending]
    rfl

/-- Frames that are well-formed and within the limit are decoded from their encodings, to the
last octet; and a frame that was decoded from any chunks of any input is encoded and decoded to
itself. -/
theorem capsules_roundTrip (maxCapsuleSize : ℕ) :
    (∀ frames : List CapsuleFrame,
      (∀ frame ∈ frames, frame.WellFormed ∧ frame.valueOctets.length ≤ maxCapsuleSize) →
      ∃ octets k, frames.foldlM (fun buf frame => encode frame buf) [] = some octets ∧
        (withMaxCapsuleSize maxCapsuleSize).decode octets = .ok (k, frames) ∧ k.buffered = 0) ∧
    ∀ chunks, ∀ frame ∈ delivered decode (withMaxCapsuleSize maxCapsuleSize) chunks,
      ∃ octets k, encode frame [] = some octets ∧
        (withMaxCapsuleSize maxCapsuleSize).decode octets = .ok (k, [frame]) ∧ k.buffered = 0 := by
  refine ⟨fun frames => decode_octets, fun chunks frame hframe => ?_⟩
  have hwell : ∀ f ∈ [frame], f.WellFormed ∧ f.valueOctets.length ≤ maxCapsuleSize := by
    intro f hf
    rw [mem_singleton.mp hf]
    exact wellFormed_of_delivered frame hframe
  obtain ⟨octets, k, hencode, hdecode⟩ := decode_octets hwell
  refine ⟨octets, k, ?_, hdecode⟩
  simpa using hencode

def sample : List CapsuleFrame :=
  [.addressAssign [⟨7, .v4 0x0A000001#32, 32⟩, ⟨0, .v6 0x20010DB8000000000000000000000000#128, 64⟩],
    .unknown 64 [1, 2, 3]]

theorem capsules_roundTrip_sample :
    ∃ octets k, sample.foldlM (fun buf frame => encode frame buf) [] = some octets ∧
      (withMaxCapsuleSize 1024).decode octets = .ok (k, sample) ∧ k.buffered = 0 := by
  refine (capsules_roundTrip 1024).1 sample fun frame hframe => ?_
  obtain rfl | rfl := mem_pair.mp hframe
  · have haddrs : ∀ addr ∈ [(⟨7, .v4 0x0A000001#32, 32⟩ : AssignedAddress),
        ⟨0, .v6 0x20010DB8000000000000000000000000#128, 64⟩], addr.WellFormed := by
      intro addr haddr
      obtain rfl | rfl := mem_pair.mp haddr <;> exact ⟨by decide, by decide⟩
    exact ⟨⟨haddrs, by decide⟩, by decide⟩
  · exact ⟨⟨⟨by decide, by decide, by decide, by decide, by decide⟩, by decide⟩, by decide⟩

end CapsuleDecoder

end MasqueServer
