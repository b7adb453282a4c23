import MasqueServer.IpPacket

/-!
# Source routing

A destination check is void if the packet names a later hop. The filter walks the IPv4 options and
the IPv6 extension headers of a packet and refuses source-route options and routing headers.
-/
namespace MasqueServer

open List

def optionsLoop (packet : Bytes) (headerLen : ℕ) : ℕ → ℕ → Option Bool
  | 0, _ => none
  | fuel + 1, offset =>
    if offset < headerLen then
      match packet[offset]? with
      | none => none
      | some kind =>
        if kind = 0 then some true
        else if kind = 1 then optionsLoop packet headerLen fuel (offset + 1)
        else if kind = 131 ∨ kind = 137 then some false
        else
          match packet[offset + 1]? with
          | none => some false
          | some length =>
            if length < 2 ∨ headerLen < offset + length.toNat then some false
            else optionsLoop packet headerLen fuel (offset + length.toNat)
    else some true

/-- The headers the IPv6 walk steps over: options, fragment and authentication. -/
def IsExtension (next : UInt8) : Prop := next = 0 ∨ next = 60 ∨ next = 44 ∨ next = 51

instance (next : UInt8) : Decidable (IsExtension next) :=
  inferInstanceAs (Decidable (_ ∨ _ ∨ _ ∨ _))

def extensionLen (next length : UInt8) : ℕ :=
  if next = 44 then 8
  else if next = 51 then (length.toNat + 2) * 4
  else (length.toNat + 1) * 8

/-- A fragment header whose offset field is not zero. -/
def LaterFragment (next hi lo : UInt8) : Prop :=
  next = 44 ∧ fromBeBytes 16 [hi, lo] &&& 0xfff8#16 ≠ 0

instance (next hi lo : UInt8) : Decidable (LaterFragment next hi lo) :=
  inferInstanceAs (Decidable (_ ∧ _))

/-- The IPv6 extension-header loop. Eight bytes are demanded before any is read. -/
def chainLoop (packet : Bytes) : ℕ → UInt8 → ℕ → Option Bool
  | 0, _, _ => none
  | fuel + 1, next, offset =>
    if next = 43 then some false
    else if ¬IsExtension next then some true
    else if offset ≤ packet.length ∧ 8 ≤ (packet.drop offset).length then
      match packet.drop offset with
      | following :: length :: hi :: lo :: rest =>
        if LaterFragment next hi lo then some true
        else if (following :: length :: hi :: lo :: rest).length < extensionLen next length then
          some false
        else chainLoop packet fuel following (offset + extensionLen next length)
      | _ => none
    else some false

def hasSafeRouting (packet : Bytes) : Option Bool :=
  match packet with
  | [] => some false
  | first :: _ =>
    if first >>> 4 = 4 then
      let headerLen := (first &&& 15).toNat * 4
      if headerLen < 20 ∨ packet.length < headerLen then some false
      else optionsLoop packet headerLen (packet.length + 1) 20
    else if first >>> 4 = 6 ∧ 40 ≤ packet.length then
      match packet[6]? with
      | none => none
      | some next => chainLoop packet (packet.length + 1) next 40
    else some false

/-! ### Specification -/

/-- A well-formed option list without loose or strict source route, up to the end-of-options
byte or the end of the header. A long option carries its own length. -/
inductive SafeOptions : Bytes → Prop
  | nil : SafeOptions []
  | endOfOptions (rest : Bytes) : SafeOptions (0 :: rest)
  | noOperation {rest : Bytes} : SafeOptions rest → SafeOptions (1 :: rest)
  | option {kind length : UInt8} {body rest : Bytes} :
      kind ≠ 0 → kind ≠ 1 → kind ≠ 131 → kind ≠ 137 → length.toNat = body.length + 2 →
      SafeOptions rest → SafeOptions (kind :: length :: (body ++ rest))

def fragmentOffset (hi lo : UInt8) : ℕ := (hi.toNat * 256 + lo.toNat) / 8

/-- `SafeChain next bytes`: the chain that starts with header type `next` at `bytes` ends in
an upper-layer protocol or an opaque fragment, without a routing header and inside the
bytes. Each kind of header has its own length rule. -/
inductive SafeChain : UInt8 → Bytes → Prop
  | upper {next : UInt8} (bytes : Bytes) :
      next ≠ 43 → ¬IsExtension next → SafeChain next bytes
  | options {next following length hi lo : UInt8} {body rest : Bytes} :
      next = 0 ∨ next = 60 → body.length + 4 = (length.toNat + 1) * 8 →
      SafeChain following rest →
      SafeChain next (following :: length :: hi :: lo :: (body ++ rest))
  | authentication {following length hi lo : UInt8} {body rest : Bytes} :
      body.length + 4 = (length.toNat + 2) * 4 → SafeChain following rest →
      SafeChain 51 (following :: length :: hi :: lo :: (body ++ rest))
  | firstFragment {following reserved hi lo : UInt8} {body rest : Bytes} :
      fragmentOffset hi lo = 0 → body.length = 4 → SafeChain following rest →
      SafeChain 44 (following :: reserved :: hi :: lo :: (body ++ rest))
  | laterFragment {following reserved hi lo : UInt8} {rest : Bytes} :
      fragmentOffset hi lo ≠ 0 → 4 ≤ rest.length →
      SafeChain 44 (following :: reserved :: hi :: lo :: rest)

/-- A complete IPv4 header with safe options, or a complete IPv6 header with a safe chain. -/
def SafelyRouted : Bytes → Prop
  | [] => False
  | first :: rest =>
    (first >>> 4 = 4 ∧ 20 ≤ (first &&& 15).toNat * 4 ∧
      (first &&& 15).toNat * 4 ≤ (first :: rest).length ∧
      SafeOptions (slice (first :: rest) 20 ((first &&& 15).toNat * 4 - 20))) ∨
    (first >>> 4 = 6 ∧ 40 ≤ (first :: rest).length ∧
      ∃ next, (first :: rest)[6]? = some next ∧ SafeChain next ((first :: rest).drop 40))

/-! ### The option loop -/

lemma safeOptions_noOperation_iff (rest : Bytes) :
    SafeOptions (1 :: rest) ↔ SafeOptions rest := by
  refine ⟨fun h => ?_, SafeOptions.noOperation⟩
  cases h with
  | noOperation h => exact h
  | option _ h1 => exact absurd rfl h1

lemma not_safeOptions_sourceRoute {kind : UInt8} (h : kind = 131 ∨ kind = 137)
    (rest : Bytes) : ¬SafeOptions (kind :: rest) := by
  intro hs
  cases hs with
  | endOfOptions => simp at h
  | noOperation => simp at h
  | option _ _ h131 h137 => exact h.elim h131 h137

lemma not_safeOptions_single {kind : UInt8} (h0 : kind ≠ 0) (h1 : kind ≠ 1) :
    ¬SafeOptions [kind] := by
  intro hs
  cases hs with
  | endOfOptions => exact h0 rfl
  | noOperation => exact h1 rfl

lemma safeOptions_option_iff {kind length : UInt8} (rest : Bytes) (h0 : kind ≠ 0)
    (h1 : kind ≠ 1) (hsr : ¬(kind = 131 ∨ kind = 137)) :
    SafeOptions (kind :: length :: rest) ↔
      2 ≤ length.toNat ∧ length.toNat ≤ rest.length + 2 ∧
        SafeOptions (rest.drop (length.toNat - 2)) := by
  refine ⟨fun h => ?_, fun ⟨hmin, hmax, hrest⟩ => ?_⟩
  · cases h with
    | endOfOptions => exact absurd rfl h0
    | noOperation => exact absurd rfl h1
    | @option _ _ body tail _ _ _ _ hlen htail =>
      refine ⟨by omega, by simp; omega, ?_⟩
      rw [hlen, Nat.add_sub_cancel, drop_left]
      exact htail
  · have hbody : length.toNat = (rest.take (length.toNat - 2)).length + 2 := by
      rw [length_take]
      omega
    have h := SafeOptions.option h0 h1 (fun h => hsr (.inl h)) (fun h => hsr (.inr h)) hbody hrest
    rwa [take_append_drop] at h

lemma drop_take_cons {packet : Bytes} {headerLen offset : ℕ} (hlen : headerLen ≤ packet.length)
    (ho : offset < headerLen) (hp : offset < packet.length) :
    (packet.take headerLen).drop offset =
      packet[offset] :: (packet.take headerLen).drop (offset + 1) := by
  have hb : offset < (packet.take headerLen).length := by
    rw [length_take]
    omega
  rw [drop_eq_getElem_cons hb, getElem_take]

/-- The loop ends within the header, reads only inside the packet, and decides the options
that are left. Every turn moves the offset forward, which bounds the fuel. -/
theorem optionsLoop_spec (packet : Bytes) (headerLen : ℕ) (hlen : headerLen ≤ packet.length)
    (fuel offset : ℕ) (ho : offset ≤ headerLen) (hfuel : headerLen < offset + fuel) :
    ∃ b, optionsLoop packet headerLen fuel offset = some b ∧
      (b = true ↔ SafeOptions ((packet.take headerLen).drop offset)) := by
  induction fuel generalizing offset with
  | zero => omega
  | succ fuel ih =>
    by_cases hlt : offset < headerLen
    · have hp : offset < packet.length := by omega
      rw [drop_take_cons hlen hlt hp]
      simp only [optionsLoop, hlt, if_true, getElem?_eq_getElem hp]
      generalize packet[offset] = kind
      by_cases h0 : kind = 0
      · exact ⟨true, by simp [h0], by simpa [h0] using SafeOptions.endOfOptions _⟩
      by_cases h1 : kind = 1
      · simpa [h1, safeOptions_noOperation_iff] using ih (offset + 1) (by omega) (by omega)
      by_cases hsr : kind = 131 ∨ kind = 137
      · exact ⟨false, by simp [h0, h1, hsr], by simp [not_safeOptions_sourceRoute hsr]⟩
      simp only [h0, h1, hsr, if_false]
      by_cases hend : offset + 1 < headerLen
      · have hp' : offset + 1 < packet.length := by omega
        rw [drop_take_cons hlen hend hp', getElem?_eq_getElem hp',
          safeOptions_option_iff _ h0 h1 hsr]
        generalize packet[offset + 1] = length
        have hmin : length < 2 ↔ length.toNat < 2 := UInt8.lt_iff_toNat_lt
        have hrest : ((packet.take headerLen).drop (offset + 1 + 1)).length =
            headerLen - (offset + 2) := by
          rw [length_drop, length_take]
          omega
        by_cases hbad : length < 2 ∨ headerLen < offset + length.toNat
        · refine ⟨false, by simp [hbad], ?_⟩
          rw [hmin] at hbad
          simp only [Bool.false_eq_true, false_iff, not_and, hrest]
          omega
        · rw [hmin] at hbad
          have hnext := ih (offset + length.toNat) (by omega) (by omega)
          have hdrop : offset + 1 + 1 + (length.toNat - 2) = offset + length.toNat := by omega
          simpa only [hmin, hbad, if_false, hrest, drop_drop, hdrop,
            show 2 ≤ length.toNat from by omega, true_and,
            show length.toNat ≤ headerLen - (offset + 2) + 2 from by omega] using hnext
      · have hlast : (packet.take headerLen).drop (offset + 1) = [] := by
          rw [drop_eq_nil_iff, length_take]
          omega
        rw [hlast]
        refine ⟨false, ?_, by simp [not_safeOptions_single h0 h1]⟩
        cases hq : packet[offset + 1]? with
        | none => rfl
        | some length =>
          have hmin : length < 2 ↔ length.toNat < 2 := UInt8.lt_iff_toNat_lt
          have hbad : length < 2 ∨ headerLen < offset + length.toNat := by
            rw [hmin]
            omega
          simp [hbad]
    · have hnil : (packet.take headerLen).drop offset = [] := by
        rw [drop_eq_nil_iff, length_take]
        omega
      exact ⟨true, by simp [optionsLoop, hlt], by simpa [hnil] using SafeOptions.nil⟩

/-! ### The extension-header loop -/

lemma fromBeBytes_pair_toNat (hi lo : UInt8) :
    (fromBeBytes 16 [hi, lo]).toNat = hi.toNat * 256 + lo.toNat := by
  have hhi := hi.toNat_lt
  have hlo := lo.toNat_lt
  have hor := Nat.two_pow_add_eq_or_of_lt hlo hi.toNat
  simp only [fromBeBytes, foldl_cons, foldl_nil, BitVec.toNat_or, BitVec.toNat_shiftLeft,
    BitVec.toNat_setWidth, UInt8.toNat_toBitVec, Nat.shiftLeft_eq]
  rw [Nat.mod_eq_of_lt (show hi.toNat < 2 ^ 16 by omega),
    Nat.mod_eq_of_lt (show lo.toNat < 2 ^ 16 by omega)]
  rw [show BitVec.toNat (0 : BitVec 16) = 0 from rfl, Nat.zero_mul, Nat.zero_mod, Nat.zero_or]
  rw [Nat.mod_eq_of_lt (show hi.toNat * 2 ^ 8 < 2 ^ 16 by omega), Nat.mul_comm, ← hor]
  omega

lemma laterFragment_iff (next hi lo : UInt8) :
    LaterFragment next hi lo ↔ next = 44 ∧ fragmentOffset hi lo ≠ 0 := by
  unfold LaterFragment fragmentOffset
  rw [← fromBeBytes_pair_toNat]
  generalize fromBeBytes 16 [hi, lo] = word
  have hmask : (word &&& 0xfff8#16).toNat = word.toNat / 8 * 8 := by
    have h := Cidr.network_toNat (⟨word, 13, by decide⟩ : Cidr 16)
    have hnet : Cidr.netmask (⟨word, 13, by decide⟩ : Cidr 16) = 0xfff8#16 :=
      show BitVec.allOnes 16 <<< 3 = 0xfff8#16 by decide
    rwa [Cidr.network, hnet] at h
  rw [Ne, ← BitVec.toNat_inj, hmask]
  simp

lemma extensionLen_ge (next length : UInt8) : 8 ≤ extensionLen next length := by
  unfold extensionLen
  split_ifs <;> omega

lemma SafeChain.step {next following length hi lo : UInt8} {body rest : Bytes}
    (hnext : IsExtension next) (hlater : ¬LaterFragment next hi lo)
    (hlen : body.length + 4 = extensionLen next length) (h : SafeChain following rest) :
    SafeChain next (following :: length :: hi :: lo :: (body ++ rest)) := by
  unfold extensionLen at hlen
  obtain rfl | rfl | rfl | rfl := hnext
  · exact .options (.inl rfl) hlen h
  · exact .options (.inr rfl) hlen h
  · rw [laterFragment_iff] at hlater
    exact .firstFragment (by_contra fun hf => hlater ⟨rfl, hf⟩) (by simpa using hlen) h
  · exact .authentication hlen h

lemma safeChain_extension_cases {next : UInt8} (hnext : IsExtension next) {bytes : Bytes}
    (h : SafeChain next bytes) :
    ∃ following length hi lo tail, bytes = following :: length :: hi :: lo :: tail ∧
      4 ≤ tail.length ∧ (LaterFragment next hi lo ∨ ¬LaterFragment next hi lo ∧
        ∃ body rest, tail = body ++ rest ∧ body.length + 4 = extensionLen next length ∧
          SafeChain following rest) := by
  cases h with
  | upper _ _ hn => exact absurd hnext hn
  | @options _ following length hi lo body rest hk hlen hrest =>
    have hk44 : next ≠ 44 := by rintro rfl; simp at hk
    have hk51 : next ≠ 51 := by rintro rfl; simp at hk
    refine ⟨following, length, hi, lo, _, rfl, by simp; omega, .inr ⟨fun hl => hk44 hl.1, ?_⟩⟩
    exact ⟨body, rest, rfl, by simp [extensionLen, hk44, hk51, hlen], hrest⟩
  | @authentication following length hi lo body rest hlen hrest =>
    refine ⟨following, length, hi, lo, _, rfl, by simp; omega, .inr ⟨fun hl => ?_, ?_⟩⟩
    · exact absurd hl.1 (by decide)
    · exact ⟨body, rest, rfl, by simp [extensionLen, hlen], hrest⟩
  | @firstFragment following length hi lo body rest hoff hlen hrest =>
    refine ⟨following, length, hi, lo, _, rfl, by simp; omega, .inr ⟨fun hl => ?_, ?_⟩⟩
    · exact ((laterFragment_iff _ _ _).mp hl).2 hoff
    · exact ⟨body, rest, rfl, by simp [extensionLen, hlen], hrest⟩
  | @laterFragment following length hi lo rest hoff hlen =>
    exact ⟨following, length, hi, lo, rest, rfl, hlen, .inl
      ((laterFragment_iff _ _ _).mpr ⟨rfl, hoff⟩)⟩

lemma not_safeChain_routing (bytes : Bytes) : ¬SafeChain 43 bytes := by
  intro h
  cases h with
  | upper _ h => exact h rfl
  | options h => simp at h

lemma safeChain_step_iff {next following length hi lo : UInt8} {tail : Bytes}
    (hnext : IsExtension next) (hlater : ¬LaterFragment next hi lo) :
    SafeChain next (following :: length :: hi :: lo :: tail) ↔
      extensionLen next length ≤ (following :: length :: hi :: lo :: tail).length ∧
        SafeChain following
          ((following :: length :: hi :: lo :: tail).drop (extensionLen next length)) := by
  obtain ⟨k, hk⟩ : ∃ k, extensionLen next length = k + 4 :=
    ⟨_, (Nat.sub_add_cancel (by have := extensionLen_ge next length; omega)).symm⟩
  have hdrop : (following :: length :: hi :: lo :: tail).drop (k + 4) = tail.drop k := rfl
  rw [hk, hdrop]
  refine ⟨fun h => ?_, fun ⟨hlen, h⟩ => ?_⟩
  · obtain ⟨_, _, _, _, _, he, -, hl | ⟨-, body, rest, rfl, hlen, hrest⟩⟩ :=
      safeChain_extension_cases hnext h
    · cases he
      exact absurd hl hlater
    · cases he
      have hbody : body.length = k := by omega
      refine ⟨by simp; omega, ?_⟩
      rw [← hbody, drop_left]
      exact hrest
  · have hbody : (tail.take k).length + 4 = extensionLen next length := by
      rw [length_take, hk]
      simp at hlen
      omega
    have hstep := @SafeChain.step next following length hi lo _ _ hnext hlater hbody h
    rwa [take_append_drop] at hstep

/-- The loop ends, reads only inside the packet, and decides the chain that is left: every
header it steps over is at least eight bytes long. -/
theorem chainLoop_spec (packet : Bytes) (fuel : ℕ) (next : UInt8) (offset : ℕ)
    (ho : offset ≤ packet.length) (hfuel : packet.length < offset + fuel) :
    ∃ b, chainLoop packet fuel next offset = some b ∧
      (b = true ↔ SafeChain next (packet.drop offset)) := by
  induction fuel generalizing next offset with
  | zero => omega
  | succ fuel ih =>
    unfold chainLoop
    by_cases h43 : next = 43
    · exact ⟨false, by simp [h43], by simp [h43, not_safeChain_routing]⟩
    by_cases hext : IsExtension next
    swap
    · exact ⟨true, by simp [h43, hext], by simpa using SafeChain.upper _ h43 hext⟩
    simp only [h43, hext, not_true, if_false, ho, true_and]
    have hdl : (packet.drop offset).length = packet.length - offset := length_drop
    have hdd : ∀ n, packet.drop (offset + n) = (packet.drop offset).drop n := by
      intro n
      rw [drop_drop]
    generalize packet.drop offset = bytes at hdl hdd
    by_cases h8 : 8 ≤ bytes.length
    · match bytes, h8 with
      | following :: length :: hi :: lo :: tail, h8 =>
        simp only [h8, if_true]
        by_cases hl : LaterFragment next hi lo
        · obtain ⟨rfl, hoff⟩ := (laterFragment_iff _ _ _).mp hl
          have hopaque : SafeChain 44 (following :: length :: hi :: lo :: tail) :=
            .laterFragment hoff (by simp at h8; omega)
          exact ⟨true, by simp [hl], by simpa using hopaque⟩
        rw [safeChain_step_iff hext hl]
        by_cases hshort : (following :: length :: hi :: lo :: tail).length <
            extensionLen next length
        · exact ⟨false, by simp only [hl, hshort, if_false, if_true],
            by simp only [Bool.false_eq_true, Nat.not_le.mpr hshort, false_and]⟩
        · have hge := extensionLen_ge next length
          have hnext := ih following (offset + extensionLen next length) (by omega) (by omega)
          simpa only [hl, hshort, if_false, Nat.le_of_not_lt hshort, true_and, hdd] using hnext
    · refine ⟨false, by simp [h8], ?_⟩
      simp only [Bool.false_eq_true, false_iff]
      intro h
      obtain ⟨_, _, _, _, tail, rfl, htail, _⟩ := safeChain_extension_cases hext h
      simp at h8
      omega

theorem hasSafeRouting_spec (packet : Bytes) :
    ∃ b, hasSafeRouting packet = some b ∧ (b = true ↔ SafelyRouted packet) := by
  cases packet with
  | nil => exact ⟨false, rfl, by simp [SafelyRouted]⟩
  | cons first rest =>
    unfold hasSafeRouting SafelyRouted
    by_cases h4 : first >>> 4 = 4
    · simp only [h4, if_true, true_and, show (4 : UInt8) ≠ 6 from by decide, false_and, or_false]
      by_cases hbad : (first &&& 15).toNat * 4 < 20 ∨
          (first :: rest).length < (first &&& 15).toNat * 4
      · refine ⟨false, by simp only [hbad, if_true], ?_⟩
        simp only [Bool.false_eq_true, false_iff, not_and]
        omega
      · obtain ⟨hmin, hmax⟩ := not_or.mp hbad
        have hloop := optionsLoop_spec (first :: rest) _ (Nat.le_of_not_lt hmax)
          ((first :: rest).length + 1) 20 (by omega) (by omega)
        rw [drop_take] at hloop
        simpa only [hbad, if_false, Nat.le_of_not_lt hmin, Nat.le_of_not_lt hmax, true_and,
          slice] using hloop
    · by_cases h6 : first >>> 4 = 6 ∧ 40 ≤ (first :: rest).length
      · have h6i : 6 < (first :: rest).length := by omega
        have hloop := chainLoop_spec (first :: rest) ((first :: rest).length + 1)
          (first :: rest)[6] 40 h6.2 (by omega)
        simpa only [h6, if_true, if_false, getElem?_eq_getElem h6i, false_and, false_or,
          true_and, and_self, Option.some.injEq, exists_eq_left',
          show ¬(6 : UInt8) = 4 from by decide] using hloop
      · refine ⟨false, by simp only [h4, h6, if_false], ?_⟩
        simp only [Bool.false_eq_true, h4, false_and, false_or, false_iff]
        exact fun h => h6 ⟨h.1, h.2.1⟩

/-- The filter answers on every packet, without reading outside it, and lets exactly the
safely routed packets through. -/
theorem hasSafeRouting_exact (packet : Bytes) :
    (hasSafeRouting packet).isSome = true ∧
      (hasSafeRouting packet = some true ↔ SafelyRouted packet) := by
  obtain ⟨b, hb, hiff⟩ := hasSafeRouting_spec packet
  exact ⟨by rw [hb]; rfl, by rw [hb, Option.some.injEq]; exact hiff⟩

end MasqueServer
