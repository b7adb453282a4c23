import MasqueServer.Utf8Texts

/-!
# Percent encoding

Escapes of one octet by two hexadecimal digits. The lenient reading lets what is no escape stand for
itself; the strict one refuses it. The lenient reading is compared with a grammar of escaped texts.
-/
namespace MasqueServer

open List Option

def hexDigit (octet : UInt8) : Option UInt8 :=
  if 48 ≤ octet ∧ octet ≤ 57 then some (octet - 48)
  else if 97 ≤ octet ∧ octet ≤ 102 then some (octet - 97 + 10)
  else if 65 ≤ octet ∧ octet ≤ 70 then some (octet - 65 + 10)
  else none

/-- The octet that two hexadecimal digits escape. -/
def escapedOctet (high low : UInt8) : Option UInt8 :=
  match hexDigit high, hexDigit low with
  | some high, some low => some (high <<< 4 ||| low)
  | _, _ => none

def unescapeLenient : Bytes → Bytes
  | [] => []
  | octet :: high :: low :: rest =>
    if octet = 37 then
      match escapedOctet high low with
      | some escaped => escaped :: unescapeLenient rest
      | none => octet :: unescapeLenient (high :: low :: rest)
    else octet :: unescapeLenient (high :: low :: rest)
  | octet :: rest => octet :: unescapeLenient rest

def unescape : Bytes → Option Bytes
  | [] => some []
  | octet :: rest =>
    if octet = 37 then
      match rest with
      | high :: low :: rest =>
        match escapedOctet high low with
        | some escaped => (unescape rest).map (escaped :: ·)
        | none => none
      | _ => none
    else (unescape rest).map (octet :: ·)

def isAlphanumeric (octet : UInt8) : Bool :=
  48 ≤ octet && octet ≤ 57 || 65 ≤ octet && octet ≤ 90 || 97 ≤ octet && octet ≤ 122

/-- Letters, digits and `-._~`. -/
def isUnreserved (octet : UInt8) : Bool :=
  isAlphanumeric octet || octet == 45 || octet == 46 || octet == 95 || octet == 126

/-- The upper-case digit of a value below 16. -/
def hexOctet (value : UInt8) : UInt8 := if value < 10 then 48 + value else 55 + value

def escape : Bytes → Bytes
  | [] => []
  | octet :: rest =>
    if isUnreserved octet then octet :: escape rest
    else 37 :: hexOctet (octet >>> 4) :: hexOctet (octet &&& 15) :: escape rest

section Laws

variable {octet : UInt8} {text rest : Bytes}

lemma unescapeLenient_cons (hpercent : octet ≠ 37) (rest : Bytes) :
    unescapeLenient (octet :: rest) = octet :: unescapeLenient rest := by
  match rest with
  | [] => rfl
  | [_] => rfl
  | _ :: _ :: _ => rw [unescapeLenient, if_neg hpercent]

lemma unescape_cons (hpercent : octet ≠ 37) (rest : Bytes) :
    unescape (octet :: rest) = (unescape rest).map (octet :: ·) := by
  match rest with
  | [] => simp [unescape, hpercent]
  | [_] => simp [unescape, hpercent]
  | _ :: _ :: _ => rw [unescape, if_neg hpercent]

lemma escapedOctet_hexOctet (octet : UInt8) :
    escapedOctet (hexOctet (octet >>> 4)) (hexOctet (octet &&& 15)) = some octet := by
  have hall : ∀ n : Fin 256,
      escapedOctet (hexOctet (UInt8.ofFin n >>> 4)) (hexOctet (UInt8.ofFin n &&& 15)) =
        some (UInt8.ofFin n) := by decide +kernel
  exact hall octet.toFin

theorem unescape_escape (text : Bytes) : unescape (escape text) = some text := by
  induction text with
  | nil => rfl
  | cons octet rest ih =>
    rw [escape]
    split_ifs with hunreserved
    · have hpercent : octet ≠ 37 := by
        rintro rfl
        exact absurd hunreserved (by decide)
      rw [unescape_cons hpercent, ih, map_some]
    · simp only [unescape, if_true, escapedOctet_hexOctet, ih, map_some]

lemma mem_escape (h : octet ∈ escape text) : isUnreserved octet = true ∨ octet = 37 := by
  have hhex : ∀ n : Fin 256, isUnreserved (hexOctet (UInt8.ofFin n >>> 4)) = true ∧
      isUnreserved (hexOctet (UInt8.ofFin n &&& 15)) = true := by decide +kernel
  induction text with
  | nil => simp [escape] at h
  | cons first rest ih =>
    rw [escape] at h
    split_ifs at h with hunreserved
    · rcases mem_cons.mp h with rfl | h
      · exact Or.inl hunreserved
      · exact ih h
    · simp only [mem_cons] at h
      obtain rfl | rfl | rfl | h := h
      · exact Or.inr rfl
      · exact Or.inl (hhex first.toFin).1
      · exact Or.inl (hhex first.toFin).2
      · exact ih h

lemma notMem_escape (hoctet : isUnreserved octet = false) (hpercent : octet ≠ 37) :
    octet ∉ escape text := by
  intro hmem
  rcases mem_escape hmem with h | h
  · rw [h] at hoctet
    cases hoctet
  · exact hpercent h

lemma unescapeLenient_eq_nil (h : unescapeLenient text = []) : text = [] := by
  unfold unescapeLenient at h
  split at h
  next => rfl
  next =>
    split_ifs at h
    split at h <;> cases h
  next => cases h

/-- Where no percent sign is left, no escape reaches into what follows. -/
lemma unescapeLenient_append (h : 37 ∉ unescapeLenient text) (rest : Bytes) :
    unescapeLenient (text ++ rest) = unescapeLenient text ++ unescapeLenient rest := by
  fun_induction unescapeLenient text with
  | case1 => rfl
  | case2 high low tail escaped hescaped ih =>
    simp only [mem_cons, not_or] at h
    simp only [cons_append, unescapeLenient, if_true, hescaped]
    rw [ih h.2]
  | case3 => simp at h
  | case4 octet high low tail hpercent ih =>
    simp only [mem_cons, not_or] at h
    rw [cons_append, unescapeLenient_cons hpercent, ih h.2, cons_append]
  | case5 octet tail hshort ih =>
    simp only [mem_cons, not_or] at h
    rw [cons_append, unescapeLenient_cons (Ne.symm h.1), ih h.2, cons_append]

end Laws

/-! ### The grammar of escaped texts -/

/-- A hexadecimal digit in either case, as its place in the row of digits. -/
def HexDigit (digit : UInt8) (value : ℕ) : Prop :=
  [48, 49, 50, 51, 52, 53, 54, 55, 56, 57, 97, 98, 99, 100, 101, 102][value]? = some digit ∨
    [48, 49, 50, 51, 52, 53, 54, 55, 56, 57, 65, 66, 67, 68, 69, 70][value]? = some digit

/-- A percent sign before two hexadecimal digits stands for the octet they spell; every other octet,
also a percent sign, stands for itself. -/
inductive Unescapes : Bytes → Bytes → Prop
  | nil : Unescapes [] []
  | escape {high low octet : UInt8} {text octets : Bytes} {h l : ℕ} (hhigh : HexDigit high h)
      (hlow : HexDigit low l) (hoctet : octet.toNat = 16 * h + l) (hrest : Unescapes text octets) :
      Unescapes (37 :: high :: low :: text) (octet :: octets)
  | literal {octet : UInt8} {text octets : Bytes}
      (hplain : ∀ high low rest h l, octet :: text = 37 :: high :: low :: rest →
        HexDigit high h → ¬HexDigit low l) (hrest : Unescapes text octets) :
      Unescapes (octet :: text) (octet :: octets)

section Grammar

variable {high low octet digit value : UInt8} {text octets : Bytes}

instance decidableHexDigit (digit : UInt8) (value : ℕ) : Decidable (HexDigit digit value) :=
  inferInstanceAs (Decidable (_ ∨ _))

lemma HexDigit.lt {value : ℕ} (h : HexDigit digit value) : value < 16 := by
  by_contra hge
  rw [HexDigit, getElem?_eq_none (by simpa using hge),
    getElem?_eq_none (by simpa using hge)] at h
  simp at h

lemma hexDigit_eq_some_iff : hexDigit digit = some value ↔ HexDigit digit value.toNat := by
  have hall : ∀ n : Fin 256, ∀ v : Fin 16,
      hexDigit (UInt8.ofFin n) = some (UInt8.ofNat v) ↔ HexDigit (UInt8.ofFin n) v := by
    decide +kernel
  have hsmall : ∀ n : Fin 256, ∀ v ∈ hexDigit (UInt8.ofFin n), v.toNat < 16 := by decide +kernel
  constructor
  · intro h
    have hlt := hsmall digit.toFin value h
    exact (hall digit.toFin ⟨value.toNat, hlt⟩).mp (by simpa using h)
  · intro h
    simpa using (hall digit.toFin ⟨value.toNat, h.lt⟩).mpr h

lemma escapedOctet_eq_some_iff : escapedOctet high low = some octet ↔
    ∃ h l, HexDigit high h ∧ HexDigit low l ∧ octet.toNat = 16 * h + l := by
  have hspelt : ∀ h l : Fin 16,
      (UInt8.ofNat h <<< 4 ||| UInt8.ofNat l).toNat = 16 * h.val + l.val := by decide
  have hvalue {h l : UInt8} (hh : h.toNat < 16) (hl : l.toNat < 16) :
      (h <<< 4 ||| l).toNat = 16 * h.toNat + l.toNat := by
    simpa using hspelt ⟨h.toNat, hh⟩ ⟨l.toNat, hl⟩
  unfold escapedOctet
  constructor
  · intro heq
    split at heq
    next h l hhigh hlow =>
      rw [hexDigit_eq_some_iff] at hhigh hlow
      exact ⟨h.toNat, l.toNat, hhigh, hlow, by rw [← some.inj heq, hvalue hhigh.lt hlow.lt]⟩
    next => cases heq
  · rintro ⟨h, l, hhigh, hlow, hoctet⟩
    have htoNat {n : ℕ} (hn : n < 16) : (UInt8.ofNat n).toNat = n :=
      UInt8.toNat_ofNat_of_lt (by simp [UInt8.size]; omega)
    have hhigh' := hexDigit_eq_some_iff.mpr ((htoNat hhigh.lt).symm ▸ hhigh)
    have hlow' := hexDigit_eq_some_iff.mpr ((htoNat hlow.lt).symm ▸ hlow)
    rw [hhigh', hlow']
    refine congrArg some (UInt8.toNat_inj.mp ?_)
    rw [hvalue (by rw [htoNat hhigh.lt]; exact hhigh.lt) (by rw [htoNat hlow.lt]; exact hlow.lt),
      htoNat hhigh.lt, htoNat hlow.lt, hoctet]

/-- The lenient reading is what the grammar says. -/
theorem unescapes_iff : Unescapes text octets ↔ unescapeLenient text = octets := by
  constructor
  · intro h
    induction h with
    | nil => rfl
    | escape hhigh hlow hoctet _ ih =>
      have hescaped := escapedOctet_eq_some_iff.mpr ⟨_, _, hhigh, hlow, hoctet⟩
      simp only [unescapeLenient, if_true, hescaped, ih]
    | @literal octet text octets hplain _ ih =>
      by_cases hpercent : octet = 37
      · match text with
        | [] => rw [← ih]; rfl
        | [_] => rw [← ih]; rfl
        | high :: low :: rest =>
          have hnone : escapedOctet high low = none := by
            refine eq_none_iff_forall_ne_some.mpr fun escaped hescaped => ?_
            obtain ⟨h, l, hhigh, hlow, -⟩ := escapedOctet_eq_some_iff.mp hescaped
            exact hplain high low rest h l (by rw [hpercent]) hhigh hlow
          rw [unescapeLenient, if_pos hpercent, hnone]
          simp only [ih]
      · rw [unescapeLenient_cons hpercent, ih]
  · rintro rfl
    fun_induction unescapeLenient text with
    | case1 => exact .nil
    | case2 high low rest escaped hescaped ih =>
      obtain ⟨h, l, hhigh, hlow, hoctet⟩ := escapedOctet_eq_some_iff.mp hescaped
      exact .escape hhigh hlow hoctet ih
    | case3 high low rest hnone ih =>
      refine .literal (fun high' low' rest' h l heq hhigh hlow => ?_) ih
      simp only [List.cons.injEq] at heq
      obtain ⟨-, rfl, rfl, -⟩ := heq
      have hsome := escapedOctet_eq_some_iff.mpr
        ⟨h, l, hhigh, hlow, UInt8.toNat_ofNat_of_lt (n := 16 * h + l) (by
          have := hhigh.lt
          have := hlow.lt
          simp [UInt8.size]
          omega)⟩
      rw [hnone] at hsome
      cases hsome
    | case4 octet high low rest hpercent ih =>
      exact .literal (fun _ _ _ _ _ heq => absurd (List.cons.inj heq).1 hpercent) ih
    | case5 octet rest hshort ih =>
      exact .literal (fun high low rest' _ _ heq => absurd (List.cons.inj heq).2
        (hshort high low rest')) ih

end Grammar

end MasqueServer
