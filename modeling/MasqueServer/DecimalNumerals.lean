import Mathlib.Data.List.Basic
import Mathlib.Tactic
import MasqueServer.Octets

/-!
# Decimal numerals

Unsigned numbers written in ASCII digits, as Rust's integer parser reads them: digit by digit,
giving up as soon as the value exceeds the type's maximum, and taking one plus sign in front.
-/
namespace MasqueServer

open List

def IsDigit (octet : UInt8) : Prop := 48 ≤ octet ∧ octet ≤ 57

instance (octet : UInt8) : Decidable (IsDigit octet) :=
  inferInstanceAs (Decidable (48 ≤ octet ∧ octet ≤ 57))

def nextDecimal (value : ℕ) (digit : UInt8) : ℕ := value * 10 + (digit.toNat - 48)

def decimalFrom (value : ℕ) (text : Bytes) : ℕ := text.foldl nextDecimal value

/-- A text of at least one digit, and nothing else, with this value. -/
structure Numeral (text : Bytes) (value : ℕ) : Prop where
  nonempty : text ≠ []
  digits : ∀ octet ∈ text, IsDigit octet
  value_eq : decimalFrom 0 text = value

def readDigits (maximum : ℕ) (value : ℕ) : Bytes → Option ℕ
  | [] => some value
  | octet :: rest =>
    if IsDigit octet ∧ nextDecimal value octet ≤ maximum
    then readDigits maximum (nextDecimal value octet) rest
    else none

/-- `str::parse` of an unsigned type: a sign alone is refused, as the empty text is; a minus sign
is no digit. -/
def parseUnsigned (maximum : ℕ) : Bytes → Option ℕ
  | [] => none
  | 43 :: digits => if digits = [] then none else readDigits maximum 0 digits
  | digits => readDigits maximum 0 digits

def decimalText (value : ℕ) : Bytes :=
  if value < 10 then [48 + UInt8.ofNat value]
  else decimalText (value / 10) ++ [48 + UInt8.ofNat (value % 10)]
termination_by value

section Values

variable {maximum value result : ℕ} {octet : UInt8} {text rest : Bytes}

@[simp] lemma decimalFrom_nil (value : ℕ) : decimalFrom value [] = value := rfl

@[simp] lemma decimalFrom_cons (value : ℕ) (octet : UInt8) (rest : Bytes) :
    decimalFrom value (octet :: rest) = decimalFrom (nextDecimal value octet) rest := by
  simp only [decimalFrom, foldl_cons]

lemma decimalFrom_append (value : ℕ) (text rest : Bytes) :
    decimalFrom value (text ++ rest) = decimalFrom (decimalFrom value text) rest :=
  foldl_append

lemma le_nextDecimal (value : ℕ) (octet : UInt8) : value * 10 ≤ nextDecimal value octet :=
  Nat.le_add_right _ _

lemma le_decimalFrom (value : ℕ) (text : Bytes) : value ≤ decimalFrom value text := by
  induction text generalizing value with
  | nil => exact le_rfl
  | cons digit text ih =>
    have hrest := ih (nextDecimal value digit)
    have hnext := le_nextDecimal value digit
    rw [decimalFrom_cons]
    omega

lemma eq_nil_of_decimalFrom (hpos : 0 < value) (h : decimalFrom value text = value) :
    text = [] := by
  cases text with
  | nil => rfl
  | cons digit text =>
    have hrest := le_decimalFrom (nextDecimal value digit) text
    have hnext := le_nextDecimal value digit
    rw [decimalFrom_cons] at h
    omega

theorem readDigits_eq_some_iff (hvalue : value ≤ maximum) :
    readDigits maximum value text = some result ↔
      (∀ octet ∈ text, IsDigit octet) ∧ decimalFrom value text = result ∧ result ≤ maximum := by
  induction text generalizing value with
  | nil =>
    simp only [readDigits, decimalFrom_nil, Option.some.injEq, not_mem_nil, false_implies,
      implies_true, true_and]
    exact ⟨fun h => ⟨h, h ▸ hvalue⟩, fun h => h.1⟩
  | cons octet text ih =>
    have hle := le_decimalFrom (nextDecimal value octet) text
    simp only [readDigits, decimalFrom_cons, forall_mem_cons]
    split_ifs with hnext
    · rw [ih hnext.2]
      simp only [hnext.1, true_and]
    · simp only [false_iff, not_and]
      rintro ⟨hdigit, -⟩ rfl hmaximum
      exact hnext ⟨hdigit, hle.trans hmaximum⟩

theorem parseUnsigned_eq_some_iff :
    parseUnsigned maximum text = some result ↔
      ∃ digits, (text = digits ∨ text = 43 :: digits) ∧ Numeral digits result ∧
        result ≤ maximum := by
  have hread (digits : Bytes) (hne : digits ≠ []) :
      readDigits maximum 0 digits = some result ↔ Numeral digits result ∧ result ≤ maximum := by
    rw [readDigits_eq_some_iff (Nat.zero_le maximum)]
    exact ⟨fun ⟨hdigits, hvalue, hle⟩ => ⟨⟨hne, hdigits, hvalue⟩, hle⟩,
      fun ⟨h, hle⟩ => ⟨h.digits, h.value_eq, hle⟩⟩
  unfold parseUnsigned
  split
  next =>
    simp only [reduceCtorEq, false_iff, or_false, not_exists, not_and]
    rintro digits rfl h
    exact absurd rfl h.nonempty
  next digits =>
    have hplus {digits' : Bytes} (h : Numeral digits' result) : 43 :: digits ≠ digits' := by
      rintro rfl
      exact absurd (h.digits 43 mem_cons_self) (by decide)
    by_cases hdigits : digits = []
    · simp only [hdigits, if_true, reduceCtorEq, false_iff, not_exists, not_and]
      rintro digits' (heq | heq) h
      · exact absurd (hdigits ▸ heq) (hplus h)
      · simp only [List.cons.injEq, true_and] at heq
        exact absurd heq.symm h.nonempty
    · rw [if_neg hdigits, hread digits hdigits]
      constructor
      · intro h
        exact ⟨digits, Or.inr rfl, h⟩
      · rintro ⟨digits', heq | heq, h⟩
        · exact absurd heq (hplus h.1)
        · simp only [List.cons.injEq, true_and] at heq
          exact heq ▸ h
  next hne hplus =>
    rw [hread text hne]
    constructor
    · intro h
      exact ⟨text, Or.inl rfl, h⟩
    · rintro ⟨digits, heq | heq, h⟩
      · exact heq ▸ h
      · exact absurd heq (hplus digits)

lemma Numeral.ascii (h : Numeral text value) : ∀ octet ∈ text, octet < 128 := by
  intro octet hmem
  have hle := (h.digits octet hmem).2
  exact UInt8.lt_of_le_of_lt hle (by decide)

lemma Numeral.parseUnsigned (h : Numeral text value) (hle : value ≤ maximum) :
    parseUnsigned maximum text = some value :=
  parseUnsigned_eq_some_iff.mpr ⟨text, Or.inl rfl, h, hle⟩

private lemma digit_octet (h : value < 10) :
    IsDigit (48 + UInt8.ofNat value) ∧ (48 + UInt8.ofNat value).toNat - 48 = value := by
  interval_cases value <;> decide

theorem numeral_decimalText (value : ℕ) : Numeral (decimalText value) value := by
  induction value using decimalText.induct with
  | case1 value hlt =>
    have hdigit := digit_octet hlt
    rw [decimalText, if_pos hlt]
    refine ⟨cons_ne_nil _ _, by simpa using hdigit.1, ?_⟩
    rw [decimalFrom_cons, decimalFrom_nil, nextDecimal, hdigit.2, Nat.zero_mul, Nat.zero_add]
  | case2 value hge ih =>
    have hdigit := digit_octet (Nat.mod_lt value (by decide : 0 < 10))
    rw [decimalText, if_neg hge]
    refine ⟨by simp, ?_, ?_⟩
    · intro octet hmem
      rcases mem_append.mp hmem with hmem | hmem
      · exact ih.digits octet hmem
      · rw [mem_singleton.mp hmem]
        exact hdigit.1
    · rw [decimalFrom_append, ih.value_eq, decimalFrom_cons, decimalFrom_nil, nextDecimal, hdigit.2]
      exact Nat.div_add_mod' value 10

lemma length_decimalText {places : ℕ} (h : value < 10 ^ (places + 1)) :
    (decimalText value).length ≤ places + 1 := by
  induction places generalizing value with
  | zero =>
    rw [decimalText, if_pos (by simpa using h)]
    rfl
  | succ places ih =>
    rw [decimalText]
    split
    · simp
    · have hdiv : value / 10 < 10 ^ (places + 1) := by
        rw [Nat.div_lt_iff_lt_mul (by decide)]
        rwa [pow_succ] at h
      have hlength := ih hdiv
      rw [length_append, length_singleton]
      omega

end Values

end MasqueServer
