import Mathlib.Data.Char
import Mathlib.Tactic

/-!
# Quoted string literals

A literal is read one character at a time up to its closing quote. A grammar says which characters
stand for themselves, which letters may follow a backslash, and which letters announce hexadecimal
digits.
-/
namespace MasqueServer

open List

def hexValue (c : Char) : Option ℕ :=
  if '0' ≤ c ∧ c ≤ '9' then some (c.toNat - 48)
  else if 'a' ≤ c ∧ c ≤ 'f' then some (c.toNat - 87)
  else if 'A' ≤ c ∧ c ≤ 'F' then some (c.toNat - 55)
  else none

def hexFrom (value : ℕ) : List Char → Option ℕ
  | [] => some value
  | c :: rest => (hexValue c).bind fun digit => hexFrom (16 * value + digit) rest

/-- `pairs` says whether two escapes may stand for one character by way of surrogates. -/
structure LiteralGrammar where
  plain : Char → Bool
  short : Char → Option Char
  digits : Char → Option ℕ
  pairs : Bool

/-- Where the reader stands: in the text, after a backslash, before the last `left + 1` digits of an
escape, or after the first half of a pair of escapes. -/
inductive LiteralState
  | text
  | escape
  | hex (left value : ℕ) (high : Option ℕ)
  | pair (high : ℕ)
  | pairEscape (high : ℕ)
  deriving DecidableEq

def charOfScalar (value : ℕ) : Option Char :=
  if value.isValidChar then some (Char.ofNat value) else none

namespace LiteralGrammar

variable (g : LiteralGrammar)

def complete (value : ℕ) : Option ℕ → Option (Option Char × LiteralState)
  | none =>
    if g.pairs ∧ 0xd800 ≤ value ∧ value < 0xdc00 then some (none, .pair value)
    else (charOfScalar value).map fun c => (some c, .text)
  | some high =>
    if 0xdc00 ≤ value ∧ value < 0xe000 then
      (charOfScalar (0x10000 + (high - 0xd800) * 0x400 + (value - 0xdc00))).map
        fun c => (some c, .text)
    else none

def step : LiteralState → Char → Option (Option Char × LiteralState)
  | .text, c =>
    if c = '\\' then some (none, .escape)
    else if g.plain c then some (some c, .text)
    else none
  | .escape, c =>
    match g.short c, g.digits c with
    | some meant, _ => some (some meant, .text)
    | none, some (left + 1) => some (none, .hex left 0 none)
    | none, _ => none
  | .hex left value high, c =>
    (hexValue c).bind fun digit =>
      match left with
      | left + 1 => some (none, .hex left (16 * value + digit) high)
      | 0 => g.complete (16 * value + digit) high
  | .pair high, c => if c = '\\' then some (none, .pairEscape high) else none
  | .pairEscape high, c => if c = 'u' then some (none, .hex 3 0 (some high)) else none

def scan (g : LiteralGrammar) : LiteralState → List Char → Option (List Char × List Char)
  | _, [] => none
  | state, c :: rest =>
    if state = .text ∧ c = '"' then some ([], rest)
    else (g.step state c).bind fun next =>
      (g.scan next.2 rest).map fun read => (next.1.toList ++ read.1, read.2)

def read : List Char → Option (List Char × List Char)
  | '"' :: text => g.scan .text text
  | _ => none

def IsLiteral (text value : List Char) : Prop := g.read text = some (value, [])

def Spells (text : List Char) (c : Char) : Prop :=
  ∀ rest, g.scan .text (text ++ rest) =
    (g.scan .text rest).map fun read => (c :: read.1, read.2)

/-- Every quote belongs to an escape; `escaped` says whether a backslash stands before the text. -/
def quotesEscaped (escaped : Bool) : List Char → Bool
  | [] => !escaped
  | c :: rest =>
    if escaped then quotesEscaped false rest
    else if c = '\\' then quotesEscaped true rest
    else c ≠ '"' && quotesEscaped false rest

section Reading

variable {g : LiteralGrammar} {c : Char}

lemma scan_cons {state next : LiteralState} {emitted : Option Char}
    (hstep : g.step state c = some (emitted, next)) (hquote : state = .text → c ≠ '"')
    (rest : List Char) :
    g.scan state (c :: rest) =
      (g.scan next rest).map fun read => (emitted.toList ++ read.1, read.2) := by
  rw [scan, if_neg (fun h => hquote h.1 h.2), hstep, Option.bind_some]

lemma spells_plain (hplain : g.plain c = true) (hquote : c ≠ '"') (hslash : c ≠ '\\') :
    g.Spells [c] c := by
  intro rest
  have hstep : g.step .text c = some (some c, .text) := by
    rw [step, if_neg hslash, if_pos hplain]
  exact scan_cons hstep (fun _ => hquote) rest

lemma scan_backslash (g : LiteralGrammar) (rest : List Char) :
    g.scan .text ('\\' :: rest) = g.scan .escape rest := by
  have hstep : g.step .text '\\' = some (none, .escape) := rfl
  rw [scan_cons hstep (by decide)]
  exact Option.map_id'

lemma spells_short {letter : Char} (h : g.short letter = some c) : g.Spells ['\\', letter] c := by
  intro rest
  have hstep : g.step .escape letter = some (some c, .text) := by
    rw [step, h]
  rw [List.cons_append, scan_backslash]
  exact scan_cons hstep nofun rest

lemma scan_hex {left value result : ℕ} {high : Option ℕ} {digits : List Char}
    (hlength : digits.length = left + 1) (hvalue : hexFrom value digits = some result)
    (hcomplete : g.complete result high = some (some c, .text)) (rest : List Char) :
    g.scan (.hex left value high) (digits ++ rest) =
      (g.scan .text rest).map fun read => (c :: read.1, read.2) := by
  induction digits generalizing left value with
  | nil => cases hlength
  | cons d digits ih =>
    rw [hexFrom, Option.bind_eq_some_iff] at hvalue
    obtain ⟨digit, hdigit, hvalue⟩ := hvalue
    cases left with
    | zero =>
      obtain rfl : digits = [] := List.length_eq_zero_iff.mp (by simpa using hlength)
      cases hvalue
      have hstep : g.step (.hex 0 value high) d = some (some c, .text) := by
        rw [step, hdigit]
        exact hcomplete
      exact scan_cons hstep nofun rest
    | succ left =>
      have hstep : g.step (.hex (left + 1) value high) d =
          some (none, .hex left (16 * value + digit) high) := by
        rw [step, hdigit]
        rfl
      rw [List.cons_append, scan_cons hstep nofun,
        ih (by simpa using hlength) hvalue]
      exact Option.map_id'

lemma spells_hex {letter : Char} {left : ℕ} {digits : List Char} (hshort : g.short letter = none)
    (hletter : g.digits letter = some (left + 1)) (hlength : digits.length = left + 1)
    (hvalue : hexFrom 0 digits = some c.toNat)
    (hsurrogate : g.pairs = true → c.toNat < 0xd800) : g.Spells ('\\' :: letter :: digits) c := by
  intro rest
  have hstep : g.step .escape letter = some (none, .hex left 0 none) := by
    rw [step, hshort, hletter]
  have hcomplete : g.complete c.toNat none = some (some c, .text) := by
    rw [complete, if_neg, charOfScalar, if_pos (show c.toNat.isValidChar from c.valid),
      Char.ofNat_toNat]
    · rfl
    · rintro ⟨hpairs, hge, -⟩
      have := hsurrogate hpairs
      omega
  rw [List.cons_append, scan_backslash, List.cons_append, scan_cons hstep nofun,
    scan_hex hlength hvalue hcomplete]
  exact Option.map_id'

theorem read_quoted {spell : Char → List Char} {text : List Char}
    (h : ∀ c ∈ text, g.Spells (spell c) c) (rest : List Char) :
    g.read ('"' :: (text.flatMap spell ++ '"' :: rest)) = some (text, rest) := by
  change g.scan .text (text.flatMap spell ++ '"' :: rest) = some (text, rest)
  induction text with
  | nil => rfl
  | cons c text ih =>
    rw [flatMap_cons, append_assoc, h c mem_cons_self,
      ih fun d hd => h d (mem_cons_of_mem c hd)]
    rfl

lemma isLiteral_plain {text : List Char}
    (h : ∀ c ∈ text, g.plain c = true ∧ c ≠ '"' ∧ c ≠ '\\') :
    g.IsLiteral ('"' :: (text ++ ['"'])) text := by
  have hread := @read_quoted g (fun c => [c]) text
    (fun c hc => spells_plain (h c hc).1 (h c hc).2.1 (h c hc).2.2) []
  rwa [List.flatMap_singleton'] at hread

lemma quotesEscaped_plain {text : List Char} (h : ∀ c ∈ text, c ≠ '"' ∧ c ≠ '\\')
    (rest : List Char) :
    quotesEscaped false (text ++ rest) = quotesEscaped false rest := by
  induction text with
  | nil => rfl
  | cons c text ih =>
    rw [forall_mem_cons] at h
    rw [cons_append, quotesEscaped, if_neg Bool.false_ne_true, if_neg h.1.2, ih h.2]
    simp [h.1.1]

end Reading

end LiteralGrammar

/-! ### Two grammars -/

def tomlLiterals : LiteralGrammar where
  plain c := c = '\t' || (0x20 ≤ c.toNat && c ≠ '"' && c ≠ '\\' && c.toNat ≠ 0x7f)
  short
    | 'b' => some (Char.ofNat 8)
    | 't' => some '\t'
    | 'n' => some '\n'
    | 'f' => some (Char.ofNat 12)
    | 'r' => some '\r'
    | 'e' => some (Char.ofNat 27)
    | '"' => some '"'
    | '\\' => some '\\'
    | _ => none
  digits
    | 'x' => some 2
    | 'u' => some 4
    | 'U' => some 8
    | _ => none
  pairs := false

def jsonLiterals : LiteralGrammar where
  plain c := 0x20 ≤ c.toNat && c ≠ '"' && c ≠ '\\'
  short
    | '"' => some '"'
    | '\\' => some '\\'
    | '/' => some '/'
    | 'b' => some (Char.ofNat 8)
    | 'f' => some (Char.ofNat 12)
    | 'n' => some '\n'
    | 'r' => some '\r'
    | 't' => some '\t'
    | _ => none
  digits
    | 'u' => some 4
    | _ => none
  pairs := true

end MasqueServer
