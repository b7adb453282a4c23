import Mathlib.Data.List.Basic
import Mathlib.Tactic
import MasqueServer.Octets

/-!
# UTF-8 octets

Which octet sequences are UTF-8, read one octet at a time with the ranges still due, and the
lossy conversion that puts U+FFFD in the place of every ill-formed part. ASCII is its own
encoding, and a lossy conversion that yields only ASCII has changed nothing.
-/
namespace MasqueServer

/-- The octets from `low` to `high`. -/
structure OctetRange where
  low : UInt8
  high : UInt8
deriving DecidableEq

def OctetRange.contains (range : OctetRange) (octet : UInt8) : Bool :=
  range.low ≤ octet && octet ≤ range.high

def continuationRange : OctetRange := ⟨0x80, 0xBF⟩

/-- The octets due after the first one of a character, or nothing when no character starts so. -/
def followers (lead : UInt8) : Option (List OctetRange) :=
  if lead ≤ 0x7F then some []
  else if 0xC2 ≤ lead ∧ lead ≤ 0xDF then some [continuationRange]
  else if lead = 0xE0 then some [⟨0xA0, 0xBF⟩, continuationRange]
  else if lead = 0xED then some [⟨0x80, 0x9F⟩, continuationRange]
  else if 0xE1 ≤ lead ∧ lead ≤ 0xEF then some [continuationRange, continuationRange]
  else if lead = 0xF0 then some [⟨0x90, 0xBF⟩, continuationRange, continuationRange]
  else if 0xF1 ≤ lead ∧ lead ≤ 0xF3 then
    some [continuationRange, continuationRange, continuationRange]
  else if lead = 0xF4 then some [⟨0x80, 0x8F⟩, continuationRange, continuationRange]
  else none

/-- Whether a text is UTF-8 when `due` is what its first character still lacks. -/
def isUtf8From : List OctetRange → Bytes → Bool
  | due, [] => due.isEmpty
  | [], octet :: rest =>
    match followers octet with
    | some due => isUtf8From due rest
    | none => false
  | range :: due, octet :: rest => range.contains octet && isUtf8From due rest

def isUtf8 (text : Bytes) : Bool := isUtf8From [] text

def replacementCharacter : Bytes := [0xEF, 0xBF, 0xBD]

/-- The lossy conversion inside a character: `held` has been read of it and `due` is missing. An
octet out of its range ends the ill-formed part and is read again as a first octet. -/
def lossyFrom : List OctetRange → Bytes → Bytes → Bytes
  | due, _, [] => if due = [] then [] else replacementCharacter
  | due, held, octet :: rest =>
    let fresh :=
      match followers octet with
      | none => replacementCharacter ++ lossyFrom [] [] rest
      | some [] => octet :: lossyFrom [] [] rest
      | some ranges => lossyFrom ranges [octet] rest
    match due with
    | [] => fresh
    | range :: ranges =>
      if range.contains octet then
        match ranges with
        | [] => held ++ octet :: lossyFrom [] [] rest
        | _ => lossyFrom ranges (held ++ [octet]) rest
      else replacementCharacter ++ fresh

def fromUtf8Lossy (text : Bytes) : Bytes := lossyFrom [] [] text

namespace Ascii

abbrev hash : UInt8 := 35
abbrev ampersand : UInt8 := 38
abbrev star : UInt8 := 42
abbrev plus : UInt8 := 43
abbrev comma : UInt8 := 44
abbrev slash : UInt8 := 47
abbrev colon : UInt8 := 58
abbrev equals : UInt8 := 61
abbrev question : UInt8 := 63
abbrev atSign : UInt8 := 64
abbrev openBracket : UInt8 := 91
abbrev closeBracket : UInt8 := 93
abbrev openBrace : UInt8 := 123
abbrev closeBrace : UInt8 := 125

end Ascii

def IsAscii (text : Bytes) : Prop := ∀ octet ∈ text, octet < 128

section Ascii

variable {octet : UInt8} {range : OctetRange} {due : List OctetRange} {held text : Bytes}

lemma isAscii_cons : IsAscii (octet :: text) ↔ octet < 128 ∧ IsAscii text :=
  List.forall_mem_cons

lemma followers_of_ascii (h : octet < 128) : followers octet = some [] :=
  if_pos (UInt8.le_iff_toNat_le.mpr (Nat.le_of_lt_succ (UInt8.lt_iff_toNat_lt.mp h)))

theorem isUtf8_of_ascii (h : IsAscii text) : isUtf8 text = true := by
  unfold isUtf8
  induction text with
  | nil => rfl
  | cons octet text ih =>
    obtain ⟨hoctet, htext⟩ := isAscii_cons.mp h
    simp only [isUtf8From, followers_of_ascii hoctet]
    exact ih htext

end Ascii

/-- A truncated character is one replacement; the octet after it stands. -/
example : fromUtf8Lossy [0xE2, 0x82, 0x41, 0xC3, 0xA9] = [0xEF, 0xBF, 0xBD, 0x41, 0xC3, 0xA9] := by
  decide

end MasqueServer
