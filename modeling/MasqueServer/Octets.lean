import Mathlib.Data.Nat.Notation

/-!
# Octets

Packets, headers and tokens are strings of octets; all of them are lists here.
-/
namespace MasqueServer

/-- The octets of a `Vec<u8>` or of a slice. -/
abbrev Bytes := List UInt8

/-- The octets of a text in UTF-8. -/
def asBytes (text : String) : Bytes := text.toUTF8.data.toList

/-- The word that octets stand for in network order. -/
def fromBeBytes (w : ℕ) (octets : Bytes) : BitVec w :=
  octets.foldl (fun word octet => word <<< 8 ||| octet.toBitVec.setWidth w) 0

/-- The octets from `start` on, as many as are asked for and there are. -/
def slice (packet : Bytes) (start count : ℕ) : Bytes := (packet.drop start).take count

end MasqueServer
