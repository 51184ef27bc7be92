/-!
# Hexadecimal text

Messages show bit sets and offsets in lower-case hexadecimal without leading zeros. Packet data
is shown with two digits for each byte.
-/

namespace PacketDma

/-- The hexadecimal text of a number: `0x`, then its digits. -/
def hex (n : Nat) : String := "0x" ++ String.ofList (Nat.toDigits 16 n)

namespace HexData

/-- The two digits of a byte. -/
def encodeByte (b : UInt8) : List Char :=
  [Nat.digitChar (b.toNat / 16), Nat.digitChar (b.toNat % 16)]

/-- The digits of some bytes. -/
def encode (bytes : Array UInt8) : String := String.ofList (bytes.toList.flatMap encodeByte)

/-- The value of a digit, zero for any other character. -/
def digit (c : Char) : Nat :=
  if '0' ≤ c ∧ c ≤ '9' then c.toNat - '0'.toNat
  else if 'a' ≤ c ∧ c ≤ 'f' then c.toNat - 'a'.toNat + 10
  else 0

/-- The bytes of pairs of digits. A single digit at the end is left out. -/
def decodeChars : List Char → List UInt8
  | high :: low :: rest => UInt8.ofNat (digit high * 16 + digit low) :: decodeChars rest
  | _ => []

/-- The bytes of a text of digits. -/
def decode (text : String) : Array UInt8 := (decodeChars text.toList).toArray

end HexData

end PacketDma
