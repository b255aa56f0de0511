/-
  Bytes as hexadecimal text: two digits a byte, written in lower case and read
  in either.

  * `encodeHex` and `decodeHex`, with `HexError` for the first fault;
  * `Latin1.quoted`: how a faulty byte is shown.
-/
import LedgerGate.Text.Integer

namespace LedgerGate.Text

/-! ## Writing -/

/-- The lower-case digit of a value below sixteen. -/
def hexDigit (n : Nat) : Char :=
  if n < 10 then Char.ofNat ('0'.toNat + n) else Char.ofNat ('a'.toNat + (n - 10))

/-- The two digits of a byte. -/
def hexByte (b : UInt8) : List Char := [hexDigit (b.toNat / 16), hexDigit (b.toNat % 16)]

/-- The digits of a byte sequence. -/
def encodeHexChars (bytes : List UInt8) : List Char := bytes.flatMap hexByte

/-- A byte sequence as lower-case hexadecimal text. -/
def encodeHex (bytes : List UInt8) : String := String.ofList (encodeHexChars bytes)

/-- A number in lower-case hexadecimal, without leading zeros. -/
def hexNat (n : Nat) : String := String.ofList (Nat.toDigits 16 n)

/-! ## Showing a byte -/

namespace Latin1

/-- Whether the character of a byte is shown as itself between quotes. -/
def isShown (b : UInt8) : Bool :=
  (0x20 ≤ b && b ≤ 0x7E) || (0xA1 ≤ b && b != 0xAD)

/-- The character of a byte between quotes, with an escape for one that is not
    shown as itself. -/
def quoted (b : UInt8) : String :=
  let body :=
    if b == 0 then "\\0"
    else if b == 0x09 then "\\t"
    else if b == 0x0A then "\\n"
    else if b == 0x0D then "\\r"
    else if b == 0x27 then "\\'"
    else if b == 0x5C then "\\\\"
    else if isShown b then String.singleton (Char.ofNat b.toNat)
    else "\\u\x7b" ++ hexNat b.toNat ++ "\x7d"
  "'" ++ body ++ "'"

end Latin1

/-! ## Reading -/

/-- The first fault of a hexadecimal text: its length is looked at first. -/
inductive HexError where
  | oddLength
  | invalidDigit (byte : UInt8) (index : Nat)
  deriving DecidableEq, Repr

/-- The wording of a fault. -/
def HexError.message : HexError → String
  | oddLength => "Odd number of digits"
  | invalidDigit byte index =>
    "Invalid character " ++ Latin1.quoted byte ++ " at position " ++ toString index

/-- The value of a byte that spells a digit. -/
def byteDigit? (b : UInt8) : Option Nat :=
  if b < 0x80 then digitValue? (Char.ofNat b.toNat) else none

/-- Reads pairs of digits; `index` is the position of the first byte. -/
def decodeHexPairs : List UInt8 → Nat → Except HexError (List UInt8)
  | hi :: lo :: rest, index =>
    match byteDigit? hi with
    | none => .error (.invalidDigit hi index)
    | some h =>
      match byteDigit? lo with
      | none => .error (.invalidDigit lo (index + 1))
      | some l => (decodeHexPairs rest (index + 2)).map (UInt8.ofNat (h * 16 + l) :: ·)
  | [_], _ => .error .oddLength
  | [], _ => .ok []

/-- The bytes that a text spells. -/
def decodeHexBytes (text : List UInt8) : Except HexError (List UInt8) :=
  if text.length % 2 = 1 then .error .oddLength else decodeHexPairs text 0

/-- The bytes that a string spells. -/
def decodeHex (s : String) : Except HexError (List UInt8) :=
  decodeHexBytes s.toUTF8.toList

end LedgerGate.Text
