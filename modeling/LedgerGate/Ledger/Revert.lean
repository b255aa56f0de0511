/-
  Encoded failure reasons.

  A ledger may report why a call failed as encoded data: a selector of four
  bytes in hexadecimal, then words of 32 bytes, the highest byte first.

  * `errorText?`: the text of an error. The first word is the offset of the
    length, the length stands before the bytes of the text;
  * `panicText?`: the wording of a panic code;
  * `decode?`: the readable form of a reason, nothing if it is not encoded.
-/
import LedgerGate.Text.Hex

namespace LedgerGate.Ledger.Revert

/-! ## Words -/

/-- The number of a byte sequence, the highest byte first. -/
def number (bytes : List UInt8) : Nat := bytes.foldl (fun n b => n * 256 + b.toNat) 0

/-- The `count` bytes at an offset, if they are all there. -/
def slice? (data : List UInt8) (offset count : Nat) : Option (List UInt8) :=
  if offset + count ≤ data.length then some ((data.drop offset).take count) else none

/-- The number of bytes of a word. -/
def wordSize : Nat := 32

/-- The word at an offset, if it fits 64 bits. -/
def shortWord? (data : List UInt8) (offset : Nat) : Option Nat :=
  (slice? data offset wordSize).bind fun w => if number w < UInt64.size then some (number w) else none

/-! ## Errors and panics -/

/-- The text of an encoded error. -/
def errorText? (data : List UInt8) : Option String :=
  (shortWord? data 0).bind fun offset =>
    (shortWord? data offset).bind fun length =>
      (slice? data (offset + wordSize) length).bind fun bytes =>
        String.fromUTF8? (ByteArray.mk bytes.toArray)

/-- The codes with a wording of their own. -/
def panicWordings : List (Nat × String) := [
  (0x01, "Explicit assert invoked (0x01)"),
  (0x11, "arithmetic overflow or underflow (0x11)"),
  (0x12, "division by zero (or modulo zero) (0x12)"),
  (0x22, "access attempted of incorrect encoded storage byte array (0x22)"),
  (0x31, "'.pop()' called on an empty array (0x31)"),
  (0x32, "array index out of bounds. (0x32)"),
  (0x41, "Too much memory allocated, or array too large (0x41)"),
  (0x51, "called an zero-initialized variable of internal function type (0x51)")]

/-- What is said of a panic code: its wording, or the code itself. -/
def panicWording (code : Nat) : String :=
  match panicWordings.find? (·.1 == code) with
  | some (_, wording) => wording
  | none => "0x" ++ Text.hexNat code

/-- The text of an encoded panic. -/
def panicText? (data : List UInt8) : Option String :=
  (slice? data 0 wordSize).map fun w => "PANIC: " ++ panicWording (number w)

/-! ## Reasons -/

/-- The selector of an error with a text. -/
def errorSelector : List Char := "0x08c379a0".toList

/-- The selector of a panic. -/
def panicSelector : List Char := "0x4e487b71".toList

/-- What follows a selector, in any letter case. -/
def afterSelector? (selector reason : List Char) : Option (List Char) :=
  if (reason.take selector.length).map Char.toLower = selector then
    some (reason.drop selector.length)
  else none

/-- The bytes that a text spells. -/
def body? (text : List Char) : Option (List UInt8) :=
  (Text.decodeHex (String.ofList text)).toOption

/-- The readable form of an encoded reason. -/
def decode? (reason : String) : Option String :=
  match afterSelector? errorSelector reason.toList with
  | some rest => (body? rest).bind errorText?
  | none =>
    match afterSelector? panicSelector reason.toList with
    | some rest => (body? rest).bind panicText?
    | none => none

end LedgerGate.Ledger.Revert
