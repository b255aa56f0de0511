/-
  Key material: 32 bytes, read from hexadecimal text and written as such.

  * `Key`: 32 bytes, with their number in the type;
  * `Key.ofHex` reads a key from text: blanks around it and one `0x` are allowed;
  * `KeyPair.ofPrivate` derives the public key, so a pair always belongs together.
-/
import LedgerGate.Crypto.Ed25519
import LedgerGate.Json.Record
import LedgerGate.Text.Blank
import LedgerGate.Text.Hex

namespace LedgerGate.Crypto

/-! ## Faults -/

/-- Why no key could be made. -/
inductive KeyError where
  | random (text : String)
  | invalidHex (text : String)
  | invalidLength (expected actual : Nat)
  deriving DecidableEq, Repr

def KeyError.message : KeyError → String
  | random text => "system random source failed: " ++ text
  | invalidHex text => "invalid hex: " ++ text
  | invalidLength expected actual =>
    "expected " ++ toString expected ++ " bytes of key material, got " ++ toString actual

/-! ## Keys -/

/-- A key of 32 bytes. -/
structure Key where
  bytes : List UInt8
  length_eq : bytes.length = 32
  deriving DecidableEq

instance : Inhabited Key := ⟨⟨List.replicate 32 0, by decide⟩⟩

namespace Key

def toHex (k : Key) : String := Text.encodeHex k.bytes

/-- A key of the right number of bytes. -/
def ofBytes (bytes : List UInt8) : Except KeyError Key :=
  if h : bytes.length = 32 then .ok ⟨bytes, h⟩
  else .error (.invalidLength 32 bytes.length)

/-- Removes one `0x` at the start. -/
def dropMark : List Char → List Char
  | '0' :: 'x' :: cs => cs
  | cs => cs

/-- A key from text. -/
def ofHex (s : String) : Except KeyError Key :=
  match Text.decodeHex (String.ofList (dropMark (Text.trimBlanks s.toList))) with
  | .error e => .error (.invalidHex e.message)
  | .ok bytes => ofBytes bytes

/-- A public key as it is shown in diagnostics: its first four bytes. -/
def debug (k : Key) : String := "PublicKey(" ++ Text.encodeHex (k.bytes.take 4) ++ ")"

def toJson (k : Key) : Json := .list (k.bytes.map fun b => .integer b.toNat)

def ofJson? (j : Json) : Option Key :=
  (j.listOf? Json.uint8?).bind fun bytes => (ofBytes bytes).toOption

end Key

/-! ## Pairs -/

/-- The public key that belongs to a private key. -/
def publicOf (secret : Key) : Key :=
  match Key.ofBytes (Ed25519.publicBytes secret.bytes) with
  | .ok k => k
  | .error _ => default

/-- A public key and a private key. -/
structure KeyPair where
  publicKey : Key
  privateKey : Key
  deriving DecidableEq, Inhabited

/-- The pair of a private key. -/
def KeyPair.ofPrivate (secret : Key) : KeyPair := ⟨publicOf secret, secret⟩

/-- A pair as it is shown in diagnostics, without the private key. -/
def KeyPair.debug (p : KeyPair) : String := "KeyPair \x7b public: " ++ p.publicKey.debug ++ ", .. \x7d"

end LedgerGate.Crypto
