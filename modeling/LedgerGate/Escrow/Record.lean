/-
  The stored record of an escrow: the address of its contract and the key pair of
  its owner, as three lines of text.

  * `Record.format` writes a record, `Record.parse` reads one;
  * `claimMarker` stands in the place of a record while a deployment is under way.
-/
import LedgerGate.Fault
import LedgerGate.Text.Blank

namespace LedgerGate.Escrow

/-- The address of a deployed contract and the public key of its owner. -/
structure Identity where
  contractAddress : String
  publicKey : Crypto.Key
  deriving DecidableEq

/-- The address of a deployed contract and the keys of its owner. -/
structure Record where
  address : String
  keys : Crypto.KeyPair
  deriving DecidableEq

/-- What is stored while a deployment is under way. -/
def claimMarker : String := "#deploying"

namespace Record

def identity (r : Record) : Identity := ⟨r.address, r.keys.publicKey⟩

/-- The record as three lines. -/
def format (r : Record) : String :=
  r.address ++ "\n" ++ r.keys.publicKey.toHex ++ "\n" ++ r.keys.privateKey.toHex

/-! ## Reading -/

/-- Cuts a text at every line break. -/
def lines : List Char → List (List Char)
  | [] => [[]]
  | c :: cs =>
    if c = '\n' then [] :: lines cs
    else
      match lines cs with
      | [] => [[c]]
      | l :: ls => (c :: l) :: ls

/-- The fault of a text that is no record. -/
def malformed (what : String) : Fault := .own ("malformed escrow record: " ++ what)

/-- A key on a line; blanks around it are allowed. -/
def parseKey (line : List Char) : Except Fault Crypto.Key :=
  match Crypto.Key.ofHex (String.ofList (Text.trimBlanks line)) with
  | .ok k => .ok k
  | .error e => .error (malformed e.message)

/-- The record in a text of three lines. The public key must be the one that
    belongs to the private key. -/
def parse (text : String) : Except Fault Record :=
  match lines text.toList with
  | [first, second, third] =>
    let address := String.ofList (Text.trimBlanks first)
    if address.isEmpty then .error (malformed "empty contract address")
    else
      match parseKey second with
      | .error f => .error f
      | .ok publicKey =>
        match parseKey third with
        | .error f => .error f
        | .ok privateKey =>
          let keys := Crypto.KeyPair.ofPrivate privateKey
          if keys.publicKey = publicKey then .ok ⟨address, keys⟩
          else .error (malformed "public key does not belong to private key")
  | _ => .error (malformed "expected three lines")

end Record

end LedgerGate.Escrow
