/-
  JSON values and their compact text.

  An object keeps its fields in the order they were written, repeated names
  included: which of them count is for the reader of a type to say. `invalid`
  stands for a part of a text that is well formed and denotes no value (a lone
  surrogate, a number out of range, too deep a nesting); reading it as anything
  fails, skipping it does not.

  * `Json.render` writes a value without blanks.
-/
import LedgerGate.Double
import LedgerGate.Text.Hex

namespace LedgerGate

/-- A JSON value. -/
inductive Json where
  | null
  | bool (b : Bool)
  | integer (n : Int)
  | double (d : Double)
  | text (s : String)
  | list (items : List Json)
  | object (fields : List (String × Json))
  | invalid
  deriving Inhabited

namespace Json

/-! ## Text of a value -/

/-- The layout of numbers with a fraction or an exponent. -/
def layout : Double.Layout where
  whole := 16
  leading := 5

/-- A character inside quotes. -/
def escape (c : Char) : List Char :=
  if c = '"' then ['\\', '"']
  else if c = '\\' then ['\\', '\\']
  else if c = '\x08' then ['\\', 'b']
  else if c = '\x0c' then ['\\', 'f']
  else if c = '\n' then ['\\', 'n']
  else if c = '\r' then ['\\', 'r']
  else if c = '\t' then ['\\', 't']
  else if c.toNat < 0x20 then
    ['\\', 'u', '0', '0', Text.hexDigit (c.toNat / 16), Text.hexDigit (c.toNat % 16)]
  else [c]

/-- A text between quotes. -/
def quote (s : List Char) : List Char := '"' :: s.flatMap escape ++ ['"']

/-- The characters of an integer. -/
def renderInt (n : Int) : List Char := (toString n).toList

mutual

/-- A value without blanks; a double that is no number is written as null. -/
def render : Json → List Char
  | null => ['n', 'u', 'l', 'l']
  | bool true => ['t', 'r', 'u', 'e']
  | bool false => ['f', 'a', 'l', 's', 'e']
  | integer n => renderInt n
  | double d => if d.isFinite then d.text layout else ['n', 'u', 'l', 'l']
  | text s => quote s.toList
  | list [] => ['[', ']']
  | list (x :: xs) => '[' :: render x ++ renderItems xs
  | object [] => ['{', '}']
  | object ((k, v) :: fs) => '{' :: quote k.toList ++ ':' :: render v ++ renderFields fs
  | invalid => ['n', 'u', 'l', 'l']

/-- The further items of a list and its end. -/
def renderItems : List Json → List Char
  | [] => [']']
  | x :: xs => ',' :: render x ++ renderItems xs

/-- The further fields of an object and its end. -/
def renderFields : List (String × Json) → List Char
  | [] => ['}']
  | (k, v) :: fs => ',' :: quote k.toList ++ ':' :: render v ++ renderFields fs

end

/-- The compact text of a value. -/
def compact (j : Json) : String := String.ofList j.render

/-! ## Building values -/

/-- A field that is left out when there is no value for it. -/
def optional (name : String) (value : Option Json) : List (String × Json) :=
  match value with
  | some v => [(name, v)]
  | none => []

/-- A value or null. -/
def ofOption {α : Type} (f : α → Json) : Option α → Json
  | some a => f a
  | none => .null

def ofUInt64 (n : UInt64) : Json := .integer n.toNat

def ofUInt32 (n : UInt32) : Json := .integer n.toNat

def ofNat (n : Nat) : Json := .integer n

end Json

end LedgerGate
