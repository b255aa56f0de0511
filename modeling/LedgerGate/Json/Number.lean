/-
  Numbers in JSON text.

  A number is an integer when it has neither point nor exponent, is not a
  negative zero, and fits 64 bits with or without a sign. Any other number is a
  double: its digits, as many as fit 64 bits, make a whole significand, the rest
  only counts towards the exponent; the significand is rounded to a double and
  then multiplied or divided by a power of ten, rounding again. A double too
  large denotes no value.

  * `Json.number?` reads the characters of one number.
-/
import LedgerGate.Json.Basic

namespace LedgerGate.Json

/-- The largest significand. -/
def significandLimit : Nat := UInt64.size - 1

/-- Takes leading decimal digits onto a significand as long as it fits; returns
    it, the digits taken and whether any were left over, and the rest. -/
def takeDigits : List Char → Nat → Nat → Nat × Nat × List Char
  | c :: cs, acc, taken =>
    if c.isDigit ∧ acc * 10 + (c.toNat - '0'.toNat) ≤ significandLimit then
      takeDigits cs (acc * 10 + (c.toNat - '0'.toNat)) (taken + 1)
    else (acc, taken, c :: cs)
  | [], acc, taken => (acc, taken, [])

/-- Ten to a power of at most 308, as a double. -/
def powerOfTen (n : Nat) : Float := Float.ofScientific 1 false n

/-- The significand times ten to the exponent, or nothing when it is too large.
    Below `10^-308` the division is made in steps. -/
def scaleDown (f : Float) : Nat → Nat → Float
  | 0, _ => f
  | n + 1, e => if e ≤ 308 then f / powerOfTen e
      else if f == 0.0 then f
      else scaleDown (f / powerOfTen 308) n (e - 308)

def scaleParts (significand : Nat) (exponent : Int) : Option Float :=
  let f := (UInt64.ofNat significand).toFloat
  if 0 ≤ exponent then
    if exponent ≤ 308 then
      let g := f * powerOfTen exponent.toNat
      if g.isInf then none else some g
    else if f == 0.0 then some f
    else none
  else some (scaleDown f (exponent.natAbs / 308 + 1) exponent.natAbs)

/-- A double with its sign. -/
def signed (negative : Bool) (f : Float) : Json :=
  .double (Double.ofFloat (if negative then -f else f))

/-- A double, or the mark of a number out of range. -/
def ofParts (negative : Bool) (significand : Nat) (exponent : Int) : Json :=
  match scaleParts significand exponent with
  | some f => signed negative f
  | none => .invalid

/-- The largest exponent that is read as a number. -/
def exponentLimit : Nat := Nat.pow 2 31 - 1

/-- Takes the digits of an exponent, or nothing when they pass the limit. -/
def exponentValue (cs : List Char) : Option Nat :=
  cs.foldl (fun acc c => acc.bind fun n =>
    let next := n * 10 + (c.toNat - '0'.toNat)
    if next ≤ exponentLimit then some next else none) (some 0)

/-- The exponent part that follows a significand. -/
def exponentPart (negative : Bool) (significand : Nat) (start : Int) (cs : List Char) :
    Option Json :=
  let (minus, digits) := match cs with
    | '+' :: ds => (false, ds)
    | '-' :: ds => (true, ds)
    | ds => (false, ds)
  if digits.isEmpty || !digits.all Char.isDigit then none
  else
    match exponentValue digits with
    | some e => some (ofParts negative significand (if minus then start - e else start + e))
    | none =>
      if significand != 0 && !minus then some .invalid else some (signed negative 0.0)

/-- What follows the digits of a number with a fraction: an exponent or nothing. -/
def afterFraction (negative : Bool) (significand : Nat) (scale : Int) : List Char → Option Json
  | [] => some (ofParts negative significand scale)
  | 'e' :: cs => exponentPart negative significand scale cs
  | 'E' :: cs => exponentPart negative significand scale cs
  | _ => none

/-- The fraction digits after a point; those that no longer fit are dropped. -/
def fractionPart (negative : Bool) (significand : Nat) (start : Int) (cs : List Char) :
    Option Json :=
  let (all, taken, rest) := takeDigits cs significand 0
  let dropped := rest.dropWhile Char.isDigit
  if taken = 0 ∧ dropped.length = rest.length then none
  else afterFraction negative all (start - taken) dropped

/-- A whole number of either sign: an integer if it fits, else a double. -/
def wholeNumber (negative : Bool) (significand : Nat) : Json :=
  if !negative then .integer significand
  else if significand = 0 ∨ Nat.pow 2 63 < significand then
    signed true (UInt64.ofNat significand).toFloat
  else .integer (-(significand : Int))

/-- A number without its sign. -/
def unsignedNumber? (negative : Bool) (cs : List Char) : Option Json :=
  match cs with
  | '0' :: c :: _ => if c.isDigit then none else body cs
  | c :: _ => if c.isDigit then body cs else none
  | [] => none
where
  /-- The digits, then a fraction or an exponent. -/
  body (cs : List Char) : Option Json :=
    let (significand, _, rest) := takeDigits cs 0 0
    let tail := rest.dropWhile Char.isDigit
    let excess : Int := rest.length - tail.length
    match tail with
    | [] => if excess = 0 then some (wholeNumber negative significand)
        else some (ofParts negative significand excess)
    | '.' :: ds => fractionPart negative significand excess ds
    | 'e' :: ds => exponentPart negative significand excess ds
    | 'E' :: ds => exponentPart negative significand excess ds
    | _ => none

/-- The value of the characters of one number; nothing if they break the grammar. -/
def number? : List Char → Option Json
  | '-' :: cs => unsignedNumber? true cs
  | cs => unsignedNumber? false cs

end LedgerGate.Json
