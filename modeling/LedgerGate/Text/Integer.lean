/-
  Reading integers from text.

  A digit text is read from the left, and the first fault decides: a character
  that is no digit of the radix, or a digit that carries the value over the
  limit.

  * `readDigits` reads the digits alone;
  * `readNat` allows one leading plus sign, `readInt` one sign of either kind.
-/
namespace LedgerGate.Text

/-! ## Faults -/

/-- Why a text is no integer of the wanted range. -/
inductive IntegerError where
  | empty
  | invalidDigit
  | tooLarge
  | tooSmall
  deriving DecidableEq, Repr

/-- The wording of a fault. -/
def IntegerError.message : IntegerError → String
  | empty => "cannot parse integer from empty string"
  | invalidDigit => "invalid digit found in string"
  | tooLarge => "number too large to fit in target type"
  | tooSmall => "number too small to fit in target type"

/-! ## Digits -/

/-- The value of a character as a digit below sixteen, in either case. -/
def digitValue? (c : Char) : Option Nat :=
  if '0' ≤ c ∧ c ≤ '9' then some (c.toNat - '0'.toNat)
  else if 'a' ≤ c ∧ c ≤ 'f' then some (c.toNat - 'a'.toNat + 10)
  else if 'A' ≤ c ∧ c ≤ 'F' then some (c.toNat - 'A'.toNat + 10)
  else none

/-- Reads digits of `radix` onto `acc`, never passing `limit`; `excess` is the
    fault reported when the limit is passed. -/
def readDigits (radix limit : Nat) (excess : IntegerError) :
    List Char → Nat → Except IntegerError Nat
  | [], acc => .ok acc
  | c :: cs, acc =>
    match digitValue? c with
    | some d =>
      if d < radix then
        if acc * radix + d ≤ limit then readDigits radix limit excess cs (acc * radix + d)
        else .error excess
      else .error .invalidDigit
    | none => .error .invalidDigit

/-- An unsigned integer of `radix`, at most `limit`, after one optional plus sign. -/
def readNat (radix limit : Nat) : List Char → Except IntegerError Nat
  | [] => .error .empty
  | ['+'] => .error .invalidDigit
  | '+' :: cs => readDigits radix limit .tooLarge cs 0
  | cs => readDigits radix limit .tooLarge cs 0

/-- A decimal integer between `-(low)` and `high`, after one optional sign. -/
def readInt (low high : Nat) : List Char → Except IntegerError Int
  | [] => .error .empty
  | ['+'] => .error .invalidDigit
  | ['-'] => .error .invalidDigit
  | '+' :: cs => (readDigits 10 high .tooLarge cs 0).map Int.ofNat
  | '-' :: cs => (readDigits 10 low .tooSmall cs 0).map fun n => -Int.ofNat n
  | cs => (readDigits 10 high .tooLarge cs 0).map Int.ofNat

end LedgerGate.Text
