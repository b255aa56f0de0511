/-
  Lengths of time as text, in the largest unit that leaves no leading zero:
  whole seconds with the fraction they need, else whole milliseconds.
-/
namespace LedgerGate.Text

/-- The fraction digits of a number of thousandths, without trailing zeros. -/
def thousandths (n : Nat) : String :=
  if n = 0 then ""
  else
    let digits := [n / 100, n / 10 % 10, n % 10]
    let kept := (digits.reverse.dropWhile (· == 0)).reverse
    "." ++ String.join (kept.map toString)

/-- A number of milliseconds as text. -/
def durationText (ms : Nat) : String :=
  if ms = 0 then "0ns"
  else if ms < 1000 then toString ms ++ "ms"
  else toString (ms / 1000) ++ thousandths (ms % 1000) ++ "s"

end LedgerGate.Text
