/-
  Points in time in TOML documents: a date, a time of day, or both, and with both
  maybe an offset.

  * `Moment.read?` reads one from the start of a text, `Moment.parse?` the whole of
    a text;
  * `Moment.display` writes one in its normal form.
-/
namespace LedgerGate.Toml

/-! ## Parts -/

/-- A day of the calendar. -/
structure Day where
  year : Nat
  month : Nat
  day : Nat
  deriving DecidableEq, Repr, Inhabited

/-- A time of day, with a fraction of a second in billionths. -/
structure Clock where
  hour : Nat
  minute : Nat
  second : Nat
  fraction : Nat
  deriving DecidableEq, Repr, Inhabited

/-- An offset from universal time, in minutes where it has a number. -/
inductive Offset where
  | universal
  | minutes (n : Int)
  deriving DecidableEq, Repr, Inhabited

/-- A point in time as far as it is given. -/
structure Moment where
  day : Option Day
  clock : Option Clock
  offset : Option Offset
  deriving DecidableEq, Repr, Inhabited

namespace Moment

/-! ## Writing -/

/-- A number with leading zeros up to a width. -/
def padded (width n : Nat) : String :=
  let digits := toString n
  String.ofList (List.replicate (width - digits.length) '0') ++ digits

/-- A fraction of a second without trailing zeros. -/
def fractionText (n : Nat) : String :=
  if n = 0 then ""
  else
    let digits := (padded 9 n).toList
    "." ++ String.ofList ((digits.reverse.dropWhile (· == '0')).reverse)

def dayText (d : Day) : String :=
  padded 4 d.year ++ "-" ++ padded 2 d.month ++ "-" ++ padded 2 d.day

def clockText (c : Clock) : String :=
  padded 2 c.hour ++ ":" ++ padded 2 c.minute ++ ":" ++ padded 2 c.second ++
    fractionText c.fraction

def offsetText : Offset → String
  | .universal => "Z"
  | .minutes n =>
    (if n < 0 then "-" else "+") ++ padded 2 (n.natAbs / 60) ++ ":" ++ padded 2 (n.natAbs % 60)

/-- The normal form of a point in time. -/
def display (m : Moment) : String :=
  (m.day.map dayText).getD "" ++
    (if m.day.isSome && m.clock.isSome then "T" else "") ++
    (m.clock.map clockText).getD "" ++ (m.offset.map offsetText).getD ""

/-! ## Reading -/

/-- Exactly `count` decimal digits. -/
def digits? : Nat → List Char → Nat → Option (Nat × List Char)
  | 0, cs, acc => some (acc, cs)
  | count + 1, c :: cs, acc =>
    if c.isDigit then digits? count cs (acc * 10 + (c.toNat - '0'.toNat)) else none
  | _ + 1, [], _ => none

/-- Two digits of a number between two bounds. -/
def pair? (low high : Nat) (cs : List Char) : Option (Nat × List Char) :=
  (digits? 2 cs 0).bind fun (n, rest) => if low ≤ n ∧ n ≤ high then some (n, rest) else none

/-- One given character. -/
def mark? (c : Char) : List Char → Option (List Char)
  | d :: cs => if d = c then some cs else none
  | [] => none

def isLeap (year : Nat) : Bool := year % 4 == 0 && (year % 100 != 0 || year % 400 == 0)

def daysIn (year month : Nat) : Nat :=
  if month = 2 then if isLeap year then 29 else 28
  else if month = 4 ∨ month = 6 ∨ month = 9 ∨ month = 11 then 30
  else 31

def day? (cs : List Char) : Option (Day × List Char) := do
  let (year, cs) ← digits? 4 cs 0
  let cs ← mark? '-' cs
  let (month, cs) ← pair? 1 12 cs
  let cs ← mark? '-' cs
  let (day, cs) ← pair? 1 (daysIn year month) cs
  return (⟨year, month, day⟩, cs)

/-- A fraction of a second; digits beyond the ninth are dropped. -/
def fraction? (cs : List Char) : Option (Nat × List Char) :=
  match cs with
  | '.' :: rest =>
    let digits := rest.takeWhile Char.isDigit
    if digits.isEmpty then none
    else
      let kept := digits.take 9
      let n := kept.foldl (fun acc c => acc * 10 + (c.toNat - '0'.toNat)) 0
      some (n * Nat.pow 10 (9 - kept.length), rest.drop digits.length)
  | _ => none

def clock? (cs : List Char) : Option (Clock × List Char) := do
  let (hour, cs) ← pair? 0 23 cs
  let cs ← mark? ':' cs
  let (minute, cs) ← pair? 0 59 cs
  let cs ← mark? ':' cs
  let (second, cs) ← pair? 0 60 cs
  let (fraction, cs) := (fraction? cs).getD (0, cs)
  return (⟨hour, minute, second, fraction⟩, cs)

def offset? : List Char → Option (Offset × List Char)
  | 'Z' :: cs => some (.universal, cs)
  | 'z' :: cs => some (.universal, cs)
  | '+' :: cs => numbered 1 cs
  | '-' :: cs => numbered (-1) cs
  | _ => none
where
  /-- Hours and minutes behind a sign. -/
  numbered (sign : Int) (cs : List Char) : Option (Offset × List Char) := do
    let (hour, cs) ← pair? 0 23 cs
    let cs ← mark? ':' cs
    let (minute, cs) ← pair? 0 59 cs
    return (.minutes (sign * (hour * 60 + minute : Nat)), cs)

/-- The time of day that follows a date behind a separator. -/
def afterDay? : List Char → Option (Clock × List Char)
  | c :: cs => if c = 'T' ∨ c = 't' ∨ c = ' ' then clock? cs else none
  | [] => none

/-- A point in time at the start of a text. -/
def read? (cs : List Char) : Option (Moment × List Char) :=
  match day? cs with
  | some (day, cs) =>
    match afterDay? cs with
    | some (clock, cs) =>
      match offset? cs with
      | some (offset, cs) => some (⟨some day, some clock, some offset⟩, cs)
      | none => some (⟨some day, some clock, none⟩, cs)
    | none => some (⟨some day, none, none⟩, cs)
  | none => (clock? cs).map fun (clock, cs) => (⟨none, some clock, none⟩, cs)

/-- A point in time that fills a text. -/
def parse? (cs : List Char) : Option Moment :=
  match read? cs with
  | some (m, []) => some m
  | _ => none

end Moment

end LedgerGate.Toml
