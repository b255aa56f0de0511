/-
  Doubles: binary floating-point numbers of 64 bits, held by their bits, and
  their shortest decimal text.

  * `scaled` reads a finite double as `m · 2^q`;
  * `shortest` is the decimal with the fewest digits inside the interval of the
    reals that round to the double, the nearest of those; `Tie` says which of two
    equally near;
  * `Layout` says which decimals are written without an exponent, and `text`
    writes a double in a layout.
-/
namespace LedgerGate

/-- A double, by its bits: sign, eleven bits of exponent, 52 of fraction. -/
structure Double where
  bits : UInt64
  deriving DecidableEq, Repr, Inhabited

namespace Double

/-! ## Parts -/

/-- The double of a machine number. -/
def ofFloat (f : Float) : Double := ⟨f.toBits⟩

def isNegative (d : Double) : Bool := d.bits >>> 63 == 1

/-- The exponent field. -/
def exponent (d : Double) : Nat := ((d.bits >>> 52) &&& 0x7FF).toNat

/-- The fraction field. -/
def fraction (d : Double) : Nat := (d.bits &&& 0xFFFFFFFFFFFFF).toNat

def isNaN (d : Double) : Bool := d.exponent == 0x7FF && d.fraction != 0

def isInfinite (d : Double) : Bool := d.exponent == 0x7FF && d.fraction == 0

def isFinite (d : Double) : Bool := d.exponent != 0x7FF

def isZero (d : Double) : Bool := d.exponent == 0 && d.fraction == 0

/-- The size of a finite double as `m · 2^q`. -/
def scaled (d : Double) : Nat × Int :=
  if d.exponent = 0 then (d.fraction, -1074)
  else (d.fraction + Nat.pow 2 52, (d.exponent : Int) - 1075)

/-! ## The shortest decimal -/

/-- Which of two neighbours is taken that are equally near. -/
inductive Tie where
  | even
  | up
  deriving DecidableEq, Repr

/-- Whether the lower of two equally near neighbours is taken. -/
def Tie.isDown : Tie → Nat → Bool
  | even, below => below % 2 == 0
  | up, _ => false

/-- A decimal `digits · 10^scale`. -/
structure Decimal where
  digits : Nat
  scale : Int
  deriving DecidableEq, Repr

/-- The reals that round to a double, in units of a quarter of its last bit. -/
structure Interval where
  low : Nat
  mid : Nat
  high : Nat
  closed : Bool
  scale : Int

/-- The interval of `m · 2^q`: half a unit to each side, a quarter below a power
    of two; its ends round to the double iff `m` is even. -/
def Interval.of (m : Nat) (q : Int) : Interval where
  low := if m = Nat.pow 2 52 ∧ q ≠ -1074 then 4 * m - 1 else 4 * m - 2
  mid := 4 * m
  high := 4 * m + 2
  closed := m % 2 == 0
  scale := q - 2

/-- The factors that bring `c · 10^k` and `x · 2^s` to whole numbers of one unit. -/
def unify (k s : Int) : Nat × Nat :=
  (Nat.pow 10 k.toNat * Nat.pow 2 (-s).toNat, Nat.pow 2 s.toNat * Nat.pow 10 (-k).toNat)

/-- Whether the grid point `c · 10^k`, as a whole number of units, is inside. -/
def Interval.holds (i : Interval) (point unit : Nat) : Bool :=
  if i.closed then i.low * unit ≤ point && point ≤ i.high * unit
  else i.low * unit < point && point < i.high * unit

/-- The neighbour of the middle on the grid of `10^k` that is inside the
    interval, the nearer of two. -/
def Interval.hit? (tie : Tie) (i : Interval) (k : Int) : Option Decimal :=
  let (step, unit) := unify k i.scale
  let below := i.mid * unit / step
  let above := below + 1
  let middle := i.mid * unit
  match i.holds (below * step) unit, i.holds (above * step) unit with
  | true, false => some ⟨below, k⟩
  | false, true => some ⟨above, k⟩
  | false, false => none
  | true, true =>
    let down := middle - below * step
    let up := above * step - middle
    if down < up then some ⟨below, k⟩
    else if up < down then some ⟨above, k⟩
    else some ⟨if tie.isDown below then below else above, k⟩

/-- Tries the grids of `10^k`, `10^(k-1)`, … and takes the first hit. -/
def Interval.search (tie : Tie) (i : Interval) : Nat → Int → Decimal
  | 0, k => ⟨0, k⟩
  | n + 1, k => (i.hit? tie k).getD (i.search tie n (k - 1))

/-- The shortest decimal that reads back as `m · 2^q`, for `m` not zero. The
    first grid is coarser than the double by one digit or two, and seventeen
    digits always suffice. -/
def shortest (tie : Tie) (m : Nat) (q : Int) : Decimal :=
  let magnitude : Int := (Nat.log2 m + 1 : Nat) + q
  (Interval.of m q).search tie 24 (Int.fdiv (magnitude * 30103) 100000 + 1)

/-! ## Text -/

/-- How decimals are laid out: a number whose point stands at most `whole`
    digits right of its first digit, or fewer than `leading` zeros left of it,
    is written without an exponent. -/
structure Layout where
  whole : Int
  leading : Int
  tie : Tie := .even

def zeros (n : Nat) : List Char := List.replicate n '0'

/-- A decimal without an exponent; a whole number gets `.0`. -/
def positional (digits : List Char) (scale : Int) : List Char :=
  let point := digits.length + scale
  if 0 ≤ scale then digits ++ zeros scale.toNat ++ ['.', '0']
  else if 0 < point then digits.take point.toNat ++ '.' :: digits.drop point.toNat
  else '0' :: '.' :: zeros (-point).toNat ++ digits

/-- A decimal with one digit before the point and a signed exponent. -/
def scientific (digits : List Char) (scale : Int) : List Char :=
  let power := digits.length + scale - 1
  let mantissa := match digits with
    | [d] => [d]
    | d :: ds => d :: '.' :: ds
    | [] => []
  mantissa ++ 'e' :: (if power < 0 then '-' else '+') :: (toString power.natAbs).toList

/-- The text of a finite double that is not zero, without its sign. -/
def Layout.body (l : Layout) (d : Decimal) : List Char :=
  let digits := (toString d.digits).toList
  let point := digits.length + d.scale
  if (0 < point ∧ point ≤ l.whole) ∨ (point ≤ 0 ∧ -l.leading < point) then
    positional digits d.scale
  else scientific digits d.scale

/-- A finite double in a layout; zero keeps its sign. -/
def text (l : Layout) (d : Double) : List Char :=
  let body := if d.isZero then ['0', '.', '0']
    else l.body (shortest l.tie d.scaled.1 d.scaled.2)
  if d.isNegative then '-' :: body else body

end Double

end LedgerGate
