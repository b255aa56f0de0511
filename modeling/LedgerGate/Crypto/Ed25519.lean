/-
  Key derivation of Ed25519: the public key of a 32-byte secret is a multiple of
  the base point of the twisted Edwards curve `-x² + y² = 1 + d·x²·y²` over the
  integers modulo `2^255 - 19`.

  * `publicBytes` derives the public key from the secret.
-/
import LedgerGate.Crypto.Sha512

namespace LedgerGate.Crypto.Ed25519

/-! ## The field -/

/-- The size of the field. -/
def fieldSize : Nat := Nat.pow 2 255 - 19

def addMod (a b : Nat) : Nat := (a + b) % fieldSize

def subMod (a b : Nat) : Nat := (a + fieldSize - b) % fieldSize

def mulMod (a b : Nat) : Nat := a * b % fieldSize

/-- A power, by the bits of the exponent from the highest of `bits` down. -/
def powMod (a e : Nat) : Nat → Nat
  | 0 => 1
  | bits + 1 =>
    let half := powMod a (e / 2) bits
    let square := mulMod half half
    if e % 2 = 1 then mulMod square a else square

/-- The inverse: the power by the field size less two. -/
def inverse (a : Nat) : Nat := powMod a (fieldSize - 2) 255

/-! ## The curve -/

/-- The constant of the curve. -/
def curveConstant : Nat :=
  37095705934669439343138083508754565189542113879843219016388785533085940283555

/-- A point `(x/z, y/z)`, with `t = x·y/z`. -/
structure Point where
  x : Nat
  y : Nat
  z : Nat
  t : Nat

def Point.zero : Point := ⟨0, 1, 1, 0⟩

/-- The abscissa of the base point. -/
def baseX : Nat :=
  15112221349535400772501151409588531511454012693041857206046113283949847762202

/-- The ordinate of the base point. -/
def baseY : Nat :=
  46316835694926478169428394003475163141307993866256225615783033603165251855960

def Point.base : Point := ⟨baseX, baseY, 1, mulMod baseX baseY⟩

/-- The sum of two points; the law is complete, so doubling is no special case. -/
def Point.add (p q : Point) : Point :=
  let a := mulMod (subMod p.y p.x) (subMod q.y q.x)
  let b := mulMod (addMod p.y p.x) (addMod q.y q.x)
  let c := mulMod (mulMod p.t (2 * curveConstant)) q.t
  let d := mulMod (2 * p.z) q.z
  let e := subMod b a
  let f := subMod d c
  let g := addMod d c
  let h := addMod b a
  ⟨mulMod e f, mulMod g h, mulMod f g, mulMod e h⟩

/-- A multiple of a point, by the bits of the factor. -/
def Point.multiple (p : Point) (n : Nat) : Nat → Point
  | 0 => .zero
  | bits + 1 =>
    let half := p.multiple (n / 2) bits
    let double := half.add half
    if n % 2 = 1 then double.add p else double

/-! ## Keys -/

/-- The number of a byte sequence, the lowest byte first. -/
def numberOfBytes (bytes : List UInt8) : Nat :=
  bytes.foldr (fun b n => b.toNat + 256 * n) 0

/-- The lowest `count` bytes of a number, the lowest first. -/
def bytesOfNumber : Nat → Nat → List UInt8
  | 0, _ => []
  | count + 1, n => UInt8.ofNat (n % 256) :: bytesOfNumber count (n / 256)

/-- The factor of a secret: half of its hash, with the lowest three bits and the
    highest cleared and the second highest set. -/
def factor (secret : List UInt8) : Nat :=
  let n := numberOfBytes ((Sha512.digest secret).take 32)
  n % Nat.pow 2 254 / 8 * 8 + Nat.pow 2 254

/-- A point as 32 bytes: its ordinate, and the parity of its abscissa on top. -/
def Point.encode (p : Point) : List UInt8 :=
  let zInverse := inverse p.z
  let x := mulMod p.x zInverse
  let y := mulMod p.y zInverse
  bytesOfNumber 32 (y + x % 2 * Nat.pow 2 255)

/-- The public key of a secret. -/
def publicBytes (secret : List UInt8) : List UInt8 :=
  (Point.base.multiple (factor secret) 255).encode

end LedgerGate.Crypto.Ed25519
