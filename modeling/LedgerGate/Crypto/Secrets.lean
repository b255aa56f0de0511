/-
  A source of secrets: a seed, and how many were drawn from it.

  The seed must not be known to others; then neither are the secrets.
-/
import LedgerGate.Crypto.Key
import LedgerGate.Crypto.Sha512

namespace LedgerGate.Crypto

/-- A source of secrets. -/
structure Secrets where
  seed : List UInt8
  drawn : Nat
  deriving Inhabited

namespace Secrets

def ofSeed (seed : List UInt8) : Secrets := ⟨seed, 0⟩

/-- The bytes of a secret: the first half of the digest of the seed and a counter. -/
def bytes (s : Secrets) : List UInt8 :=
  (Sha512.digest (s.seed ++ (toString s.drawn).toUTF8.toList)).take 32

/-- Draws a secret. -/
def draw (s : Secrets) : Except KeyError Key × Secrets :=
  (Key.ofBytes s.bytes, { s with drawn := s.drawn + 1 })

end Secrets

end LedgerGate.Crypto
