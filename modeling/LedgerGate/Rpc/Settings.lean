/-
  Settings of a connection to one node.
-/
import LedgerGate.Json.Record

namespace LedgerGate.Rpc

/-- Where a node is, and what an escrow deployment through it needs. -/
structure Settings where
  address : String := "http://localhost:8545/"
  chainId : UInt64 := 1337
  timeoutMs : UInt64 := 10000
  sender : Option String := none
  escrowBytecode : Option String := none
  deriving DecidableEq, Repr, Inhabited

namespace Settings

def toJson (s : Settings) : Json :=
  .object [("address", .text s.address), ("chain_id", .ofUInt64 s.chainId),
    ("timeout_ms", .ofUInt64 s.timeoutMs), ("sender", .ofOption .text s.sender),
    ("escrow_bytecode", .ofOption .text s.escrowBytecode)]

def ofJson? (j : Json) : Option Settings := do
  let r ← j.record? ["address", "chain_id", "timeout_ms", "sender", "escrow_bytecode"]
  let standard : Settings := {}
  let address ← r.withDefault "address" Json.text? standard.address
  let chainId ← r.withDefault "chain_id" Json.uint64? standard.chainId
  let timeoutMs ← r.withDefault "timeout_ms" Json.uint64? standard.timeoutMs
  let sender ← r.withDefault "sender" (Json.orNull? Json.text?) none
  let escrowBytecode ← r.withDefault "escrow_bytecode" (Json.orNull? Json.text?) none
  return ⟨address, chainId, timeoutMs, sender, escrowBytecode⟩

end Settings

end LedgerGate.Rpc
