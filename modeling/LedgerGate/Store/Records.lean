/-
  Records of the directories: addresses and tokens, with their JSON forms.
-/
import LedgerGate.Brand
import LedgerGate.Time
import LedgerGate.Work

namespace LedgerGate.Store

/-! ## Addresses -/

/-- An address that the gateway acts for. Without a ledger it lives on the
    default one. -/
structure AddressRecord where
  address : String
  ledgerId : Option String
  brand : Brand
  wallet : WalletId
  deriving DecidableEq, Repr, Inhabited

namespace AddressRecord

def toJson (r : AddressRecord) : Json :=
  .object [("address", .text r.address), ("ledger_id", .ofOption .text r.ledgerId),
    ("brand", r.brand.toJson), ("wallet_id", r.wallet.toJson)]

def ofJson? (j : Json) : Option AddressRecord := do
  let r ← j.record? ["address", "ledger_id", "brand", "wallet_id"]
  return ⟨← r.required "address" Json.text?, ← r.optional "ledger_id" Json.text?,
    ← r.required "brand" Brand.ofJson?, ← r.required "wallet_id" WalletId.ofJson?⟩

end AddressRecord

/-! ## Tokens -/

/-- A token. `controller` is the address that acts for it, `loading` says that its
    state is not complete yet. -/
structure TokenRecord where
  symbol : String
  name : String
  brand : Brand
  ledgerId : Option String
  controller : String
  loading : Bool
  creationBlock : Option UInt64
  contract : Option String
  createdAt : Timestamp
  deriving DecidableEq, Repr, Inhabited

namespace TokenRecord

def toJson (r : TokenRecord) : Json :=
  .object [("symbol", .text r.symbol), ("name", .text r.name), ("brand", r.brand.toJson),
    ("ledger_id", .ofOption .text r.ledgerId), ("controller", .text r.controller),
    ("loading", .bool r.loading), ("creation_block", .ofOption .ofUInt64 r.creationBlock),
    ("contract", .ofOption .text r.contract), ("created_at", r.createdAt.toJson)]

def ofJson? (j : Json) : Option TokenRecord := do
  let r ← j.record? ["symbol", "name", "brand", "ledger_id", "controller", "loading",
    "creation_block", "contract", "created_at"]
  let symbol ← r.required "symbol" Json.text?
  let name ← r.required "name" Json.text?
  let brand ← r.required "brand" Brand.ofJson?
  let ledgerId ← r.optional "ledger_id" Json.text?
  let controller ← r.required "controller" Json.text?
  let loading ← r.required "loading" Json.bool?
  let creationBlock ← r.optional "creation_block" Json.uint64?
  let contract ← r.optional "contract" Json.text?
  let createdAt ← r.required "created_at" Timestamp.ofJson?
  return ⟨symbol, name, brand, ledgerId, controller, loading, creationBlock, contract, createdAt⟩

end TokenRecord

end LedgerGate.Store
