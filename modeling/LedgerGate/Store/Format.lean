/-
  The written form of a store on disk: its three tables as one JSON object.
-/
import LedgerGate.Json.Reader
import LedgerGate.Store.Durable

namespace LedgerGate.Store.Durable

/-! ## Writing -/

def tableJson {α : Type} (write : α → Json) (table : List (String × α)) : Json :=
  .object (table.map fun (key, value) => (key, write value))

def toJson (d : Durable) : Json :=
  .object [("values", tableJson .text d.values),
    ("addresses", tableJson AddressRecord.toJson d.addresses),
    ("tokens", tableJson TokenRecord.toJson d.tokens)]

/-! ## Reading -/

def tableOfJson? {α : Type} (read : Json → Option α) : Json → Option (List (String × α))
  | .object fields =>
    let entry := fun (f : String × Json) => (read f.2).map fun value => (f.1, value)
    (fields.mapM entry).map Entries.ofList
  | _ => none

def ofJson? (j : Json) : Option Durable := do
  let r ← j.record? ["values", "addresses", "tokens"]
  return ⟨← r.required "values" (tableOfJson? Json.text?),
    ← r.required "addresses" (tableOfJson? AddressRecord.ofJson?),
    ← r.required "tokens" (tableOfJson? TokenRecord.ofJson?)⟩

/-- The store in the text of a file; an empty file holds an empty store. -/
def ofText? (text : String) : Option Durable :=
  if text.isEmpty then some empty else (Json.ofText? text).bind ofJson?

end LedgerGate.Store.Durable
