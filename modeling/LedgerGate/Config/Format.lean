/-
  The written forms of a configuration: JSON and TOML.

  Both hold the same fields, and every field but the id and the brand of a ledger
  may be missing.

  * `Config.ofJson?` and `Config.toJson`;
  * `Config.ofToml?` and `Config.toToml?`, which has no text for numbers beyond
    the signed range;
  * `Config.load` reads a text and checks what it says.
-/
import LedgerGate.Config.Basic
import LedgerGate.Toml.Printer
import LedgerGate.Toml.Reader

namespace LedgerGate

/-! ## Reading -/

/-- What sets a notation apart: how it opens a record of named fields, how it writes the
    name of a case, and what it takes for a table of free form. -/
structure Config.Style where
  record : List String → Json → Option Json.Record
  choice : Json → Option String
  table : Json → Option (List (String × Toml))

namespace Config.Style

def json : Style := ⟨Json.record?, Json.choice?, Toml.tableOfJson? false⟩

/-- The name of a case in TOML: a text, or a table whose one entry has that name and
    is empty. -/
def tomlChoice? : Json → Option String
  | .text s => some s
  | .object [(name, .object [])] => some name
  | .object [(name, .list [])] => some name
  | _ => none

/-- A record in TOML: unlike JSON it passes over items beyond the fields. -/
def tomlRecord? (names : List String) : Json → Option Json.Record
  | .list items => Json.record? names (.list (items.take names.length))
  | j => j.record? names

def toml : Style := ⟨tomlRecord?, tomlChoice?, Toml.tableOfJson? true⟩

end Config.Style

/-- The fee in the settings of an escrow. -/
def LedgerSettings.readFee? (style : Config.Style) (j : Json) : Option UInt64 := do
  let r ← style.record ["expected_fee"] j
  r.withDefault "expected_fee" Json.uint64? 0

/-- The settings of a ledger. -/
def LedgerSettings.read? (style : Config.Style) (j : Json) : Option LedgerSettings := do
  let r ← style.record ["id", "brand", "default", "escrow", "params"] j
  let id ← r.required "id" Json.text?
  let brand ← r.required "brand" fun b => (style.choice b).bind Brand.ofName?
  let isDefault ← r.withDefault "default" Json.bool? false
  let escrowFee ← r.withDefault "escrow" (Json.orNull? (readFee? style)) none
  let params ← r.withDefault "params" style.table []
  return ⟨id, brand, isDefault, escrowFee, params⟩

namespace Config

/-- The names of the fields, in their order. -/
def fieldNames : List String :=
  ["log_format", "log_level", "data_dir", "scan_interval_ms", "callback_workers",
    "recent_block_ttl_ms", "max_continuation_depth", "recent_receipts", "ledgers"]

/-- A configuration in a style. -/
def read? (style : Config.Style) (j : Json) : Option Config := do
  let r ← style.record fieldNames j
  let standard : Config := {}
  let logFormat ← r.withDefault "log_format"
    (fun f => (style.choice f).bind LogFormat.ofName?) standard.logFormat
  let logLevel ← r.withDefault "log_level" Json.text? standard.logLevel
  let dataDir ← r.withDefault "data_dir" Json.text? standard.dataDir
  let scanInterval ← r.withDefault "scan_interval_ms" Json.uint64? standard.scanInterval
  let callbackWorkers ← r.withDefault "callback_workers" Json.uint64? standard.callbackWorkers
  let recentBlockLifetime ← r.withDefault "recent_block_ttl_ms" Json.uint64?
    standard.recentBlockLifetime
  let maxDepth ← r.withDefault "max_continuation_depth" Json.uint32? standard.maxDepth
  let recentReceipts ← r.withDefault "recent_receipts" Json.uint64? standard.recentReceipts
  let ledgers ← r.withDefault "ledgers" (Json.listOf? (LedgerSettings.read? style)) []
  return { logFormat, logLevel, dataDir, scanInterval, callbackWorkers, recentBlockLifetime,
           maxDepth, recentReceipts, ledgers }

def ofJson? (j : Json) : Option Config := read? .json j

def ofToml? (text : String) : Option Config := do
  let entries ← Toml.parse? text
  read? .toml (.object (Toml.toJsonFields entries))

/-- The configuration in a text, checked. -/
def load (text : String) : Except Fault Config :=
  match ofToml? text with
  | none => .error (.config "not a readable configuration")
  | some c => c.validate.map fun _ => c

end Config

/-! ## Writing -/

namespace LedgerSettings

def toJson (l : LedgerSettings) : Json :=
  .object [("id", .text l.id), ("brand", l.brand.toJson), ("default", .bool l.isDefault),
    ("escrow", .ofOption (fun fee => .object [("expected_fee", .ofUInt64 fee)]) l.escrowFee),
    ("params", .object (Toml.toJsonFields l.params))]

end LedgerSettings

namespace Config

def toJson (c : Config) : Json :=
  .object [("log_format", .text c.logFormat.name), ("log_level", .text c.logLevel),
    ("data_dir", .text c.dataDir), ("scan_interval_ms", .ofUInt64 c.scanInterval),
    ("callback_workers", .ofUInt64 c.callbackWorkers),
    ("recent_block_ttl_ms", .ofUInt64 c.recentBlockLifetime),
    ("max_continuation_depth", .ofUInt32 c.maxDepth),
    ("recent_receipts", .ofUInt64 c.recentReceipts),
    ("ledgers", .list (c.ledgers.map LedgerSettings.toJson))]

/-- A number within the signed range. -/
def tomlNumber? (n : UInt64) : Option Toml :=
  if n.toNat < Nat.pow 2 63 then some (.integer (Int64.ofNat n.toNat)) else none

/-- The table of a ledger; one without an escrow has no table for it. -/
def ledgerTable? (l : LedgerSettings) : Option Toml := do
  let escrow ← match l.escrowFee with
    | none => some []
    | some fee => (tomlNumber? fee).map fun n => [("escrow", Toml.table [("expected_fee", n)])]
  return .table <|
    [("id", .text l.id), ("brand", .text l.brand.name), ("default", .bool l.isDefault)] ++
      escrow ++ [("params", .table l.params)]

/-- The configuration as a document, if all its numbers have a text. -/
def toToml? (c : Config) : Option String := do
  let scanInterval ← tomlNumber? c.scanInterval
  let callbackWorkers ← tomlNumber? c.callbackWorkers
  let recentBlockLifetime ← tomlNumber? c.recentBlockLifetime
  let maxDepth ← tomlNumber? c.maxDepth.toUInt64
  let recentReceipts ← tomlNumber? c.recentReceipts
  let ledgers ← c.ledgers.mapM ledgerTable?
  return Toml.document [("log_format", .text c.logFormat.name), ("log_level", .text c.logLevel),
    ("data_dir", .text c.dataDir), ("scan_interval_ms", scanInterval),
    ("callback_workers", callbackWorkers), ("recent_block_ttl_ms", recentBlockLifetime),
    ("max_continuation_depth", maxDepth), ("recent_receipts", recentReceipts),
    ("ledgers", .list ledgers)]

end Config

end LedgerGate
