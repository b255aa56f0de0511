/-
  Reading TOML documents.

  A document is a list of lines: headers, which open a table, and settings, which
  go into the table opened last. A table can be opened once; tables that only
  stand on the way to others can still be opened, and tables made by a key with
  points can only be filled by such keys.

  * `Node`: a document under construction;
  * `Toml.parse?` reads a whole document, `Toml.parseEntries?` one of free form.
-/
import LedgerGate.Toml.Scalar

namespace LedgerGate.Toml

/-! ## Documents under construction -/

/-- A value, a table, or a list of tables each opened by a header. A table is
    implicit until a header opens it, and dotted if a key with points made it. -/
inductive Node where
  | value (v : Toml)
  | table (implicit dotted : Bool) (entries : List (String × Node))
  | tables (items : List (List (String × Node)))

instance : Inhabited Node := ⟨.tables []⟩

/-- The entries of a table under construction, in the order of the document. -/
abbrev Nodes : Type := List (String × Node)

/-- Puts a node at a key: in the place of the one that is there, or behind all
    others. -/
def Nodes.put : Nodes → String → Node → Nodes
  | [], key, node => [(key, node)]
  | (k, n) :: es, key, node =>
    if k = key then (key, node) :: es else (k, n) :: Nodes.put es key node

mutual

/-- The value of a finished node. -/
def Node.finish : Node → Toml
  | .value v => v
  | .table _ _ entries => .table (finishEntries entries)
  | .tables items => .list (finishTables items)

def finishEntries : List (String × Node) → List (String × Toml)
  | [] => []
  | (k, n) :: es => (k, n.finish) :: finishEntries es

def finishTables : List (List (String × Node)) → List Toml
  | [] => []
  | t :: ts => .table (finishEntries t) :: finishTables ts

end

/-- Changes the table at the end of a path, making the tables on the way. With
    `dotted` the path belongs to a key, which may not enter an opened table. -/
def descend (dotted : Bool) (change : Bool → Nodes → Option Nodes) :
    List String → Bool → Nodes → Option Nodes
  | [], isDotted, entries => change isDotted entries
  | k :: ks, _, entries =>
    match Entries.find? entries k with
    | none =>
      (descend dotted change ks dotted []).map fun es =>
        Nodes.put entries k (.table true dotted es)
    | some (.value _) => none
    | some (.tables items) =>
      match items.getLast? with
      | none => none
      | some last =>
        (descend dotted change ks false last).map fun es =>
          Nodes.put entries k (.tables (items.dropLast ++ [es]))
    | some (.table implicit isDotted es) =>
      if dotted && !implicit then none
      else
        (descend dotted change ks isDotted es).map fun es =>
          Nodes.put entries k (.table implicit isDotted es)

/-- Sets a key with points in a table; no key is set twice. -/
def setKey (entries : Nodes) (path : List String) (v : Toml) : Option Nodes :=
  match path.getLast? with
  | none => none
  | some name =>
    let way := path.dropLast
    descend true (fun isDotted es =>
      if isDotted == way.isEmpty then none
      else if Entries.contains es name then none
      else some (Nodes.put es name (.value v))) way false entries

/-! ## Values -/

/-- How deep values may be nested, and how many parts a key may have. -/
def depthLimit : Nat := 79

/-- The rest of a list; `item` reads one of its values. -/
def listRest (item : Reader Toml) : Nat → List Char → List Toml → Option (Toml × List Char)
  | 0, _, _ => none
  | fuel + 1, cs, acc =>
    let cs := skipLines (cs.length + 1) cs
    match cs with
    | ']' :: rest => some (.list acc.reverse, rest)
    | _ =>
      (item cs).bind fun (v, rest) =>
        match skipLines (rest.length + 1) rest with
        | ',' :: rest => listRest item fuel rest (v :: acc)
        | ']' :: rest => some (.list (v :: acc).reverse, rest)
        | _ => none

/-- A key, an equals sign and a value, with gaps between them. -/
def setting? (item : Reader Toml) (cs : List Char) :
    Option (List String × Toml × List Char) :=
  (key? depthLimit cs).bind fun (path, rest) =>
    match rest with
    | '=' :: rest => (item (skipGaps rest)).map fun (v, rest) => (path, v, rest)
    | _ => none

/-- The rest of a table on one line, behind its opening brace or a comma. -/
def inlineRest (item : Reader Toml) : Nat → List Char → Nodes → Option (Toml × List Char)
  | 0, _, _ => none
  | fuel + 1, cs, entries =>
    (setting? item cs).bind fun (path, v, rest) =>
      (setKey entries path v).bind fun entries =>
        match skipGaps rest with
        | ',' :: rest => inlineRest item fuel rest entries
        | '}' :: rest => some (.table (finishEntries entries), rest)
        | _ => none

/-- A value; `depth` bounds how deep it may be nested. -/
def value? : Nat → List Char → Option (Toml × List Char)
  | 0, cs => if cs.head? = some '[' ∨ cs.head? = some '{' then none else scalar? cs
  | depth + 1, cs =>
    match cs with
    | '[' :: rest => listRest (value? depth) (rest.length + 1) rest []
    | '{' :: rest =>
      match skipGaps rest with
      | '}' :: rest => some (.table [], rest)
      | rest => inlineRest (value? depth) (rest.length + 1) rest []
    | _ => scalar? cs

/-! ## Lines -/

/-- A document so far: the finished tables, and the table opened last with its
    path. -/
structure Draft where
  root : Nodes
  path : List String
  isItem : Bool
  entries : Nodes

/-- Puts the table opened last into its place. -/
def Draft.close (d : Draft) : Option Nodes :=
  match d.path.getLast? with
  | none => some d.entries
  | some name =>
    descend false (fun _ es =>
      if d.isItem then
        match Entries.find? es name with
        | none => some (Nodes.put es name (.tables [d.entries]))
        | some (.tables items) => some (Nodes.put es name (.tables (items ++ [d.entries])))
        | some _ => none
      else some (Nodes.put es name (.table false false d.entries))) d.path.dropLast false d.root

/-- The entries of a table that only stood on the way to others so far. -/
def openable? (es : Nodes) (name : String) : Option Nodes :=
  match Entries.find? es name with
  | none => some []
  | some (.table true false inner) => some inner
  | some _ => none

/-- The table at the end of a path. -/
def tableAt? : List String → Nodes → Option Nodes
  | [], es => some es
  | k :: ks, es =>
    match Entries.find? es k with
    | none => some []
    | some (.value _) => none
    | some (.tables items) => items.getLast?.bind (tableAt? ks)
    | some (.table _ _ inner) => tableAt? ks inner

/-- Opens a table. -/
def Draft.openTable (d : Draft) (path : List String) : Option Draft :=
  match path.getLast? with
  | none => none
  | some name =>
    d.close.bind fun root =>
      (tableAt? path.dropLast root).bind fun parent =>
        (openable? parent name).bind fun entries =>
          (descend false (fun _ es => some (Entries.erase es name)) path.dropLast false root).map
            fun root => ⟨root, path, false, entries⟩

/-- Opens one more table of a list. -/
def Draft.openItem (d : Draft) (path : List String) : Option Draft :=
  match path.getLast? with
  | none => none
  | some name =>
    d.close.bind fun root =>
      (descend false (fun _ es =>
        match Entries.find? es name with
        | none => some es
        | some (.tables _) => some es
        | some _ => none) path.dropLast false root).map fun root => ⟨root, path, true, []⟩

/-- Sets a key in the table opened last. -/
def Draft.set (d : Draft) (path : List String) (v : Toml) : Option Draft :=
  (setKey d.entries path v).map fun entries => { d with entries }

/-- One line that is not blank. -/
def Draft.line (d : Draft) (cs : List Char) : Option (Draft × List Char) :=
  match cs with
  | '[' :: '[' :: rest =>
    (key? depthLimit rest).bind fun (path, rest) =>
      match rest with
      | ']' :: ']' :: rest => (d.openItem path).map fun d => (d, rest)
      | _ => none
  | '[' :: rest =>
    (key? depthLimit rest).bind fun (path, rest) =>
      match rest with
      | ']' :: rest => (d.openTable path).map fun d => (d, rest)
      | _ => none
  | _ =>
    (setting? (value? depthLimit) cs).bind fun (path, v, rest) =>
      (d.set path v).map fun d => (d, rest)

/-- All lines of a document, at most `fuel` of them. -/
def lines : Nat → Draft → List Char → Option Nodes
  | 0, _, _ => none
  | fuel + 1, d, cs =>
    match skipLines (cs.length + 1) cs with
    | [] => d.close
    | cs =>
      (d.line cs).bind fun (d, rest) => (lineEnd? rest).bind fun rest => lines fuel d rest

/-- The table of a document, in the order of the document; a byte order mark at its
    start is allowed. -/
def parse? (s : String) : Option (List (String × Toml)) :=
  let cs := match s.toList with
    | '\ufeff' :: cs => cs
    | cs => cs
  (lines (cs.length + 1) ⟨[], [], false, []⟩ cs).map finishEntries

/-- The entries of a document in the order of their keys. A table that starts with the
    reserved field is a point in time. -/
def parseEntries? (s : String) : Option (List (String × Toml)) :=
  (parse? s).bind fun entries => tableOfJson? true (.object (toJsonFields entries))

end LedgerGate.Toml
