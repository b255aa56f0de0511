/-
  Writing TOML documents.

  Tables and lists of tables get headers of their own, behind the settings of the
  table around them; inside a list everything stands on the spot. A list of two
  items or more has a line for each. Entries keep their order otherwise.

  * `Toml.quote`: a text in the plainest quotes that hold it;
  * `Toml.document`: a whole document.
-/
import LedgerGate.Text.Hex
import LedgerGate.Toml.Value

namespace LedgerGate.Toml

/-! ## Texts -/

/-- Whether a character can only be written as an escape, line feeds and tabs
    apart. -/
def needsEscape (c : Char) : Bool :=
  (c.toNat < 0x20 && c != '\n' && c != '\t') || c.toNat == 0x7F

/-- The longest row of a character in a text; `run` is the length of the row at its
    start. -/
def longestRow (q : Char) (run : Nat) : List Char → Nat
  | [] => run
  | c :: cs => if c = q then longestRow q (run + 1) cs else max run (longestRow q 0 cs)

/-- A character as an escape of four digits. -/
def codeEscape (c : Char) : List Char :=
  let upper := (Text.hexNat c.toNat).toUpper.toList
  ['\\', 'u'] ++ List.replicate (4 - upper.length) '0' ++ upper

/-- A character between double quotes, other than a quote. -/
def escaped (isBlock : Bool) (c : Char) : List Char :=
  if c = '\x08' then ['\\', 'b']
  else if c = '\t' then ['\\', 't']
  else if c = '\n' then if isBlock then ['\n'] else ['\\', 'n']
  else if c = '\x0c' then ['\\', 'f']
  else if c = '\r' then ['\\', 'r']
  else if c = '\\' then ['\\', '\\']
  else if needsEscape c then codeEscape c
  else [c]

/-- The characters between double quotes. On several lines two quotes may stand in a
    row, a third is escaped. -/
def escapedAll (isBlock : Bool) (row : Nat) : List Char → List Char
  | [] => []
  | c :: cs =>
    if c = '"' then
      if isBlock ∧ row < 2 then '"' :: escapedAll isBlock (row + 1) cs
      else '\\' :: '"' :: escapedAll isBlock 0 cs
    else escaped isBlock c ++ escapedAll isBlock 0 cs

/-- A text in quotes: double quotes if nothing needs an escape, else single ones if
    they can hold it, else double quotes with escapes; on several lines if it holds
    line breaks. -/
def quote (s : String) : List Char :=
  let cs := s.toList
  let hasBackslash := cs.contains '\\'
  let hasCodes := cs.any needsEscape
  let hasNewline := cs.contains '\n'
  let doubles := longestRow '"' 0 cs
  let singles := longestRow '\'' 0 cs
  let newline := if hasNewline then ['\n'] else []
  let block := ['"', '"', '"'] ++ newline ++ escapedAll true 0 cs ++ ['"', '"', '"']
  let literalBlock := ['\'', '\'', '\''] ++ newline ++ cs ++ ['\'', '\'', '\'']
  if !hasBackslash ∧ !hasCodes ∧ doubles = 0 ∧ !hasNewline then
    '"' :: escapedAll false 0 cs ++ ['"']
  else if !hasCodes ∧ singles = 0 ∧ !hasNewline then '\'' :: cs ++ ['\'']
  else if !hasBackslash ∧ !hasCodes ∧ doubles ≤ 2 then block
  else if !hasCodes ∧ singles ≤ 2 then literalBlock
  else if hasNewline then block
  else '"' :: escapedAll false 0 cs ++ ['"']

/-- A key, in quotes if it needs them. -/
def keyText (k : String) : List Char :=
  let cs := k.toList
  let isBare := !cs.isEmpty && cs.all fun c => c.isAlphanum || c == '_' || c == '-'
  let hasCodes := cs.any fun c => needsEscape c || c == '\n'
  if isBare then cs
  else if !hasCodes ∧ !cs.contains '"' ∧ !cs.contains '\\' then
    '"' :: escapedAll false 0 cs ++ ['"']
  else if !hasCodes ∧ !cs.contains '\'' then '\'' :: cs ++ ['\'']
  else '"' :: escapedAll false 0 cs ++ ['"']

/-! ## Values on the spot -/

/-- Doubles never have an exponent; of two shortest texts equally near the larger is
    taken. -/
def layout : Double.Layout where
  whole := 400
  leading := 400
  tie := .up

/-- A double; what is no number has no sign either. -/
def doubleText (d : Double) : List Char :=
  if d.isNaN then "nan".toList
  else if d.isInfinite then (if d.isNegative then "-inf" else "inf").toList
  else d.text layout

mutual

/-- A value on the spot. -/
def inlineText : Toml → List Char
  | text s => quote s
  | integer n => (toString n.toInt).toList
  | double d => doubleText d
  | bool true => "true".toList
  | bool false => "false".toList
  | moment m => m.display.toList
  | list [] => ['[', ']']
  | list [x] => '[' :: inlineText x ++ [']']
  | list (x :: xs) => '[' :: itemTexts (x :: xs) ++ ['\n', ']']
  | table [] => ['{', '}']
  | table ((k, v) :: es) =>
    ['{', ' '] ++ keyText k ++ [' ', '=', ' '] ++ inlineText v ++ entryTexts es ++ [' ', '}']

/-- Items on lines of their own. -/
def itemTexts : List Toml → List Char
  | [] => []
  | x :: xs => "\n    ".toList ++ inlineText x ++ ',' :: itemTexts xs

/-- The further entries of a table on the spot. -/
def entryTexts : List (String × Toml) → List Char
  | [] => []
  | (k, v) :: es => [',', ' '] ++ keyText k ++ [' ', '=', ' '] ++ inlineText v ++ entryTexts es

end

/-! ## Tables -/

/-- Whether a list holds tables only. -/
def allTables : List Toml → Bool
  | [] => true
  | table _ :: xs => allTables xs
  | _ :: _ => false

/-- Whether a value gets a header of its own. -/
def hasHeader : Toml → Bool
  | table _ => true
  | list [] => false
  | list xs => allTables xs
  | _ => false

/-- The settings of a table that stand behind its header. -/
def settings : List (String × Toml) → List Char
  | [] => []
  | (k, v) :: es =>
    if hasHeader v then settings es
    else keyText k ++ [' ', '=', ' '] ++ inlineText v ++ '\n' :: settings es

/-- Whether a table has settings of its own. -/
def hasSettings (es : List (String × Toml)) : Bool := es.any fun e => !hasHeader e.2

/-- The parts of a path with points between them. -/
def pathText (path : List String) : List Char :=
  (List.intersperse ['.'] (path.map keyText)).flatten

mutual

/-- The tables inside a table, with their headers. -/
def nested (path : List String) : List (String × Toml) → List Char
  | [] => []
  | (k, table es) :: rest =>
    (if es.isEmpty || hasSettings es then '\n' :: '[' :: pathText (path ++ [k]) ++ [']', '\n']
      else []) ++
      settings es ++ nested (path ++ [k]) es ++ nested path rest
  | (k, list xs) :: rest =>
    (if hasHeader (list xs) then nestedItems (path ++ [k]) xs else []) ++ nested path rest
  | _ :: rest => nested path rest

/-- The tables of a list, each with its header. -/
def nestedItems (path : List String) : List Toml → List Char
  | [] => []
  | table es :: rest =>
    '\n' :: '[' :: '[' :: pathText path ++ [']', ']', '\n'] ++ settings es ++ nested path es ++
      nestedItems path rest
  | _ :: rest => nestedItems path rest

end

/-- A whole document; its entries are written in the order given. -/
def document (entries : List (String × Toml)) : String :=
  let body := settings entries ++ nested [] entries
  String.ofList <| if hasSettings entries then body else body.drop 1

end LedgerGate.Toml
