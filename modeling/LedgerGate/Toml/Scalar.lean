/-
  The small parts of TOML documents: blanks and comments, keys, texts and numbers.

  Every reader takes the characters that are left and gives what it read and the
  characters after it.
-/
import LedgerGate.Text.Integer
import LedgerGate.Toml.Value

namespace LedgerGate.Toml

/-- A reader of an `α` at the start of some characters. -/
abbrev Reader (α : Type) : Type := List Char → Option (α × List Char)

/-! ## Blanks and comments -/

def isGap (c : Char) : Bool := c == ' ' || c == '\t'

/-- Drops spaces and tabs. -/
def skipGaps (cs : List Char) : List Char := cs.dropWhile isGap

/-- A line break. -/
def newline? : List Char → Option (List Char)
  | '\n' :: cs => some cs
  | '\r' :: '\n' :: cs => some cs
  | _ => none

/-- Whether a character may stand in a comment. -/
def isCommentChar (c : Char) : Bool :=
  c == '\t' || (0x20 ≤ c.toNat && c.toNat != 0x7F)

/-- Drops a comment, if there is one. -/
def skipComment : List Char → List Char
  | '#' :: cs => cs.dropWhile isCommentChar
  | cs => cs

/-- The end of a line: gaps, maybe a comment, and a line break or the end. -/
def lineEnd? (cs : List Char) : Option (List Char) :=
  match skipComment (skipGaps cs) with
  | [] => some []
  | rest => newline? rest

/-- Drops gaps, line breaks and comments, at most `fuel` of them. -/
def skipLines : Nat → List Char → List Char
  | 0, cs => cs
  | fuel + 1, cs =>
    let rest := skipComment (skipGaps cs)
    match newline? rest with
    | some rest => skipLines fuel rest
    | none => rest

/-! ## Texts -/

/-- The character of an escape with a number. -/
def numberedEscape? (count : Nat) (cs : List Char) : Option (Char × List Char) :=
  let digits := cs.take count
  if digits.length = count then
    match Text.readDigits 16 0x10FFFF .tooLarge digits 0 with
    | .ok n =>
      if n < 0xD800 ∨ 0xE000 ≤ n then some (Char.ofNat n, cs.drop count) else none
    | .error _ => none
  else none

/-- The character of an escape, behind its backslash. -/
def escape? : Reader Char
  | 'b' :: cs => some ('\x08', cs)
  | 't' :: cs => some ('\t', cs)
  | 'n' :: cs => some ('\n', cs)
  | 'f' :: cs => some ('\x0c', cs)
  | 'r' :: cs => some ('\r', cs)
  | '"' :: cs => some ('"', cs)
  | '\\' :: cs => some ('\\', cs)
  | 'u' :: cs => numberedEscape? 4 cs
  | 'U' :: cs => numberedEscape? 8 cs
  | _ => none

/-- Whether a character may stand in a text as itself, quotes and backslashes
    apart. -/
def isPlain (c : Char) : Bool := c == '\t' || (0x20 ≤ c.toNat && c.toNat != 0x7F)

/-- The rest of a text in double quotes on one line. -/
def basicRest : Nat → List Char → List Char → Option (String × List Char)
  | 0, _, _ => none
  | fuel + 1, cs, acc =>
    match cs with
    | '"' :: rest => some (String.ofList acc.reverse, rest)
    | '\\' :: rest => (escape? rest).bind fun (c, rest) => basicRest fuel rest (c :: acc)
    | c :: rest => if isPlain c then basicRest fuel rest (c :: acc) else none
    | [] => none

/-- The rest of a text in single quotes on one line. -/
def literalRest : List Char → List Char → Option (String × List Char)
  | [], _ => none
  | c :: rest, acc =>
    if c = '\'' then some (String.ofList acc.reverse, rest)
    else if isPlain c then literalRest rest (c :: acc)
    else none

/-- The quotes that end a text of several lines: three, and one or two before them
    that still belong to the text. -/
def closing? (q : Char) (cs : List Char) : Option (List Char × List Char) :=
  let quotes := (cs.takeWhile (· == q)).length
  if quotes < 3 then none
  else
    let inside := min (quotes - 3) 2
    some (List.replicate inside q, cs.drop (inside + 3))

/-- Drops a line break that is escaped, with all blanks after it. -/
def continuation? (cs : List Char) : Option (List Char) :=
  (newline? (skipGaps cs)).map fun rest =>
    rest.dropWhile fun c => isGap c || c == '\n' || c == '\r'

/-- Whether every carriage return among some characters stands before a line
    feed. -/
def returnsPaired : List Char → Bool
  | '\r' :: '\n' :: cs => returnsPaired cs
  | '\r' :: _ => false
  | _ :: cs => returnsPaired cs
  | [] => true

/-- The rest of a text of several lines between quotes `q`; only double quotes know
    escapes. A line break counts as a line feed. -/
def blockRest (q : Char) : Nat → List Char → List Char → Option (String × List Char)
  | 0, _, _ => none
  | fuel + 1, cs, acc =>
    match closing? q cs with
    | some (inside, rest) => some (String.ofList (acc.reverse ++ inside), rest)
    | none =>
      match newline? cs with
      | some rest => blockRest q fuel rest ('\n' :: acc)
      | none =>
        match cs with
        | [] => none
        | c :: rest =>
          if c = '\\' ∧ q = '"' then
            match continuation? rest with
            | some after =>
              if returnsPaired (rest.take (rest.length - after.length)) then
                blockRest q fuel after acc
              else none
            | none => (escape? rest).bind fun (c, rest) => blockRest q fuel rest (c :: acc)
          else if isPlain c then blockRest q fuel rest (c :: acc)
          else none

/-- Drops one line break at the start of a text of several lines. -/
def skipNewline (cs : List Char) : List Char := (newline? cs).getD cs

/-- A text on one line, in quotes of either kind. -/
def quoted? : Reader String
  | '"' :: cs => basicRest (cs.length + 1) cs []
  | '\'' :: cs => literalRest cs []
  | _ => none

/-- A text in quotes of either kind, on one line or several. -/
def text? : Reader String
  | '"' :: '"' :: '"' :: cs => blockRest '"' (cs.length + 1) (skipNewline cs) []
  | '\'' :: '\'' :: '\'' :: cs => blockRest '\'' (cs.length + 1) (skipNewline cs) []
  | cs => quoted? cs

/-! ## Keys -/

/-- Whether a character may stand in a key without quotes. -/
def isBareChar (c : Char) : Bool := c.isAlphanum || c == '_' || c == '-'

/-- One part of a key. -/
def keyPart? (cs : List Char) : Option (String × List Char) :=
  match quoted? cs with
  | some r => some r
  | none =>
    let bare := cs.takeWhile isBareChar
    if bare.isEmpty then none else some (String.ofList bare, cs.drop bare.length)

/-- A key: parts with points between them, and gaps around the parts. -/
def key? : Nat → List Char → Option (List String × List Char)
  | 0, _ => none
  | fuel + 1, cs =>
    (keyPart? (skipGaps cs)).bind fun (part, rest) =>
      match skipGaps rest with
      | '.' :: rest => (key? fuel rest).map fun (parts, rest) => (part :: parts, rest)
      | rest => some ([part], rest)

/-! ## Numbers -/

/-- Digits with single underscores between them, the underscores left out. -/
def digitRun (isDigit : Char → Bool) : List Char → List Char → Option (List Char × List Char)
  | c :: '_' :: d :: cs, acc =>
    if isDigit c then
      if isDigit d then digitRun isDigit (d :: cs) (c :: acc) else none
    else ended (c :: '_' :: d :: cs) acc
  | [c, '_'], acc => if isDigit c then none else ended [c, '_'] acc
  | c :: cs, acc =>
    if isDigit c then digitRun isDigit cs (c :: acc) else ended (c :: cs) acc
  | [], acc => ended [] acc
where
  /-- The digits read so far, if there are any. -/
  ended (rest acc : List Char) : Option (List Char × List Char) :=
    if acc.isEmpty then none else some (acc.reverse, rest)

def decimalDigits? (cs : List Char) : Option (List Char × List Char) :=
  digitRun Char.isDigit cs []

/-- The digits of a whole number: no zero leads another digit. -/
def wholeDigits? : List Char → Option (List Char × List Char)
  | '0' :: cs => some (['0'], cs)
  | cs => decimalDigits? cs

def sign? : List Char → Bool × List Char
  | '-' :: cs => (true, cs)
  | '+' :: cs => (false, cs)
  | cs => (false, cs)

/-- The integer of some digits behind a sign, if it fits. -/
def integerOf (negative : Bool) (radix : Nat) (digits : List Char) : Option Toml :=
  let limit := if negative then Nat.pow 2 63 else Nat.pow 2 63 - 1
  match Text.readDigits radix limit .tooLarge digits 0 with
  | .ok n => some (.integer (Int64.ofInt (if negative then -(n : Int) else n)))
  | .error _ => none

/-- An integer of another radix. -/
def radixInteger? (radix : Nat) (cs : List Char) : Option (Toml × List Char) :=
  let isDigit := fun c => match Text.digitValue? c with
    | some d => d < radix
    | none => false
  (digitRun isDigit cs []).bind fun (digits, rest) =>
    (integerOf false radix digits).map fun v => (v, rest)

/-- The exponent of a double. -/
def exponent? : List Char → Option (Option Int × List Char)
  | c :: cs =>
    if c = 'e' ∨ c = 'E' then
      let (negative, rest) := sign? cs
      (decimalDigits? rest).map fun (digits, rest) =>
        let n := digits.foldl (fun acc d => acc * 10 + (d.toNat - '0'.toNat)) 0
        (some (if negative then -(n : Int) else n), rest)
    else some (none, c :: cs)
  | [] => some (none, [])

/-- The double nearest to `n · 10^scale`, where `n` has at most `length` digits. Powers
    far out of range are not computed: `10^309` is too large, and half of the least
    double is more than `10^-324`. -/
def nearest (n length : Nat) (scale : Int) : Float :=
  if n = 0 ∨ length + scale < -330 then 0
  else if 310 < scale then 1 / 0
  else Float.ofScientific n (scale < 0) scale.natAbs

/-- The double of some digits, the last `places` of them behind the point. One that
    is too large is no double, unless it is negative. -/
def doubleOf (negative : Bool) (digits : List Char) (places : Nat) (exponent : Int) :
    Option Toml :=
  let n := digits.foldl (fun acc d => acc * 10 + (d.toNat - '0'.toNat)) 0
  let size := nearest n digits.length (exponent - places)
  if size.isInf && !negative then none
  else some (.double (Double.ofFloat (if negative then -size else size)))

/-- A decimal number: an integer, or a double if it has a point or an exponent. -/
def decimal? (cs : List Char) : Option (Toml × List Char) :=
  let (negative, rest) := sign? cs
  (wholeDigits? rest).bind fun (whole, rest) =>
    match rest with
    | '.' :: after =>
      (decimalDigits? after).bind fun (fraction, rest) =>
        (exponent? rest).bind fun (exponent, rest) =>
          (doubleOf negative (whole ++ fraction) fraction.length (exponent.getD 0)).map fun v =>
            (v, rest)
    | _ =>
      (exponent? rest).bind fun (exponent, rest) =>
        match exponent with
        | some e => (doubleOf negative whole 0 e).map fun v => (v, rest)
        | none => (integerOf negative 10 whole).map fun v => (v, rest)

/-- An infinity or no number, behind an optional sign. -/
def special? (cs : List Char) : Option (Toml × List Char) :=
  let (negative, rest) := sign? cs
  match rest with
  | 'i' :: 'n' :: 'f' :: rest =>
    some (.double ⟨if negative then 0xFFF0000000000000 else 0x7FF0000000000000⟩, rest)
  | 'n' :: 'a' :: 'n' :: rest =>
    some (.double ⟨if negative then 0xFFF8000000000000 else 0x7FF8000000000000⟩, rest)
  | _ => none

/-- A number of any kind. -/
def number? : Reader Toml
  | '0' :: 'x' :: cs => radixInteger? 16 cs
  | '0' :: 'o' :: cs => radixInteger? 8 cs
  | '0' :: 'b' :: cs => radixInteger? 2 cs
  | cs => (special? cs).or (decimal? cs)

/-- A value without parts. -/
def scalar? (cs : List Char) : Option (Toml × List Char) :=
  match cs with
  | '"' :: _ => (text? cs).map fun (s, rest) => (.text s, rest)
  | '\'' :: _ => (text? cs).map fun (s, rest) => (.text s, rest)
  | 't' :: 'r' :: 'u' :: 'e' :: rest => some (.bool true, rest)
  | 'f' :: 'a' :: 'l' :: 's' :: 'e' :: rest => some (.bool false, rest)
  | _ =>
    match Moment.read? cs with
    | some (m, rest) => some (.moment m, rest)
    | none => number? cs

end LedgerGate.Toml
