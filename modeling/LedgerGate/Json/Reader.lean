/-
  Reading JSON text.

  The reader is one pass over the characters. `Lexer` cuts the characters into
  tokens, and `Assembler` puts the tokens together on a stack of the containers
  that are still open; neither looks ahead, so both are folds.

  * `Json.ofChars?` and `Json.ofText?` read one value that fills the whole text;
  * a container inside more than `depthLimit` others, a number out of range and
    a text with a lone surrogate become `Json.invalid`.
-/
import LedgerGate.Json.Number

namespace LedgerGate.Json

/-! ## Tokens -/

/-- A token: a mark, or a value that is not a container. A text has no string
    when it holds a lone surrogate. -/
inductive Token where
  | openList
  | closeList
  | openObject
  | closeObject
  | comma
  | colon
  | text (s : Option String)
  | atom (j : Json)

/-- A unit of a quoted text: a character, or half of a surrogate pair. -/
inductive TextUnit where
  | char (c : Char)
  | high (n : Nat)
  | low (n : Nat)

/-- The unit that an escape of four hexadecimal digits stands for. -/
def TextUnit.ofCode (n : Nat) : TextUnit :=
  if 0xD800 ≤ n ∧ n < 0xDC00 then .high n
  else if 0xDC00 ≤ n ∧ n < 0xE000 then .low n
  else .char (Char.ofNat n)

/-- Joins surrogate pairs; nothing if a half stands alone. -/
def TextUnit.join : List TextUnit → Option (List Char)
  | [] => some []
  | .char c :: us => (join us).map (c :: ·)
  | .high h :: .low l :: us =>
    (join us).map (Char.ofNat (0x10000 + (h - 0xD800) * 0x400 + (l - 0xDC00)) :: ·)
  | .high _ :: _ => none
  | .low _ :: _ => none

/-- The character of an escape of one letter. -/
def letterEscape? (c : Char) : Option Char :=
  if c = '"' then some '"'
  else if c = '\\' then some '\\'
  else if c = '/' then some '/'
  else if c = 'b' then some '\x08'
  else if c = 'f' then some '\x0c'
  else if c = 'n' then some '\n'
  else if c = 'r' then some '\r'
  else if c = 't' then some '\t'
  else none

/-! ## Lexer -/

/-- Where the lexer is: between tokens, inside a quoted text (with the units read
    so far in reverse), or inside a word or a number (likewise). -/
inductive Mode where
  | between
  | quoted (units : List TextUnit)
  | escape (units : List TextUnit)
  | code (units : List TextUnit) (digits value : Nat)
  | word (chars : List Char)
  | number (chars : List Char)

/-- The lexer: its mode and the tokens read so far, in reverse. -/
structure Lexer where
  mode : Mode
  tokens : List Token

def isNumberChar (c : Char) : Bool :=
  c.isDigit || c == '-' || c == '+' || c == '.' || c == 'e' || c == 'E'

/-- The token of a mark. -/
def mark? (c : Char) : Option Token :=
  if c = '[' then some .openList
  else if c = ']' then some .closeList
  else if c = '{' then some .openObject
  else if c = '}' then some .closeObject
  else if c = ',' then some .comma
  else if c = ':' then some .colon
  else none

/-- A character between tokens. -/
def Lexer.start (tokens : List Token) (c : Char) : Option Lexer :=
  if c = ' ' ∨ c = '\n' ∨ c = '\t' ∨ c = '\r' then some ⟨.between, tokens⟩
  else if c = '"' then some ⟨.quoted [], tokens⟩
  else if c = '-' ∨ c.isDigit then some ⟨.number [c], tokens⟩
  else if c.isLower then some ⟨.word [c], tokens⟩
  else (mark? c).map fun t => ⟨.between, t :: tokens⟩

/-- The value of a word. -/
def word? (chars : List Char) : Option Json :=
  if chars = ['n', 'u', 'l', 'l'] then some .null
  else if chars = ['t', 'r', 'u', 'e'] then some (.bool true)
  else if chars = ['f', 'a', 'l', 's', 'e'] then some (.bool false)
  else none

/-- Ends the word or number that the lexer is inside of. -/
def Lexer.settle (l : Lexer) : Option (List Token) :=
  match l.mode with
  | .between => some l.tokens
  | .word chars => (word? chars.reverse).map fun j => .atom j :: l.tokens
  | .number chars => (number? chars.reverse).map fun j => .atom j :: l.tokens
  | _ => none

/-- One character. -/
def Lexer.step (l : Lexer) (c : Char) : Option Lexer :=
  match l.mode with
  | .between => start l.tokens c
  | .quoted units =>
    if c = '"' then
      some ⟨.between, .text ((TextUnit.join units.reverse).map String.ofList) :: l.tokens⟩
    else if c = '\\' then some ⟨.escape units, l.tokens⟩
    else if c.toNat < 0x20 then none
    else some ⟨.quoted (.char c :: units), l.tokens⟩
  | .escape units =>
    if c = 'u' then some ⟨.code units 0 0, l.tokens⟩
    else (letterEscape? c).map fun e => ⟨.quoted (.char e :: units), l.tokens⟩
  | .code units digits value =>
    (Text.digitValue? c).map fun d =>
      if digits = 3 then ⟨.quoted (.ofCode (value * 16 + d) :: units), l.tokens⟩
      else ⟨.code units (digits + 1) (value * 16 + d), l.tokens⟩
  | .word chars =>
    if c.isLower then some ⟨.word (c :: chars), l.tokens⟩
    else l.settle.bind fun tokens => start tokens c
  | .number chars =>
    if isNumberChar c then some ⟨.number (c :: chars), l.tokens⟩
    else l.settle.bind fun tokens => start tokens c

/-- The tokens of a text, or nothing if it cannot be cut. -/
def tokens? (cs : List Char) : Option (List Token) :=
  ((cs.foldlM Lexer.step ⟨.between, []⟩).bind Lexer.settle).map List.reverse

/-! ## Assembler -/

/-- A container that is still open, with what it holds so far in reverse; an
    object also holds the name that waits for its value. -/
inductive Frame where
  | list (items : List Json)
  | object (fields : List (Option String × Json))
  | field (fields : List (Option String × Json)) (name : Option String)

/-- What may come next. -/
inductive Expect where
  | value
  | valueOrEnd
  | name
  | nameOrEnd
  | colon
  | commaOrEnd
  | nothing
  deriving DecidableEq

/-- The assembler: open containers, innermost first, what may come next, and the
    value once it is complete. -/
structure Assembler where
  frames : List Frame
  expect : Expect
  result : Json

/-- How many containers may be open at once. -/
def depthLimit : Nat := 127

/-- The fields of an object, or nothing if a name is no string. -/
def namedFields : List (Option String × Json) → List (String × Json) →
    Option (List (String × Json))
  | [], acc => some acc
  | (some k, v) :: fs, acc => namedFields fs ((k, v) :: acc)
  | (none, _) :: _, _ => none

/-- The value of a container that closes; `depth` counts it and those around it. -/
def Frame.close (depth : Nat) : Frame → Json
  | .list items => if depth ≤ depthLimit then .list items.reverse else .invalid
  | .object fields =>
    if depth ≤ depthLimit then
      match namedFields fields [] with
      | some fs => .object fs
      | none => .invalid
    else .invalid
  | .field _ _ => .invalid

/-- Puts a complete value into the innermost open container. -/
def Assembler.put (frames : List Frame) (j : Json) : Option Assembler :=
  match frames with
  | [] => some ⟨[], .nothing, j⟩
  | .list items :: rest => some ⟨.list (j :: items) :: rest, .commaOrEnd, .null⟩
  | .field fields name :: rest =>
    some ⟨.object ((name, j) :: fields) :: rest, .commaOrEnd, .null⟩
  | .object _ :: _ => none

/-- Closes the innermost container. -/
def Assembler.close (a : Assembler) : Option Assembler :=
  match a.frames with
  | [] => none
  | f :: rest => put rest (f.close a.frames.length)

/-- Whether the innermost container is a list. -/
def Assembler.inList (a : Assembler) : Bool :=
  match a.frames with
  | .list _ :: _ => true
  | _ => false

def Assembler.takesValue (a : Assembler) : Bool :=
  a.expect = .value || a.expect = .valueOrEnd

/-- Whether the innermost container may close. -/
def Assembler.mayEnd (a : Assembler) : Bool :=
  a.expect = .valueOrEnd || a.expect = .nameOrEnd || a.expect = .commaOrEnd

/-- Remembers the name of the field that follows. -/
def Assembler.putName (a : Assembler) (name : Option String) : Option Assembler :=
  match a.frames with
  | .object fields :: rest => some ⟨.field fields name :: rest, .colon, .null⟩
  | _ => none

/-- One token. -/
def Assembler.step (a : Assembler) (t : Token) : Option Assembler :=
  match t with
  | .openList =>
    if a.takesValue then some ⟨.list [] :: a.frames, .valueOrEnd, .null⟩ else none
  | .openObject =>
    if a.takesValue then some ⟨.object [] :: a.frames, .nameOrEnd, .null⟩ else none
  | .closeList => if a.mayEnd && a.inList then a.close else none
  | .closeObject => if a.mayEnd && !a.inList then a.close else none
  | .comma =>
    if a.expect = .commaOrEnd then some { a with expect := if a.inList then .value else .name }
    else none
  | .colon => if a.expect = .colon then some { a with expect := .value } else none
  | .text s =>
    if a.takesValue then
      put a.frames (match s with
        | some t => .text t
        | none => .invalid)
    else if a.expect = .name || a.expect = .nameOrEnd then a.putName s
    else none
  | .atom j => if a.takesValue then put a.frames j else none

/-- The one value that the tokens make. -/
def ofTokens? (tokens : List Token) : Option Json :=
  (tokens.foldlM Assembler.step ⟨[], .value, .null⟩).bind fun a =>
    if a.expect = .nothing then some a.result else none

/-! ## Texts -/

/-- The value that fills a text. -/
def ofChars? (cs : List Char) : Option Json := (tokens? cs).bind ofTokens?

/-- The value that fills a string. -/
def ofText? (s : String) : Option Json := ofChars? s.toList

end LedgerGate.Json
