/-
  The transport: a request on every line that comes in, a response on every line
  that goes out.

  Blank lines and lines that hold no request are passed over. When the input ends,
  what is under way is delivered; on shutdown no more lines are read. Serving ends
  when no delivery holds the way out any more.

  * `Transport.lines` cuts input into lines;
  * `Transport.serve`.
-/
import LedgerGate.Gateway.Run
import LedgerGate.Json.Reader

namespace LedgerGate.Transport

/-! ## Lines -/

/-- Whether a byte ends a line. -/
def isLineEnd (b : UInt8) : Bool := b == 10

/-- Cuts bytes into lines; what follows the last line break is a line unless it is
    empty. `line` holds the bytes of the line so far, the last one first. -/
def linesFrom (line : List UInt8) : List UInt8 → List (List UInt8)
  | [] => if line.isEmpty then [] else [line.reverse]
  | b :: bs => if isLineEnd b then line.reverse :: linesFrom [] bs else linesFrom (b :: line) bs

/-- The lines of an input. -/
def lines (input : List UInt8) : List (List UInt8) := linesFrom [] input

/-- The text of a line, if it is one. -/
def lineText? (line : List UInt8) : Option String := String.fromUTF8? (ByteArray.mk line.toArray)

/-- The request on a line. -/
def request? (text : String) : Option Request := (Json.ofText? text).bind Request.ofJson?

/-! ## Serving -/

/-- How serving ended: all was delivered, a line was no text, or the limit of time was
    reached with deliveries under way. -/
inductive Ending where
  | served
  | unreadable
  | unfinished
  deriving DecidableEq, Repr

variable {W : Type}

/-- Takes the request on a line, if it holds one. -/
def takeText (g : Gateway W) (text : String) : Gateway W :=
  match request? text with
  | some r => g.handle r true
  | none => g

/-- Takes the requests on some lines; says whether all of them were texts. -/
def takeLines (g : Gateway W) : List (List UInt8) → Bool × Gateway W
  | [] => (true, g)
  | line :: rest =>
    match lineText? line with
    | some text => takeLines (takeText g text) rest
    | none => (false, g)

/-- Whether no delivery is under way. -/
def isDrained (g : Gateway W) : Bool := g.underway == 0

/-- Serves the requests on the lines of an input, for a limited time. -/
def serve [Outside W] (g : Gateway W) (input : List UInt8) (limit : Nat) :
    Ending × Gateway W :=
  let (stopping, shutdown) := g.shutdown.receive .transport
  let g := { g with shutdown }
  let (readable, g) := if stopping then (true, g) else takeLines g (lines input)
  let g := g.settle
  if readable then
    match Gateway.waitUntil isDrained (g.now + limit) (limit + g.timers.entries.length + 1) g with
    | (true, g) => (.served, g)
    | (false, g) => (.unfinished, g)
  else (.unreadable, g)

/-! ## What goes out -/

/-- The responses among events. -/
def responses (events : Array Event) : List Response :=
  events.toList.filterMap fun
    | .response r => some r
    | _ => none

/-- The line of a response. -/
def line (r : Response) : String := r.toJson.compact ++ "\n"

end LedgerGate.Transport
