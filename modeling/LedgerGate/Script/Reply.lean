/-
  Replies in scripts: what a delegate of a script answers.

  A reply is made by a piece of work that may break down. A sequel is made by a
  piece of work of its own, unless it is ready before its reply is: then it breaks
  down together with it.

  * `Making.outcome`: what others hear of such a piece of work;
  * `delegate`: a delegate that answers as it is told, or tells how it was asked.
-/
import LedgerGate.Delegate.Basic
import LedgerGate.Json.Reader
import LedgerGate.Script.Failure

namespace LedgerGate.Script

/-! ## Making replies -/

/-- How the making of a reply ends. -/
inductive Making where
  | made (outcome : Except Fault (Reply Sequel))
  | broken (text : String)
  deriving Inhabited

/-- The outcome of a piece of work on its own. -/
def Making.outcome : Making → Except Fault (Reply Sequel)
  | made outcome => outcome
  | broken text => .error (.breakdown (some text))

def result (j : Json) : TransactionResult := (TransactionResult.ofJson? j).getD default

/-- A pending reply with a sequel. -/
def pending (j : Json) (next : Sequel) : Making :=
  .made (.ok (.pending (result (j.field "pending")) next))

/-- Makes a reply with at most `fuel` sequels. -/
def makeWithin : Nat → Json → Making
  | 0, _ => .broken "sequels nested too deeply"
  | fuel + 1, j =>
    if j.has "done" then .made (.ok (.done ((Output.ofJson? (j.field "done")).getD default)))
    else if j.has "result" then .made (Reply.result (result (j.field "result")))
    else if j.has "pending" then
      match j.textAt "via" with
      | "channel" =>
        match makeWithin fuel (j.field "next") with
        | .made outcome => pending j (.known outcome)
        | .broken text => .broken text
      | "abandoned" => pending j .abandoned
      | _ => pending j (.known (makeWithin fuel (j.field "next")).outcome)
    else if j.has "error" then .made (.error (fault (j.field "error")))
    else .broken (j.textAt "panic")

/-- Makes a reply. No JSON text nests deeper than the limit, so that is fuel
    enough. -/
def make (j : Json) : Making := makeWithin (Json.depthLimit + 1) j

/-! ## Delegates -/

/-- What a delegate that is to echo says: who it is and how it was asked. -/
def echo (key : RouteKey) (l : LedgerEntry) (input : Option Input) : Reply Sequel :=
  .done (.data (.ofList [("delegate", .text key.display), ("ledger", .text l.id),
    ("shape", .text (Input.shapeOf input).name)]))

/-- A delegate of a script. -/
def delegate (j : Json) : Delegate :=
  let key := routeKeyIn j
  let reply := j.field "reply"
  .custom key fun l input =>
    if reply.flagAt "echo" then .ok (echo key l input) else (make reply).outcome

end LedgerGate.Script
