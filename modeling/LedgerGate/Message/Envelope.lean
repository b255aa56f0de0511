/-
  Requests and responses as callers write and read them.

  A response repeats the id and the user of its request and carries a number:
  zero for the first response, one more for each that follows.
-/
import LedgerGate.Message.Input
import LedgerGate.Message.Output

namespace LedgerGate

/-! ## Requests -/

/-- A request of a caller. -/
structure Request where
  messageId : String
  userId : Option String
  operation : String
  input : Option Input
  deriving Inhabited

/-- What ties a response to its request. -/
structure Correlation where
  messageId : String
  userId : Option String
  deriving DecidableEq, Repr, Inhabited

namespace Correlation

def toJson (c : Correlation) : Json :=
  .object (("messageId", .text c.messageId) :: Json.optional "userId" (c.userId.map Json.text))

def ofJson? (j : Json) : Option Correlation := do
  let r ← j.record? ["messageId", "userId"]
  return ⟨← r.required "messageId" Json.text?,
    ← r.withDefault "userId" (Json.orNull? Json.text?) none⟩

end Correlation

namespace Request

def correlation (r : Request) : Correlation := ⟨r.messageId, r.userId⟩

def shape (r : Request) : Shape := Input.shapeOf r.input

def toJson (r : Request) : Json :=
  .object <| [("messageId", .text r.messageId)] ++
    Json.optional "userId" (r.userId.map Json.text) ++
    [("operation", .text r.operation)] ++ Json.optional "input" (r.input.map Input.toJson)

def ofJson? (j : Json) : Option Request := do
  let r ← j.record? ["messageId", "userId", "operation", "input"]
  let messageId ← r.required "messageId" Json.text?
  let userId ← r.withDefault "userId" (Json.orNull? Json.text?) none
  let operation ← r.required "operation" Json.text?
  let input ← r.withDefault "input" (Json.orNull? Input.ofJson?) none
  return ⟨messageId, userId, operation, input⟩

end Request

/-! ## Responses -/

/-- A response to a request. -/
structure Response where
  inReplyTo : Correlation
  operation : String
  pass : Bool
  result : Option Output
  error : Option ErrorDetails
  sequence : UInt32
  deriving Inhabited

namespace Response

def success (inReplyTo : Correlation) (operation : String) (output : Output)
    (sequence : UInt32) : Response :=
  ⟨inReplyTo, operation, true, some output, none, sequence⟩

def failure (inReplyTo : Correlation) (operation : String) (details : ErrorDetails)
    (sequence : UInt32) : Response :=
  ⟨inReplyTo, operation, false, none, some details, sequence⟩

/-- Whether more responses follow. -/
def isPending (r : Response) : Bool :=
  match r.result with
  | some o => o.isPending
  | none => false

def toJson (r : Response) : Json :=
  .object <| [("inReplyTo", r.inReplyTo.toJson), ("operation", .text r.operation),
      ("pass", .bool r.pass)] ++
    Json.optional "result" (r.result.map Output.toJson) ++
    Json.optional "error" (r.error.map ErrorDetails.toJson) ++
    [("sequence", .ofUInt32 r.sequence)]

def ofJson? (j : Json) : Option Response := do
  let r ← j.record? ["inReplyTo", "operation", "pass", "result", "error", "sequence"]
  let inReplyTo ← r.required "inReplyTo" Correlation.ofJson?
  let operation ← r.required "operation" Json.text?
  let pass ← r.required "pass" Json.bool?
  let result ← r.withDefault "result" (Json.orNull? Output.ofJson?) none
  let error ← r.withDefault "error" (Json.orNull? ErrorDetails.ofJson?) none
  let sequence ← r.required "sequence" Json.uint32?
  return ⟨inReplyTo, operation, pass, result, error, sequence⟩

end Response

end LedgerGate
