/-
  Delivery of responses: one for every reply in a chain, numbered from zero.

  A delivery follows at most as many sequels as its limit allows; a longer chain
  ends with a failure.  Responses are counted in 32 bits and the count goes round, so
  that it never exceeds the highest limit: under that one a chain is never cut off.

  * `Delivery.step`: the responses that one reply calls for, and the sequel to
    wait for after them;
  * `Delivery.run`: a whole delivery, when all sequels are known, to a sink that
    may refuse.
-/
import LedgerGate.Message.Envelope
import LedgerGate.Reply

namespace LedgerGate

/-- A delivery: whom it answers, and the number of its next response. -/
structure Delivery where
  inReplyTo : Correlation
  operation : String
  sequence : UInt32
  deriving Inhabited

namespace Delivery

variable {κ : Type}

/-- The delivery of a request before its first response. -/
def ofRequest (r : Request) : Delivery := ⟨r.correlation, r.operation, 0⟩

def success (d : Delivery) (o : Output) : Response :=
  .success d.inReplyTo d.operation o d.sequence

def failure (d : Delivery) (f : Fault) : Response :=
  .failure d.inReplyTo d.operation f.details d.sequence

/-- The delivery after one more response. -/
def advanced (d : Delivery) : Delivery := { d with sequence := d.sequence + 1 }

/-- What a reply calls for: last responses, or one response and a sequel to wait
    for. -/
inductive Step (κ : Type) where
  | finish (responses : List Response)
  | follow (response : Response) (next : κ) (after : Delivery)

/-- What a reply, or a fault in its place, calls for. -/
def step (limit : UInt32) (d : Delivery) : Except Fault (Reply κ) → Step κ
  | .error f => .finish [d.failure f]
  | .ok r =>
    match r.next with
    | none => .finish [d.success r.output]
    | some next =>
      if limit < d.sequence + 1 then
        .finish [d.success r.output, d.advanced.failure (Reply.tooLong limit.toNat)]
      else .follow (d.success r.output) next d.advanced

/-! ## To a sink -/

/-- A sink of responses with a state; it refuses with a fault. -/
abbrev Sink (σ : Type) : Type := Response → σ → Except Fault Unit × σ

/-- Sends responses until one is refused. -/
def sendAll {σ : Type} (sink : Sink σ) : List Response → σ → Except Fault Unit × σ
  | [], s => (.ok (), s)
  | r :: rs, s =>
    match sink r s with
    | (.ok _, s) => sendAll sink rs s
    | (.error f, s) => (.error f, s)

/-- What a delivery gives that has sent its last responses: how many there were
    before them and with them. -/
def sent (d : Delivery) (responses : List Response) : UInt32 :=
  d.sequence + UInt32.ofNat responses.length

/-- Delivers a chain whose sequels are all known, following at most `fuel` of
    them; gives the number of responses sent, or the fault of the sink, or nothing
    if it is not at its end then. -/
def runFrom {σ : Type} (sink : Sink σ) (resolve : κ → Except Fault (Reply κ))
    (limit : UInt32) :
    Nat → Delivery → Except Fault (Reply κ) → σ → Option (Except Fault UInt32) × σ
  | fuel, d, outcome, s =>
    match step limit d outcome with
    | .finish responses =>
      match sendAll sink responses s with
      | (.ok _, s) => (some (.ok (d.sent responses)), s)
      | (.error f, s) => (some (.error f), s)
    | .follow response next after =>
      match sendAll sink [response] s, fuel with
      | (.error f, s), _ => (some (.error f), s)
      | (.ok _, s), 0 => (none, s)
      | (.ok _, s), fuel + 1 => runFrom sink resolve limit fuel after (resolve next) s

/-- Delivers the chain that starts with an outcome. Below the highest limit no more
    sequels are followed than the limit, which is fuel enough. -/
def run {σ : Type} (sink : Sink σ) (resolve : κ → Except Fault (Reply κ)) (limit : UInt32)
    (d : Delivery) (outcome : Except Fault (Reply κ)) (s : σ) :
    Option (Except Fault UInt32) × σ :=
  runFrom sink resolve limit limit.toNat d outcome s

end Delivery

end LedgerGate
