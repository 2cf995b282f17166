import Lintel.Gather
import Lintel.Retry
import Lintel.Review.Step
import Lintel.Review.Talk
import Lintel.Review.Toolset

/-!
# Conversations

A conversation asks the model, runs the tools that it asks for, and asks again with their results, until
the model answers with the review, fails, or has had all its turns (`converse`). A failing call of the
model is tried again before it counts.

A conversation is a walk over two stages (`Stage`): the model is asked, or the tools are run. Each stage
changes a part of what is known (`Progress`, `Change`); the walk goes on to the next stage until there is
none, for at most a number of steps (`Loop.walk`).
-/

namespace Lintel.Review

/-- How long a conversation may go on, and how calls of the model are tried again. -/
structure Limits where
  turns : Int := 15
  retry : Retry Seconds := ⟨3, .ofInt 1, .ofInt 2, .ofInt 30⟩

/-! ## What is known of a conversation -/

/-- Where a conversation is. -/
inductive Status where
  | awaitingModel
  | toolDispatch
  | done
  | failed
  deriving DecidableEq, Repr

/-- What is known of a conversation: its messages, where it is, the turns it has had, the calls of tools
that wait for results, and the review or the error once there is one. -/
structure Progress where
  messages : List Message
  status : Status := .awaitingModel
  turns : Nat := 0
  pending : List ToolCall := []
  review : Option String := none
  error : Option String := none

/-- What a stage changes; what it does not mention stays as it was. -/
structure Change where
  messages : Option (List Message) := none
  status : Status
  turns : Option Nat := none
  pending : Option (List ToolCall) := none
  review : Option String := none
  error : Option String := none

namespace Progress

/-- The beginning of a conversation: the instructions and the request. -/
def start (system human : String) : Progress := { messages := [.system system, .human human] }

/-- What is known after a change. -/
def merge (progress : Progress) (change : Change) : Progress where
  messages := change.messages.getD progress.messages
  status := change.status
  turns := change.turns.getD progress.turns
  pending := change.pending.getD progress.pending
  review := change.review.or progress.review
  error := change.error.or progress.error

end Progress

/-! ## Calls of the model -/

/-- A call of the model; its failures have one form. -/
def callModel (messages : List Message) : Talk Reply := do
  let reply ← Talk.askModel messages
  return reply.mapError ("Model call failed: " ++ ·)

/-- A call of the model that is tried again when it fails; without any attempt there is no response. -/
def callAgain (retry : Retry Seconds) (messages : List Message) : Talk Reply := do
  let reply ← retry.run (fun _ => true) Talk.pause (callModel messages)
  return reply.getD (.ok (.other "NoneType"))

/-- The message that a response is. -/
def Response.toMessage : Response → Message
  | .message content calls _ => .model content calls
  | .other _ => .model (.str "") []

/-! ## Stages -/

/-- The stages of a conversation. -/
inductive Stage where
  | askModel
  | runTools
  deriving DecidableEq, Repr

/-- The stage after a stage, if the conversation goes on. -/
def Stage.next (progress : Progress) : Stage → Option Stage
  | .askModel => if progress.status = .toolDispatch then some .runTools else none
  | .runTools => some .askModel

/-- What a step of the model changes. -/
def Change.ofStep (progress : Progress) (message : Message) : Step → Change
  | .tools calls =>
    { status := .toolDispatch
      messages := some (progress.messages ++ [message])
      pending := some calls
      turns := some (progress.turns + 1) }
  | .done text =>
    { status := .done
      messages := some (progress.messages ++ [message])
      review := some text
      turns := some (progress.turns + 1) }
  | .failed error => { status := .failed, error := some error, turns := some (progress.turns + 1) }

/-- What a reply of the model changes. -/
def Change.ofReply (progress : Progress) : Reply → Except Fault Change
  | .error error =>
    .ok { status := .failed, error := some error, turns := some (progress.turns + 1) }
  | .ok response =>
    (Step.ofResponse response).map (Change.ofStep progress response.toMessage)

/-- The change when all turns are used up. -/
def Change.outOfTurns (turns : Int) : Change where
  status := .failed
  error := some s!"Review did not finish within {Number.intText turns} turns"

/-- What a conversation works with: the way to ask the model, the tools, the greatest number of turns,
and the order in which the tools of a turn end. -/
structure Loop where
  ask : List Message → Talk Reply
  tools : Toolset
  turns : Int
  ends : (progress : Progress) → EndOrder progress.pending.length

/-- How a conversation ended: with a text or an error, after some turns, with all messages. -/
structure Ending where
  status : Status
  text : String := ""
  error : Option String := none
  turns : Nat := 0
  messages : List Message := []

/-- The ending of what is known at last. -/
def Progress.ending (progress : Progress) : Ending :=
  ⟨progress.status, progress.review.getD "", progress.error, progress.turns, progress.messages⟩

/-- The review that a conversation ended with, or the error. -/
def Ending.review (ending : Ending) : Except String String :=
  if ending.status = .done then .ok ending.text else .error (ending.error.getD "")

/-- A walk through a conversation: the stages with what was known after each one, and what was known at
last, or the fault that broke it off. -/
structure Walk where
  visited : List (Stage × Progress)
  last : Except Fault Progress

namespace Loop

/-- Asks the model, unless all turns are used up. -/
def askStage (loop : Loop) (progress : Progress) : Talk (Except Fault Change) :=
  if loop.turns ≤ progress.turns then return .ok (.outOfTurns loop.turns)
  else do
    let reply ← loop.ask progress.messages
    return Change.ofReply progress reply

/-- Runs the tools that wait, all at the same time. -/
def toolStage (loop : Loop) (progress : Progress) : Change :=
  let results := gather loop.tools.execute progress.pending (loop.ends progress)
  { status := .awaitingModel
    messages := some (progress.messages ++ results.map .tool)
    pending := some [] }

/-- What a stage changes. -/
def act (loop : Loop) (progress : Progress) : Stage → Talk (Except Fault Change)
  | .askModel => loop.askStage progress
  | .runTools => return .ok (loop.toolStage progress)

/-- The greatest number of steps of a walk: two for each turn, and some for the end. -/
def stepLimit (loop : Loop) : Int := 2 * loop.turns + 4

/-- Walks on from a stage for at most `left` steps; it is a fault to need more. -/
def walkFrom (loop : Loop) : Nat → Stage → Progress → Talk Walk
  | 0, _, _ => return ⟨[], .error (.stepLimit loop.stepLimit)⟩
  | left + 1, stage, progress => do
    match ← loop.act progress stage with
    | .error fault => return ⟨[], .error fault⟩
    | .ok change =>
      let now := progress.merge change
      match stage.next now with
      | none => return ⟨[(stage, now)], .ok now⟩
      | some next =>
        let rest ← walkFrom loop left next now
        return { rest with visited := (stage, now) :: rest.visited }

/-- The walk from the first two messages on. -/
def walk (loop : Loop) (system human : String) : Talk Walk :=
  loop.walkFrom loop.stepLimit.toNat .askModel (.start system human)

/-- A conversation from its first two messages on. -/
def run (loop : Loop) (system human : String) : Talk (Except Fault Ending) := do
  let walk ← loop.walk system human
  return walk.last.map Progress.ending

/-- The loop with tools and limits; the tools of a turn end in an order of their own. -/
def ofLimits (tools : Toolset) (limits : Limits)
    (ends : (progress : Progress) → EndOrder progress.pending.length := fun _ => .inTurn _) : Loop :=
  ⟨callAgain limits.retry, tools, limits.turns, ends⟩

end Loop

/-- A conversation within limits, from its first two messages on. -/
def converse (tools : Toolset) (limits : Limits) (system human : String) :
    Talk (Except Fault Ending) :=
  (Loop.ofLimits tools limits).run system human

end Lintel.Review
