import Lintel.Review.Message
import Lintel.Seconds

/-!
# Talks

A talk is what goes on between a reviewer and a chat model, seen from the reviewer: it asks the model
and goes on with the reply, it waits, or it is over (`Talk`). Talks follow one another by `>>=`. A talk
alone with a model is played to its end (`Talk.play`); the clock moves only when somebody waits.
-/

namespace Lintel.Review

/-- What becomes of a call of the model: a response, or the reason why there is none. -/
abbrev Reply := Except String Response

/-- A call of the model: the messages sent and what became of it. -/
structure Exchange where
  sent : List Message
  reply : Reply

/-- A talk with a model. -/
inductive Talk (α : Type) where
  | done (value : α)
  | ask (messages : List Message) (next : Reply → Talk α)
  | wait (delay : Seconds) (next : Talk α)

namespace Talk

variable {α β σ : Type}

/-- A talk followed by another that depends on its value. -/
def bind : Talk α → (α → Talk β) → Talk β
  | done value, rest => rest value
  | ask messages next, rest => ask messages fun reply => (next reply).bind rest
  | wait delay next, rest => wait delay (next.bind rest)

instance : Monad Talk where
  pure := done
  bind := bind

/-- Asks the model. -/
def askModel (messages : List Message) : Talk Reply := ask messages done

/-- Waits. -/
def pause (delay : Seconds) : Talk Unit := wait delay (done ())

/-- A model: from what it remembers and the messages it makes what it remembers then, how long it takes
and its reply. -/
abbrev Model (σ : Type) := σ → List Message → σ × Seconds × Reply

/-- A talk that was played: its value, what the model remembers, the time, and the calls of the
model. -/
structure Played (σ α : Type) where
  value : α
  memory : σ
  time : Seconds
  exchanges : List Exchange

/-- The messages of all calls. -/
def Played.calls {σ α : Type} (played : Played σ α) : List (List Message) :=
  played.exchanges.map (·.sent)

/-- Plays a talk with a model from a time on. -/
def play (model : Model σ) (memory : σ) (time : Seconds) : Talk α → Played σ α
  | done value => ⟨value, memory, time, []⟩
  | ask messages next =>
    let (memory, delay, reply) := model memory messages
    let played := play model memory (time.after delay) (next reply)
    { played with exchanges := ⟨messages, reply⟩ :: played.exchanges }
  | wait delay next => play model memory (time.after delay) next

end Talk

end Lintel.Review
