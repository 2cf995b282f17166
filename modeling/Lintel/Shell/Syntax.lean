/-!
# Shell scripts

A script is a command (`Command`): simple commands with their words and redirections, put together by
pipes, conditions, loops and groups. Simple commands know their lines. A word is a row of parts that are
put in place when the command is run (`Part`).
-/

namespace Lintel.Shell

/-- A part of a word. -/
inductive Part where
  | plain (text : String)
  | quoted (text : String)
  | variable (name : String) (default : String) (quoted : Bool)
  | command (script : String) (quoted : Bool)
  | arithmetic (text : String) (quoted : Bool)
  deriving DecidableEq, Repr

/-- A word of a command. -/
abbrev Word := List Part

/-- Where a stream of a command goes to or comes from. -/
inductive Target where
  | file (name : Word) (append : Bool)
  | source (name : Word)
  | stream (number : Word)
  deriving DecidableEq, Repr

/-- A redirection of the stream with a number. -/
structure Redirect where
  stream : Nat
  target : Target
  deriving DecidableEq, Repr

/-- A command. -/
inductive Command where
  | nothing
  | simple (line : Nat) (assigned : List (String × Word)) (words : List Word)
      (redirects : List Redirect)
  | pipe (first second : Command)
  | negated (body : Command)
  | andThen (first second : Command)
  | orElse (first second : Command)
  | row (first second : Command)
  | choose (condition body other : Command)
  | loop (negated : Bool) (condition body : Command)
  | each (name : String) (words : List Word) (body : Command)
  | group (own : Bool) (body : Command) (redirects : List Redirect)

end Lintel.Shell
