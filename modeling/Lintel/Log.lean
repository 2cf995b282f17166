import Lintel.Text.Blank

/-!
# Log levels

A log has a least level; what is below it is not written (`Level.emitted`).
-/

namespace Lintel.Log

/-- The levels of log lines, from the lowest on. -/
inductive Level where
  | debug
  | info
  | warning
  | error
  | critical
  deriving DecidableEq, Repr

namespace Level

/-- The word for a level. -/
def name : Level → String
  | debug => "debug"
  | info => "info"
  | warning => "warning"
  | error => "error"
  | critical => "critical"

/-- All levels, the lowest first. -/
def all : List Level := [debug, info, warning, error, critical]

/-- The levels by the words that may name them. -/
def words : List (String × Level) :=
  [("NOTSET", debug), ("DEBUG", debug), ("INFO", info), ("WARN", warning), ("WARNING", warning),
    ("ERROR", error), ("FATAL", critical), ("CRITICAL", critical)]

/-- The level that a word in any case names; others name the level for information. -/
def ofWord (word : String) : Level :=
  let word := String.ofList (word.toList.map Char.toUpper)
  ((words.find? (·.1 == word)).map (·.2)).getD info

/-- The levels that are written if this one is the least. -/
def emitted (least : Level) : List Level := all.dropWhile (· != least)

end Level

end Lintel.Log
