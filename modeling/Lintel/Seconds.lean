import Lintel.Number.Binary64

/-!
# Seconds

Times and delays are binary numbers of seconds (`Seconds`). The clock starts at `Seconds.zero` and is
moved by `Seconds.after`.
-/

namespace Lintel

open Number (Binary64)

/-- A time in seconds. -/
abbrev Seconds := Binary64

/-- The beginning of time. -/
def Seconds.zero : Seconds := .finite false 0 0

/-- The time after a delay; a delay below zero takes no time. -/
def Seconds.after (time delay : Seconds) : Seconds :=
  if Seconds.zero < delay then time + delay else time

end Lintel
