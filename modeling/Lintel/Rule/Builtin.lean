import Lintel.Rule.Component
import Lintel.Rule.Handler
import Lintel.Rule.UseCase

/-!
# The built-in rules

The rules that come with the program, in the order of their ids (`builtin`).
-/

namespace Lintel.Rule

/-- The built-in rules. -/
def builtin : List Rule :=
  [noExternalImports, noLogger, tryCatchRequired, entityFromPattern, noPrivateMethods, noDirectFetch]

/-- The built-in rule with an id. -/
def builtin? (id : String) : Option Rule := builtin.find? (·.id == id)

end Lintel.Rule
