import Lintel.Rule.DomainModel

/-!
# Rules of components

A component reaches the server through the generated client, not by `fetch` (`noDirectFetch`).
-/

namespace Lintel.Rule

open Syntax (Cursor Node NodeKind Source)

/-- The forms of a direct call. -/
def fetchCallees : List String := ["fetch", "window.fetch", "globalThis.fetch"]

/-- Reports a direct call of `fetch`. -/
def visitFetch (source : Source) (c : Cursor) : Visit :=
  match c.node.kind, c.node.child? "function" with
  | .call, some callee =>
    if (callee.kind == .identifier || callee.kind == .memberAccess)
        && fetchCallees.contains (source.textOf callee) then
      .at c.node "Direct fetch() call in a component. Use the API client instead."
    else .done
  | _, _ => .done

/-- Components do not call `fetch` directly. -/
def noDirectFetch : Rule where
  id := "web/component/no-direct-fetch"
  pattern := pathPattern "^(?!.*\\.test\\.tsx$).*\\.tsx$"
  visitor := visitFetch
  metadata :=
    { what := "Components do not call fetch directly"
      why := "Server access goes through the generated API client so errors and types are handled "
        ++ "in one place"
      failure := "Reports fetch() and window.fetch() calls in .tsx components" }
  policyPath := "web/component/no-direct-fetch.py"

end Lintel.Rule
