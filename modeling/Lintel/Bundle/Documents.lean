import Lintel.Text.Lines

/-!
# The bundled policies

The text of the policies that come with the program, by the paths of their files (`policyDocuments`).
-/

namespace Lintel.Bundle

/-- The overview of the domain model. -/
def domainModelOverview : String := Text.unlines [
  "# Domain Model Overview",
  "",
  "The domain layer holds entities, value objects and repository interfaces.",
  "It is pure: no I/O, no logging, no framework imports.",
  "",
  "- Imports are limited to `@/domain/` and `@/util/`.",
  "- Operations that can fail return `Result<T, DomainError>` instead of throwing.",
  "- State changes return new instances; entities are immutable.",
  "- Invariants are enforced where the data is constructed, once.",
  ""]

/-- How entities and value objects are designed. -/
def entityDesign : String := Text.unlines [
  "# Entity Design (`*.entity.ts`, `*.vo.ts`)",
  "",
  "## Required",
  "",
  "- Construction goes through a static `from(props)` factory.",
  "- Props are declared as a type alias (`type TodoProps = \x7b...\x7d`).",
  "- Entities compare by id only; value objects compare by value (`equals`).",
  "- Domain methods are named after business actions (`complete`, `assign`),",
  "  not setters.",
  "",
  "## Forbidden",
  "",
  "- Optional constructor parameters that hide missing data.",
  "- Public mutable fields.",
  "- Methods that only forward to a property (anemic model).",
  ""]

/-- What an interface of a repository looks like. -/
def repositoryInterface : String := Text.unlines [
  "# Repository Interfaces (`*.repository.ts`)",
  "",
  "## Required",
  "",
  "- One repository per aggregate root.",
  "- Methods take a single props object (`findById(\x7b id \x7d)`).",
  "- Every method returns `Promise<Result<T, RepositoryError>>`.",
  "- Id generation is exposed as a method (`todoId()`), not done by callers.",
  "",
  "## Forbidden",
  "",
  "- Query methods that return child entities of another aggregate.",
  "- Leaking persistence types (rows, ORM models) into signatures.",
  ""]

/-- How aggregates are cut. -/
def aggregatePattern : String := Text.unlines [
  "# Aggregate Pattern",
  "",
  "- An aggregate is changed only through its root.",
  "- Aggregates reference each other by id, never by object.",
  "- Children do not hold their parent's id; the root owns the relationship.",
  "- Nested arrays of children inside children are flattened or split into a",
  "  separate aggregate.",
  "- A transaction modifies exactly one aggregate.",
  ""]

/-- What is said of the policy of the domain model. -/
def domainModelMeta : String := Text.unlines [
  "\x7b",
  "  \"label\": \"Domain Model (server)\",",
  "  \"description\": \"Entities, value objects, aggregates and repository interfaces of the server domain layer\",",
  "  \"dependencies\": []",
  "\x7d",
  ""]

/-- The overview of the test strategy. -/
def testStrategyOverview : String := Text.unlines [
  "# Test Strategy Overview",
  "",
  "Web tests are split by what they protect:",
  "",
  "| Kind | File suffix | Protects |",
  "|---|---|---|",
  "| Component test | `.ct.test.tsx` | user-visible behaviour of one component |",
  "| Snapshot test | `.ss.test.ts` | rendered structure of a page or layout |",
  "",
  "## Principles",
  "",
  "- Test behaviour through the public surface a user sees. Do not assert on",
  "  internal state, hooks or implementation details.",
  "- One test asserts one behaviour. The test name states that behaviour.",
  "- Arrange / Act / Assert are visually separated.",
  "- No network: server access is stubbed at the API client boundary.",
  "- Tests do not depend on each other or on execution order.",
  ""]

/-- How components are tested. -/
def componentTest : String := Text.unlines [
  "# Component Tests (`*.ct.test.tsx`)",
  "",
  "## Required",
  "",
  "- Query elements by role, label or text (`getByRole`, `getByLabelText`).",
  "  `data-testid` is a last resort.",
  "- Drive interaction with `userEvent`, not `fireEvent`.",
  "- Cover the happy path, each validation error, and the empty state.",
  "- Await asynchronous UI with `findBy*` or `waitFor`; never sleep.",
  "",
  "## Forbidden",
  "",
  "- Shallow rendering.",
  "- Asserting on CSS class names or component instance internals.",
  "- Mocking the component under test or its child components.",
  "",
  "## Review checklist",
  "",
  "1. Does each test name describe an observable behaviour?",
  "2. Would the test fail if the behaviour broke, and only then?",
  "3. Are API calls stubbed at the client boundary?",
  ""]

/-- How snapshots are tested. -/
def snapshotTest : String := Text.unlines [
  "# Snapshot Tests (`*.ss.test.ts`)",
  "",
  "## Required",
  "",
  "- Snapshot a whole page or layout, not individual leaf components.",
  "- Freeze time, random ids and locale before rendering.",
  "- Keep one snapshot per meaningful visual state (loaded, empty, error).",
  "",
  "## Forbidden",
  "",
  "- Snapshots containing timestamps, generated ids or absolute paths.",
  "- Updating snapshots without reviewing the diff.",
  "- Using snapshots to verify behaviour that a component test can assert.",
  "",
  "## Review checklist",
  "",
  "1. Is every source of non-determinism fixed?",
  "2. Does each snapshot correspond to a distinct state?",
  ""]

/-- What is said of the policy of the test strategy. -/
def testStrategyMeta : String := Text.unlines [
  "\x7b",
  "  \"label\": \"Test Strategy (web)\",",
  "  \"description\": \"Component tests (*.ct.test.tsx) and snapshot tests (*.ss.test.ts) for the web workspace\"",
  "\x7d",
  ""]

/-- The files of the policies, each with its text. -/
def policyDocuments : List (String × String) :=
  [("server/domain-model/10-domain-model-overview.md", domainModelOverview),
   ("server/domain-model/20-entity-design.md", entityDesign),
   ("server/domain-model/30-repository-interface.md", repositoryInterface),
   ("server/domain-model/40-aggregate-pattern.md", aggregatePattern),
   ("server/domain-model/meta.json", domainModelMeta),
   ("web/test-strategy/10-test-strategy-overview.md", testStrategyOverview),
   ("web/test-strategy/20-component-test.md", componentTest),
   ("web/test-strategy/30-snapshot-test.md", snapshotTest),
   ("web/test-strategy/meta.json", testStrategyMeta)]

end Lintel.Bundle
