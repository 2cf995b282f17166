import Lintel.Gather
import Lintel.Policy.Documents
import Lintel.Review.Conversation
import Lintel.Review.Outcome
import Lintel.Review.Prompt
import Lintel.Review.Schedule

/-!
# Batches

A batch reviews files against one policy, each in a conversation of its own (`reviewFile`). The documents for
a file are read at the same time. What goes wrong with one file is an entry of the batch and does not touch
the others (`reviewAll`).
-/

namespace Lintel.Review

open Files (Path View)

/-- The document at a path. -/
def readDocument (view : View) (path : Path) : Except Fault Document := do
  return ⟨path.name, ← view.readText path⟩

/-- The documents that a file is reviewed against; the file has to be there. They are read at the same time,
and the first one that cannot be read is told of. -/
def documentsFor (view : View) (policy : Lintel.Policy) (file : String) (order : EndOrders) :
    Except Fault (List Document) := do
  if !(← view.askFile (.ofString file)) then
    throw (.fileRejected ("Target file not found: " ++ file) file)
  let paths ← policy.select view file
  gatherAll (readDocument view) paths (order paths.length)

/-- The entry that the end of a conversation makes. -/
def FileReview.ofEnding (file : String) (names : List String) (ending : Ending) : FileReview :=
  if ending.status = .done then ⟨file, names, ending.text, true, none⟩
  else
    let error := ending.error.getD ""
    .failure file (if error.isEmpty then "Review failed" else error)

/-- The review of one file, whose documents are read in some order. -/
def reviewFile (tools : Toolset) (limits : Limits) (policy : Lintel.Policy) (order : EndOrders)
    (file : String) : Talk (Except Fault FileReview) :=
  match documentsFor tools.view policy file order with
  | .error fault => return .error fault
  | .ok documents => do
    let names := documents.map (·.name)
    let ended ← converse tools limits (systemPrompt documents) (userPrompt file names)
    return ended.map (FileReview.ofEnding file names)

/-- The greatest number of steps of a conversation. -/
def Limits.steps (limits : Limits) : Nat :=
  limits.turns.toNat * (2 * limits.retry.attempts.toNat) + 1

/-- The entry for a file whose review ended in some way. -/
def FileReview.ofFinish (file : String) : Option (Finish (Except Fault FileReview)) → FileReview
  | some (.value (.ok entry)) => entry
  | some (.value (.error fault)) => .failure file fault.message
  | some (.timedOut allowed) =>
    .failure file s!"Review timed out after {Number.briefText allowed}s"
  | some .tooLate => .failure file "Batch review deadline exceeded"
  | none => .failure file "Review failed"

/-- A batch that was reviewed: its entries, what the model remembers, the time that it took, and the
messages of all calls. -/
structure Reviewed (σ : Type) where
  batch : BatchReview
  memory : σ
  time : Seconds
  calls : List (List Message)

/-- The reviews of some files, each with an order in which its documents are read. -/
def reviewsOf (tools : Toolset) (limits : Limits) (policy : Lintel.Policy) (orders : Nat → EndOrders)
    (files : List String) : List (Talk (Except Fault FileReview)) :=
  files.zipIdx.map fun (file, index) => reviewFile tools limits policy (orders index) file

/-- Reviews files against a policy. -/
def reviewFiles {σ : Type} (tools : Toolset) (limits : Limits) (bounds : Bounds)
    (model : Talk.Model σ) (memory : σ) (policy : Lintel.Policy) (files : List String)
    (orders : Nat → EndOrders := fun _ => .inTurn) : Reviewed σ :=
  let talks := reviewsOf tools limits policy orders files
  let schedule := Schedule.run bounds model memory limits.steps talks
  let entry := fun (file, index) => FileReview.ofFinish file (schedule.finish? index)
  ⟨⟨policy.qualifiedId, files.zipIdx.map entry⟩, schedule.memory, schedule.clock,
    schedule.calls.reverse⟩

/-- Reviews files against the policy with an id. -/
def reviewAll {σ : Type} (tools : Toolset) (limits : Limits) (bounds : Bounds)
    (model : Except Fault (Talk.Model σ)) (memory : σ) (policyRoot : Path) (id : String)
    (files : List String) (orders : Nat → EndOrders := fun _ => .inTurn) :
    Except Fault (Reviewed σ) := do
  match ← Policy.find? tools.view policyRoot id with
  | none => throw (.invalidInput ("Unknown policy: " ++ id))
  | some policy => return reviewFiles tools limits bounds (← model) memory policy files orders

end Lintel.Review
