/-!
# Gathering

Jobs that run at the same time come to their ends in some order (`EndOrder`). Each result is put into
the place of its job, whenever it comes, and the results are handed over when all are there (`gather`). If
jobs may fail, the first one that does so puts an end to all (`gatherAll`).
-/

namespace Lintel

/-- An order in which some jobs end: their places, each one once. -/
structure EndOrder (count : Nat) where
  places : List Nat
  each : places.Perm (List.range count)

/-- In which order jobs end, however many there are. -/
abbrev EndOrders := (count : Nat) → EndOrder count

/-- The jobs end one after another. -/
def EndOrder.inTurn (count : Nat) : EndOrder count := ⟨List.range count, .refl _⟩

/-- The results so far after the job at a place has ended. -/
def fillPlace {α β : Type} (run : α → β) (jobs : List α) (slots : List (Option β)) (place : Nat) :
    List (Option β) :=
  slots.set place (jobs[place]?.map run)

/-- The results of jobs that end in some order, in the order of the jobs. -/
def gather {α β : Type} (run : α → β) (jobs : List α) (order : EndOrder jobs.length) : List β :=
  (order.places.foldl (fillPlace run jobs) (List.replicate jobs.length none)).filterMap id

/-- The results so far after the job at a place has ended, if it has not failed. -/
def fillOrFail {ε α β : Type} (run : α → Except ε β) (jobs : List α) (slots : List (Option β))
    (place : Nat) : Except ε (List (Option β)) :=
  match jobs[place]? with
  | some job => (run job).map fun result => slots.set place (some result)
  | none => .ok slots

/-- The results of jobs that end in some order, in the order of the jobs, or the error of the first one that
fails. -/
def gatherAll {ε α β : Type} (run : α → Except ε β) (jobs : List α) (order : EndOrder jobs.length) :
    Except ε (List β) :=
  (order.places.foldlM (fillOrFail run jobs) (List.replicate jobs.length none)).map (·.filterMap id)

end Lintel
