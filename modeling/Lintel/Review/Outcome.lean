/-!
# Outcomes of reviews

The review of one file succeeds with a text or fails with an error (`FileReview`); a batch holds one
entry per file, in the order of the files (`BatchReview`).
-/

namespace Lintel.Review

/-- The review of a file. -/
structure FileReview where
  file : String
  policies : List String := []
  review : String := ""
  success : Bool := false
  error : Option String := none
  deriving DecidableEq, Repr

/-- The review of a file that failed. -/
def FileReview.failure (file error : String) : FileReview := { file, error := some error }

/-- The reviews of some files against a policy. -/
structure BatchReview where
  policy : String
  results : List FileReview := []
  deriving DecidableEq, Repr

namespace BatchReview

/-- The number of files. -/
def total (batch : BatchReview) : Nat := batch.results.length

/-- The number of reviews that succeeded. -/
def successful (batch : BatchReview) : Nat := batch.results.countP (·.success)

/-- The number of reviews that failed. -/
def failed (batch : BatchReview) : Nat := batch.total - batch.successful

end BatchReview

end Lintel.Review
