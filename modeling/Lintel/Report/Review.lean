import Lintel.Files.Path
import Lintel.Report.Lines
import Lintel.Review.Outcome

/-!
# The report on reviews

The report on a batch counts the reviews and shows them one by one (`review`).
-/

namespace Lintel.Report

open Review (BatchReview FileReview)

/-- What a review says, or why there is none. -/
def reviewBody (result : FileReview) : List String :=
  if result.success then [Text.trim result.review]
  else
    let error := result.error.getD ""
    ["### Error", "", if error.isEmpty then "Unknown error" else error]

/-- The section about a file. -/
def reviewLines (result : FileReview) : List String :=
  ["---", "", "## " ++ (Files.Path.ofString result.file).name, "", "- Path: " ++ result.file]
    ++ (if result.policies.isEmpty then [] else ["- Policies: " ++ ", ".intercalate result.policies])
    ++ [statusLine result.success, ""] ++ reviewBody result ++ [""]

/-- The report on a batch. -/
def review (batch : BatchReview) : String :=
  Text.unlines ([s!"# Qualitative review ({batch.policy})", "", "## Summary", "",
    "- Total files: " ++ countText batch.total,
    "- Successful: " ++ countText batch.successful,
    "- Failed: " ++ countText batch.failed, ""]
    ++ batch.results.flatMap reviewLines)

end Lintel.Report
