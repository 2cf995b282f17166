import Lintel.Files.Path
import Lintel.Text.Blank

/-!
# Prompts

The first message of a conversation holds the instructions and the policy documents (`systemPrompt`),
the second names the file and the documents that apply to it (`userPrompt`).
-/

namespace Lintel.Review

/-- What the model is to do. -/
def instructions : String :=
  Text.unlines [
    "You are a code reviewer enforcing the team's architecture policies.",
    "",
    "Review the target file strictly against the policies below. Use the tools to",
    "read the target file and, when needed, related code (imports, sibling files,",
    "tests) before judging. Do not invent rules that the policies do not state.",
    "",
    "Write the review in markdown with these sections:",
    "",
    "### Summary",
    "Two or three sentences on overall compliance.",
    "",
    "### Compliant",
    "- Practices in the file that follow the policies.",
    "",
    "### Issues",
    "- **[Policy] - [Issue]**",
    "  - **Location**: lines X-Y",
    "  - **Problem**: what violates the policy",
    "  - **Suggestion**: how to fix it",
    "",
    "### Recommendations",
    "Further improvements, if any.",
    "",
    "When you have finished reading, answer with the review text only."]

/-- A policy document: its name and its text. -/
structure Document where
  name : String
  content : String

/-- The section for a document. -/
def Document.lines (document : Document) : List String :=
  ["## " ++ document.name, "", Text.trim document.content, "", "---", ""]

/-- The instructions and the policy documents. -/
def systemPrompt (documents : List Document) : String :=
  Text.unlines ([instructions, "", "# Policies", ""] ++ documents.flatMap Document.lines)

/-- The request to review a file against documents with the given names. -/
def userPrompt (file : String) (names : List String) : String :=
  Text.unlines ["Review the following file.", "",
    "## " ++ (Files.Path.ofString file).name,
    "- Path: " ++ file,
    "- Applied policies: " ++ ", ".intercalate names, "",
    "Start by reading the file with the read_file tool."]

end Lintel.Review
