import Lintel.Bundle.Documents
import Lintel.Files.Tree
import Lintel.Rule.Builtin

/-!
# The bundled files

The program brings its own policies and rules along. They stand below a directory of their own (`home`),
the policies as documents and each built-in rule as a rule file that opens with its doc comment.
-/

namespace Lintel.Bundle

open Files (Path Place)

/-- The directory of the bundled files. -/
def home : Place := ["opt", "lintel"]

/-- The directory of the bundled rules. -/
def policyRoot : Path := .ofPlace (home ++ ["policies"])

/-- The directory of the bundled policies. -/
def policyDocsRoot : Path := .ofPlace (home ++ ["policy_docs"])

/-- The doc comment with the given tags. -/
def docOf (metadata : Policy.Metadata) : String :=
  Text.unlines ["", "@what " ++ metadata.what, "@why " ++ metadata.why,
    "@failure " ++ metadata.failure, ""]

/-- The rule file of a built-in rule. -/
def ruleFile (rule : Rule) : Entry :=
  let quotes := "\"\"\""
  let text := quotes ++ docOf rule.metadata ++ quotes ++ "\n"
  .file (Text.encode text) (some ⟨some (docOf rule.metadata), .ok (some rule)⟩)

/-- The bundled files, each with its components below the home. -/
def files : List (List String × Entry) :=
  (policyDocuments.map fun d =>
    ("policy_docs" :: Path.partsOf d.1.toList, Entry.file (Text.encode d.2) none))
    ++ Rule.builtin.map fun rule =>
      ("policies" :: Path.partsOf rule.policyPath.toList, ruleFile rule)

/-- The tree with the bundled files in their home. -/
def install (tree : Files) : Files :=
  files.foldl (fun tree file => tree.put (home ++ file.1) file.2) tree

end Lintel.Bundle
