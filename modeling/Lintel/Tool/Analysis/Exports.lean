import Lintel.Tool.Command
import Lintel.Tool.UnusedExport

/-!
# Analysis of exports

The analyser of exports looks at a workspace; what it finds is narrowed to the target directories
(`unusedExports`).
-/

namespace Lintel.Tool

open Files (Path View)

/-- The outcome of the analysis of exports. -/
structure ExportsReport where
  workspace : String
  targets : List String
  exports : List UnusedExport := []
  output : String := ""
  error : Option String := none

/-- Nothing went wrong and nothing was found. -/
def ExportsReport.success (report : ExportsReport) : Bool :=
  report.error.isNone && report.exports.isEmpty

/-- The command of the analyser. -/
def exportsWords (workspace : String) : List String := ["npm", "run", "validate:knip", "-w", workspace]

/-- The fault of an analyser that fails and prints no report. -/
def silentExports (printed : Printed) : Fault :=
  let code := Number.intText printed.exit
  let reason := Text.trim printed.all
  .badOutput "knip" (.shape s!"knip exited with code {code} without a JSON report: {reason}") ""

/-- The export with the place of its file, if that is within the targets. -/
def UnusedExport.narrow? (view : View) (directory : Path) (targets : List String)
    (found : UnusedExport) : Except Fault (Option UnusedExport) := do
  if ← Files.isWithin view directory targets found.file then
    let place ← Files.resolveFrom view directory found.file
    return some { found with file := Files.placeText place }
  else return none

/-- The unused exports within the targets, from what the analyser printed. -/
def unusedExports (view : View) (directory : Path) (targets : List String) (printed : Printed) :
    Except Fault (List UnusedExport) := do
  match jsonPart? printed.out with
  | none => if printed.exit == 0 then return [] else throw (silentExports printed)
  | some payload =>
    let found ← UnusedExport.ofPayload payload
    return (← found.mapM (UnusedExport.narrow? view directory targets)).filterMap id

/-- Makes the analysis of exports in a workspace. -/
def analyzeExports {m : Type → Type} [Monad m] (run : Runner m) (view : View) (root : Path)
    (workspace : String) (targets : List String) : m (Except Fault ExportsReport) := do
  let answer ← run ⟨exportsWords workspace, root⟩
  match answer with
  | .error unrun => return .ok { workspace, targets, error := some unrun.message }
  | .ok printed =>
    match unusedExports view (root.join (.ofString workspace)) targets printed with
    | .ok exports => return .ok { workspace, targets, exports }
    | .error (.toolFailed message _) => return .ok { workspace, targets, error := some message }
    | .error (.badOutput _ cause _) => return .ok { workspace, targets, error := some cause.message }
    | .error fault => return .error fault

end Lintel.Tool
