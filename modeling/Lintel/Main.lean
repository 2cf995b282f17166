import Lintel.Bundle.Home
import Lintel.Child.Run
import Lintel.Cli.Run
import Lintel.TypeScript.Program

/-!
# The program

The command line of the program: it takes the files of the project and the variables of the environment
in, runs the program on them, and prints what comes out. All decisions are made elsewhere.
-/

namespace Lintel

open Files (Place View)

/-- The names of directories that are left out. -/
def leftOut : List String := [".git", "node_modules"]

/-- The entries at a path and below it, each with its place. -/
partial def entriesAt (text : String) (place : Place) : IO (List (Place × Entry)) := do
  let path ← IO.FS.realPath text
  if ← path.isDir then
    let names := (← path.readDir).toList.map (·.fileName)
    let found ← (names.filter (!leftOut.contains ·)).mapM fun name =>
      entriesAt (text ++ "/" ++ name) (place ++ [name])
    return (place, .dir) :: found.flatten
  else
    let bytes ← IO.FS.readBinFile text
    return [(place, .file bytes.toList none)]

/-- The variables of the environment that settings look at. -/
def environment : IO Variables.Bindings := do
  let names := (Settings.initial (.ofPlace [])).members.map fun (name, _) =>
    (Settings.variableStart ++ name).toUpper
  let found ← names.mapM fun name => do return (← IO.getEnv name).map fun value => (name, some value)
  return found.filterMap id

/-- The answer in place of a chat model, which this program has no line to. -/
def silentModel : Review.Talk.Model Unit := fun memory _ =>
  (memory, .zero, .error "no chat model can be reached")

/-- Runs the program on the files below a directory. -/
def runIn (directory : Place) (files : Files) (bindings : Variables.Bindings)
    (arguments : List String) : Except Fault Cli.Ended :=
  let view : View := ⟨Bundle.install files, directory⟩
  let contextOf := fun settings =>
    { settings, view, reading := TypeScript.program, run := Child.ofSettings settings,
      model := .ok silentModel : Operation.Context (StateM View) Unit }
  ((Cli.run contextOf () view bindings arguments).run view).1

end Lintel

/-- Runs the program in the current directory. -/
def main (arguments : List String) : IO UInt32 := do
  let current := (← IO.FS.realPath ".").toString
  let directory := (Lintel.Files.Path.ofString current).parts
  let start := Lintel.Files.empty.put directory .dir
  let files := { start with entries := start.entries ++ (← Lintel.entriesAt "." directory).drop 1 }
  match Lintel.runIn directory files (← Lintel.environment) arguments with
  | .ok ended =>
    IO.print ended.out
    return UInt32.ofNat ended.code
  | .error fault =>
    IO.eprintln fault.line
    return 1
