import Lintel.Shell.Filter
import Lintel.Shell.Reader
import Lintel.Shell.Words

/-!
# Running scripts

A command is run in the world of a script (`runCommand`). Pipes run their first command to its end and
give what it printed to the second one. Commands that are nested too deeply, and loops that go on for too
long, are taken to be stuck.
-/

namespace Lintel.Shell

open Files (Path View)

/-! ## Utilities made of others -/

/-- The value of an operand such as `name=value`. -/
def operand? (name : String) (arguments : List String) : Option String :=
  arguments.findSome? fun argument =>
    if argument.startsWith (name ++ "=") then some (argument.drop (name.length + 1)).toString else none

/-- Copies blocks of its input. -/
def ddUtility : Utility := fun view input arguments =>
  let given := match operand? "if" arguments with
    | some name => source view input name
    | none => .ok input
  match given with
  | .error refusal =>
    let name := (operand? "if" arguments).getD ""
    .complaining (s!"failed to open '{name}': " ++ refusal.words) 1
  | .ok flow =>
    let size := ((operand? "bs" arguments).map sized).getD 512
    let out : Flow := match operand? "count" arguments with
      | some count => { bytes := flow.take (size * sized count) }
      | none => flow
    match operand? "of" arguments with
    | none | some "/dev/stdout" => { out }
    | some name =>
      if out.isEndless then .never
      else
        match filePlace view name with
        | .ok place => { files := some (writeTo view.files place false out.bytes) }
        | .error refusal => .complaining (s!"failed to open '{name}': " ++ refusal.words) 1

/-- Prints the value of a sum. -/
def exprUtility : Utility := fun _ _ arguments =>
  match Arithmetic.arithmetic? (fun _ => 0) (" ".intercalate arguments) with
  | some value => { Done.ofLines [Number.intText value] with status := if value == 0 then 1 else 0 }
  | none => .complaining "syntax error" 2

/-! ## Programs -/

/-- What a name of a program stands for. -/
inductive Program where
  | utility (utility : Utility)
  | shell
  | environment

/-- The utilities that are both programs and part of the shell. -/
def sharedUtilities : List (String × Utility) :=
  [("true", fun _ _ _ => .withStatus 0), ("false", fun _ _ _ => .withStatus 1),
    ("pwd", fun view _ _ => .ofLines [Files.placeText view.current])]

/-- The utilities of the shell. -/
def builtinUtilities : List (String × Utility) :=
  sharedUtilities ++
    [("test", testUtility false false), ("[", testUtility false true),
      (":", fun _ _ _ => .withStatus 0), ("trap", fun _ _ _ => .withStatus 0),
      ("wait", fun _ _ _ => .withStatus 0), ("umask", fun _ _ _ => .withStatus 0),
      ("echo", echoBuiltin),
      ("printf", printfUtility false)]

/-- The utilities that are programs. -/
def programUtilities : List (String × Utility) :=
  sharedUtilities ++
    [("test", testUtility true false), ("[", testUtility true true), ("echo", echoProgram),
      ("printf", printfUtility true),
      ("cat", catUtility), ("head", headUtility), ("tail", tailUtility), ("tr", trUtility),
      ("wc", wcUtility), ("sort", sortUtility), ("uniq", uniqUtility), ("cut", cutUtility),
      ("grep", grepUtility), ("seq", seqUtility), ("yes", yesUtility), ("sleep", sleepUtility),
      ("touch", touchUtility), ("mkdir", mkdirUtility), ("rm", rmUtility), ("rmdir", rmdirUtility),
      ("cp", copyUtility false), ("mv", copyUtility true), ("tee", teeUtility), ("ls", lsUtility),
      ("chmod", fun _ _ _ => .withStatus 0), ("sync", fun _ _ _ => .withStatus 0),
      ("basename", basenameUtility), ("dirname", dirnameUtility), ("dd", ddUtility),
      ("expr", exprUtility)]

/-- The directories of programs. -/
def programDirs : List String := ["/bin/", "/usr/bin/"]

/-- The program with a name that has no slash. -/
def namedProgram? (name : String) : Option Program :=
  match name with
  | "sh" | "dash" => some .shell
  | "env" => some .environment
  | _ => (programUtilities.find? (·.1 == name)).map fun (_, utility) => .utility utility

/-- The program that a name stands for. -/
def program (view : View) (name : String) : Except FileRefusal Program :=
  if name.isEmpty then .error .denied
  else if name.toList.contains '/' then
    let inDir? := programDirs.findSome? fun dir =>
      if name.startsWith dir then namedProgram? (name.drop dir.length).toString else none
    match inDir?, view.locate (.ofString name) with
    | some program, _ => .ok program
    | none, .ok _ => .error .denied
    | none, .error refusal => .error refusal
  else
    match namedProgram? name with
    | some program => .ok program
    | none => .error .missing

/-- Carries out what a utility has done; `complain` writes a complaint. -/
def carryOut (complain : String → Act Unit) (done : Done) : Act Unit := do
  if let some files := done.files then modify fun world => { world with files }
  write 1 done.out
  done.complaints.forM complain
  if Seconds.zero < done.pause then passTime done.pause
  setStatus done.status

/-- Runs a utility. -/
def runUtility (complain : String → Act Unit) (utility : Utility) (arguments : List String) :
    Act Unit := do
  carryOut complain (utility (← view) (← scope).input arguments)

/-! ## Redirections -/

/-- Redirects a stream; false if that is not possible. -/
def redirect (run : String → Act Unit) (redirection : Redirect) : Act Bool := do
  let point := fun (sink : Option Sink) => modifyScope fun scope =>
    let others := scope.sinks.filter (·.1 != redirection.stream)
    { scope with sinks := (sink.toList.map (redirection.stream, ·)) ++ others }
  let sinkOf := fun (stream : Nat) => do
    return ((← scope).sinks.find? (·.1 == stream)).map (·.2)
  match redirection.target with
  | .stream word =>
    let text ← wordText run word
    if redirection.stream == 0 then return true
    point (← if text == "-" then pure none else sinkOf (text.toNat?.getD 1))
    return true
  | .source word =>
    let name ← wordText run word
    match source (← view) (← scope).input name with
    | .ok input => modifyScope fun scope => { scope with input }; return true
    | .error .isDirectory => modifyScope fun scope => { scope with input := {} }; return true
    | .error refusal =>
      let words := if refusal == .missing then "No such file" else refusal.words
      shellComplain (s!"cannot open {name}: " ++ words)
      return false
  | .file word append =>
    let name ← wordText run word
    match name with
    | "/dev/null" => point (some .nothing); return true
    | "/dev/stdout" => point (← sinkOf 1); return true
    | "/dev/stderr" => point (← sinkOf 2); return true
    | _ =>
      match filePlace (← view) name with
      | .ok place =>
        modify fun world => { world with files := writeTo world.files place append [] }
        point (some (.file place))
        return true
      | .error refusal =>
        let isNowhere := refusal == .missing || refusal == .notDirectory
        let words := if isNowhere then "Directory nonexistent" else refusal.words
        shellComplain (s!"cannot create {name}: " ++ words)
        return false

/-- The redirection is one of the input. -/
def Redirect.isSource (redirection : Redirect) : Bool :=
  match redirection.target with
  | .source _ => true
  | _ => false

/-- Runs an action with streams redirected. -/
def redirected (run : String → Act Unit) (redirections : List Redirect) (act : Act Unit) :
    Act Unit := do
  let saved ← scope
  let good ← redirections.foldlM (fun good redirection =>
    if good then redirect run redirection else return false) true
  if good then act else setStatus 2
  let keepsInput := !redirections.any Redirect.isSource
  modifyScope fun scope =>
    { scope with sinks := saved.sinks, input := if keepsInput then scope.input else saved.input }

/-! ## Commands of the shell -/

/-- The numbers of signals by their names. -/
def signals : List (String × Nat) :=
  [("HUP", 1), ("INT", 2), ("QUIT", 3), ("ILL", 4), ("TRAP", 5), ("ABRT", 6), ("BUS", 7), ("FPE", 8),
    ("KILL", 9), ("USR1", 10), ("SEGV", 11), ("USR2", 12), ("PIPE", 13), ("ALRM", 14), ("TERM", 15),
    ("CHLD", 17), ("CONT", 18), ("STOP", 19), ("TSTP", 20), ("URG", 23), ("XCPU", 24), ("XFSZ", 25),
    ("VTALRM", 26), ("PROF", 27), ("WINCH", 28), ("POLL", 29), ("SYS", 31)]

/-- The signals that end nothing. -/
def harmlessSignals : List Nat := [0, 17, 18, 23, 28]

/-- The number of a signal. -/
def signal? (text : String) : Option Nat :=
  let name := if text.startsWith "SIG" then (text.drop 3).toString else text
  text.toNat?.orElse fun _ => (signals.find? (·.1 == name.toUpper)).map (·.2)

/-- Sends a signal to processes. -/
def kill (arguments : List String) : Act Unit := do
  if arguments.head? == some "-l" then
    let number := ((arguments[1]?.bind String.toNat?).getD 0) % 128
    if let some (name, _) := signals.find? (·.2 == number) then write 1 (.ofLines [name])
    setStatus 0
    return ()
  let (signal, targets) := match arguments with
    | "-s" :: name :: targets => (signal? name, targets)
    | first :: targets =>
      if first.startsWith "-" then (signal? (first.drop 1).toString, targets)
      else (some 15, first :: targets)
    | [] => (none, [])
  match signal with
  | none => shellComplain "kill: bad signal"; setStatus 2
  | some signal =>
    if targets.contains processNumber then
      if harmlessSignals.contains signal then setStatus 0
      else if signal == 19 then throw .late
      else throw (.killed signal)
    else
      targets.forM fun _ => shellComplain "kill: No such process"
      setStatus 1

/-- Reads a line of input into variables. -/
def readLine (names : List String) : Act Unit := do
  let names := names.filter fun name => !name.startsWith "-"
  let input := (← scope).input
  let (size, missing) := Flow.lineCut 1 0 input.bytes
  let line := ({ bytes := input.bytes.take size } : Flow).text
  let words := line.splitToList fun c => isSpace c || c == '\n'
  let words := words.filter fun word => !word.isEmpty
  modifyScope fun scope => { scope with input := input.drop size }
  for (name, index) in names.zipIdx do
    let value := if index + 1 == names.length then " ".intercalate (words.drop index)
      else words[index]?.getD ""
    assign name value
  setStatus (if missing == 0 then 0 else 1)

/-- Changes the directory. -/
def changeDirectory (arguments : List String) : Act Unit := do
  match arguments with
  | [] => setStatus 0
  | name :: _ =>
    match (← view).locate (.ofString name) with
    | .ok (directory, .dir) =>
      modifyScope fun scope => { scope with directory }
      setStatus 0
    | _ => shellComplain s!"cd: can't cd to {name}"; setStatus 2

/-- Ends the shell. -/
def leaveShell (arguments : List String) : Act Unit := do
  match arguments with
  | [] => throw (.exit (← scope).status)
  | text :: _ =>
    match text.toNat? with
    | some code => throw (.exit (code % 256))
    | none => shellComplain s!"exit: Illegal number: {text}"; throw (.exit 2)

/-- Sets variables from arguments such as `name=value`. -/
def assignAll (arguments : List String) : Act Unit := do
  for argument in arguments do
    match argument.splitOn "=" with
    | name :: value :: more => assign name ("=".intercalate (value :: more))
    | _ => return ()
  setStatus 0

/-- Sets options of the shell, or its arguments. -/
def setOptions (arguments : List String) : Act Unit := do
  match arguments with
  | "--" :: rest =>
    modifyScope fun scope => { scope with arguments := scope.arguments.take 1 ++ rest }
  | option :: rest =>
    if option.startsWith "-" || option.startsWith "+" then
      if option.toList.contains 'e' then
        modifyScope fun scope => { scope with strict := option.startsWith "-" }
    else
      modifyScope fun scope => { scope with arguments := scope.arguments.take 1 ++ option :: rest }
  | [] => return ()
  setStatus 0

/-- Runs a text as a script in the shell. -/
def runText (run : Command → Act Unit) (text : String) : Act Unit := do
  match read text with
  | .ok command => run command
  | .error (line, flaw) =>
    modifyScope fun scope => { scope with line }
    shellComplain flaw.message
    throw (.exit 2)

/-- Runs a script in a shell of its own. -/
def runScript (run : Command → Act Unit) (script : String) (arguments : List String) : Act Unit :=
  subshell do
    modifyScope fun scope => { scope with arguments, strict := false, status := 0, line := 1 }
    runText run script

/-- Options at the front of arguments, and the other arguments; the option for a script is the last
one. -/
def shellOptions : List String → List Char × List String
  | [] => ([], [])
  | argument :: rest =>
    match argument.toList with
    | '-' :: c :: cs =>
      if (c :: cs).contains 'c' then (c :: cs, rest)
      else
        let (options, rest) := shellOptions rest
        (c :: cs ++ options, rest)
    | _ => ([], argument :: rest)

/-- Runs the program of the shell. -/
def runShell (run : Command → Act Unit) (name : String) (arguments : List String) : Act Unit := do
  let (options, operands) := shellOptions arguments
  let opening := if options.contains 'e' then "set -e; " else ""
  let refused := fun text => do
    complain (name ++ ": 0: " ++ text)
    setStatus 2
  if options.contains 'c' then
    match operands with
    | [] => refused "-c requires an argument"
    | script :: rest => runScript run (opening ++ script) (if rest.isEmpty then [name] else rest)
  else
    match operands with
    | [] => runScript run (opening ++ (← scope).input.text) [name]
    | file :: rest =>
      match source (← view) {} file with
      | .ok flow => runScript run (opening ++ flow.text) (file :: rest)
      | .error _ => refused s!"cannot open {file}: No such file"

/-- Runs a program. -/
def runProgram (run : Command → Act Unit) (program : Program) (name : String)
    (arguments : List String) : Act Unit := do
  let said := fun text => complain (name ++ ": " ++ text)
  match program with
  | .utility utility => runUtility said utility arguments
  | .shell => runShell run name arguments
  | .environment =>
    let isBinding := fun (a : String) => a.toList.contains '=' || a.startsWith "-"
    match arguments.dropWhile isBinding with
    | [] => assignAll []
    | name :: rest =>
      match Shell.program (← view) name with
      | .ok (.utility utility) => runUtility said utility rest
      | .ok .shell => subshell do
        assignAll (arguments.takeWhile isBinding)
        runShell run name rest
      | .ok .environment => setStatus 0
      | .error refusal =>
        complain (s!"env: ‘{name}’: " ++ refusal.words)
        setStatus (if refusal == .missing then 127 else 126)

/-- Runs a command by its name. -/
def runNamed (run : Command → Act Unit) (name : String) (arguments : List String) : Act Unit := do
  match name with
  | "exit" => leaveShell arguments
  | "cd" => changeDirectory arguments
  | "kill" => kill arguments
  | "read" => readLine arguments
  | "set" => setOptions arguments
  | "export" | "readonly" | "local" => assignAll arguments
  | "unset" => modifyScope fun scope =>
    { scope with bindings := scope.bindings.filter fun v => !arguments.contains v.1, status := 0 }
  | "shift" => modifyScope fun scope =>
    { scope with arguments := scope.arguments.take 1 ++ scope.arguments.drop 2, status := 0 }
  | "eval" => runText run (" ".intercalate arguments)
  | "break" => throw .leave
  | "continue" => throw .again
  | _ =>
    match builtinUtilities.find? (·.1 == name) with
    | some (_, utility) =>
      runUtility (fun text => shellComplain (name ++ ": " ++ text)) utility arguments
    | none =>
      match program (← view) name with
      | .ok program => runProgram run program name arguments
      | .error .missing => shellComplain (name ++ ": not found"); setStatus 127
      | .error refusal => shellComplain (name ++ ": " ++ refusal.words); setStatus 126

/-- Runs a simple command. -/
def runSimple (run : Command → Act Unit) (line : Nat) (assigned : List (String × Word))
    (words : List Word) (redirections : List Redirect) : Act Unit := do
  modifyScope fun scope => { scope with line }
  let script := runText run
  let fields ← words.mapM (fields script)
  match fields.flatten with
  | [] =>
    setStatus 0
    redirected script redirections (return ())
    for (name, word) in assigned do
      assign name (← wordText script word)
  | "exec" :: rest =>
    let good ← redirections.foldlM (fun good redirection =>
      if good then redirect script redirection else return false) true
    if !good then throw (.exit 2)
    match rest with
    | [] => setStatus 0
    | name :: arguments => do
      match program (← view) name with
      | .ok program => runProgram run program name arguments
      | .error .missing => shellComplain ("exec: " ++ name ++ ": not found"); setStatus 127
      | .error refusal => shellComplain ("exec: " ++ name ++ ": " ++ refusal.words); setStatus 126
      throw (.exit (← scope).status)
  | name :: arguments =>
    let saved := (← scope).bindings
    for (name, word) in assigned do
      assign name (← wordText script word)
    redirected script redirections (runNamed run name arguments)
    if !assigned.isEmpty then modifyScope fun scope => { scope with bindings := saved }

/-! ## Compound commands -/

/-- Runs two commands joined by a pipe. -/
def runPipe (first second : Act Unit) : Act Unit := do
  let start := (← get).clock
  let input ← collect (subshell first)
  let middle := (← get).clock
  modify fun world => { world with clock := start }
  subshell do
    modifyScope fun scope => { scope with input }
    second
  modify fun world =>
    { world with clock := if world.clock < middle then middle else world.clock }

/-- How often a loop may run its body. -/
def mostRounds : Nat := 200000

/-- Runs the body of a loop once; false if the loop is left. -/
def runBody (body : Act Unit) : Act Bool :=
  tryCatch (do body; return true) fun
    | .leave => return false
    | .again => return true
    | stop => throw stop

/-- Runs a body as long as a condition holds. -/
def runLoop (condition : Act Bool) (body : Act Unit) : Nat → Act Unit
  | 0 => throw .stuck
  | rounds + 1 => do
    if ← condition then
      if ← runBody body then runLoop condition body rounds else setStatus 0
    else setStatus 0

/-- Runs a body for each of some values. -/
def runEach (name : String) (body : Act Unit) : List String → Act Unit
  | [] => return ()
  | value :: values => do
    assign name value
    if ← runBody body then runEach name body values else return ()

/-- Ends a strict shell after a command that failed. -/
def checkStrict (tested : Bool) : Act Unit := do
  let scope ← scope
  if scope.strict && !tested && scope.status != 0 then throw (.exit scope.status)

/-- Runs a command; the status of a command that is `tested` is asked for. -/
def runCommand : Nat → Bool → Command → Act Unit
  | 0, _, _ => throw .stuck
  | depth + 1, tested, command => do
    let run := runCommand depth tested
    let holds := fun (condition : Command) => do
      runCommand depth true condition
      return (← scope).status == 0
    match command with
    | .nothing => return ()
    | .simple line assigned words redirections =>
      runSimple (runCommand depth false) line assigned words redirections
      checkStrict tested
    | .pipe first second => runPipe (run first) (run second); checkStrict tested
    | .negated body =>
      let held ← holds body
      setStatus (if held then 1 else 0)
    | .andThen first second => if ← holds first then run second
    | .orElse first second => if ← holds first then return () else run second
    | .row first second => run first; run second
    | .choose condition body other =>
      if ← holds condition then run body
      else
        setStatus 0
        run other
    | .loop negated condition body =>
      runLoop (do return (← holds condition) != negated) (run body) mostRounds
    | .each name words body =>
      let values ← words.mapM (fields (runText run))
      runEach name (run body) values.flatten
    | .group own body redirections =>
      redirected (runText run) redirections (if own then subshell (run body) else run body)

/-- How deeply commands may be nested. -/
def mostDepth : Nat := 100000

/-- Runs a command of a script. -/
def runTop : Command → Act Unit := runCommand mostDepth false

/-! ## Processes -/

/-- How a process ended: with a number, or because it printed or took too much. -/
inductive Finish where
  | ended (code : Int)
  | flood
  | late
  deriving DecidableEq, Repr

/-- The end that a stop brings about. -/
def Stop.finish : Stop → Finish
  | .exit code => .ended code
  | .killed signal => .ended (-signal)
  | .flood => .flood
  | .late | .stuck => .late
  | .leave | .again => .ended 0

/-- Runs a program in a world, to its end. -/
def World.execute (world : World) (program : Program) (name : String) (arguments : List String) :
    Finish × World :=
  let act : Act Unit := do
    passTime .zero
    runProgram runTop program name arguments
  match (ExceptT.run act).run world with
  | (.ok (), world) => (.ended world.scope.status, world)
  | (.error stop, world) => (stop.finish, world)

end Lintel.Shell
