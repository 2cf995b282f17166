import Lintel.Proofs.Shell.Steady
import Lintel.Shell.Machine

/-!
# Scripts are steady

Everything that a script can do is steady, by the parts of which it is made: only what is sent to the streams
of the process meets the limit, and a script that is cut off is not taken up again.

* `Steady.send`, `Steady.subshell`, `Steady.collect`: output, and actions in scopes of their own;
* `Steady.partText`, `Steady.fields`: words;
* `Steady.redirected`, `Steady.runProgram`, `Steady.runSimple`, `Steady.runLoop`: commands, from those that
  they run;
* **`Steady.runCommand`**: all commands.
-/

namespace Lintel.Shell

open Files (View)

namespace Steady

variable {α : Type}

/-! ## The world of a script -/

theorem ite {p : Prop} [Decidable p] {first second : Act α} (hfirst : Steady first)
    (hsecond : Steady second) : Steady (if p then first else second) := by
  split
  · exact hfirst
  · exact hsecond

theorem throwIf {p : Prop} [Decidable p] {stop : Stop} {next : PUnit → Act α}
    (hnext : ∀ a, Steady (next a)) :
    Steady (if p then MonadExcept.throw stop >>= next else next PUnit.unit) :=
  ite ((throw stop).bind hnext) (hnext _)

theorem scope : Steady Shell.scope := get_bind (fun _ _ _ => rfl) fun world => pure world.scope

theorem view : Steady Shell.view := get_bind (fun _ _ _ => rfl) fun _ => pure _

theorem setStatus (status : Nat) : Steady (setStatus status) := modifyScope _

theorem assign (name value : String) : Steady (assign name value) := modifyScope _

theorem passTime (delay : Seconds) : Steady (passTime delay) :=
  (modify fun _ _ _ => rfl).bind fun _ =>
    get_bind (fun _ _ _ => rfl) fun _ => ite (pure ()) (throw .late)

/-- Sending output is steady: to the process, it is one more piece; endless output is cut off at every
limit. -/
theorem send (flow : Flow) (sink : Sink) : Steady (send flow sink) := by
  cases sink with
  | process stream => exact throwIf fun _ => accept ⟨stream, flow.bytes⟩
  | file place => exact throwIf fun _ => modify fun _ _ _ => rfl
  | nothing => exact ite (throw .late) (pure ())
  | buffer index => exact modify fun _ _ _ => rfl

theorem write (stream : Nat) (flow : Flow) : Steady (write stream flow) := by
  refine scope.bind fun scope => ?_
  split
  · exact send flow _
  · exact pure ()

theorem complain (text : String) : Steady (complain text) := write 2 _

theorem shellComplain (text : String) : Steady (shellComplain text) := scope.bind fun _ => complain _

theorem catching {act : Act Unit} {caught : Stop → Option (Act Unit)} (hact : Steady act)
    (hcaught : ∀ stop next, caught stop = some next → Steady next) (hflood : caught .flood = none) :
    Steady (catching act caught) := by
  refine hact.tryCatch (fun stop => ?_) ?_
  · cases h : caught stop with
    | none => exact throw stop
    | some next => exact hcaught stop next h
  · rw [hflood]
    rfl

theorem subshell {act : Act Unit} (hact : Steady act) : Steady (subshell act) := by
  refine scope.bind fun saved => Steady.bind ?_ fun _ => scope.bind fun _ => modifyScope _
  refine hact.catching (fun stop next hnext => ?_) rfl
  split at hnext
  · exact Option.some.inj hnext ▸ setStatus _
  · exact Option.some.inj hnext ▸ pure ()
  · exact Option.some.inj hnext ▸ pure ()
  · cases hnext

theorem collect {act : Act Unit} (hact : Steady act) : Steady (collect act) := by
  refine get_bind (fun _ _ _ => rfl) fun world => (modify fun _ _ _ => rfl).bind fun _ =>
    scope.bind fun saved => (modifyScope _).bind fun _ => Steady.bind ?_ fun _ =>
      (modifyScope _).bind fun _ => get_set (fun _ _ _ => rfl) fun _ _ _ => rfl
  refine hact.catching (fun stop next hnext => ?_) rfl
  split at hnext
  · exact Option.some.inj hnext ▸ pure ()
  · cases hnext

/-! ## Words -/

section Words

variable {run : String → Act Unit} (hrun : ∀ script, Steady (run script))

include hrun

theorem partText (part : Part) : Steady (partText run part) := by
  match part with
  | .plain text => exact pure _
  | .quoted text => exact pure _
  | .variable name default quoted => exact scope.bind fun _ => pure _
  | .command script quoted =>
    exact (hrun script).subshell.collect.bind fun flow => throwIf fun _ => pure _
  | .arithmetic text quoted =>
    refine scope.bind fun scope => ?_
    dsimp only
    split
    · exact pure _
    · exact (shellComplain _).bind fun _ => throw _

theorem placePart (found : Fields) (part : Part) : Steady (placePart run found part) := by
  unfold Shell.placePart
  split
  · exact scope.bind fun _ => pure _
  · refine (partText hrun part).bind fun text => ?_
    dsimp only
    split
    · exact pure _
    · exact pure _

theorem fields (word : Word) : Steady (fields run word) :=
  (foldlM (placePart hrun) {} word).bind fun _ => view.bind fun _ => pure _

theorem wordText (word : Word) : Steady (wordText run word) :=
  (mapM (partText hrun) word).bind fun _ => pure _

end Words

/-! ## Utilities and redirections -/

theorem carryOut {complain : String → Act Unit} (hcomplain : ∀ text, Steady (complain text))
    (done : Done) : Steady (carryOut complain done) := by
  have hrest : Steady (do
      Shell.write 1 done.out
      done.complaints.forM complain
      if Seconds.zero < done.pause then Shell.passTime done.pause
      Shell.setStatus done.status) :=
    (write 1 _).bind fun _ => (forM hcomplain _).bind fun _ =>
      ite ((passTime _).bind fun _ => setStatus _) (setStatus _)
  unfold Shell.carryOut
  cases done.files with
  | none => exact hrest
  | some files => exact (modify fun _ _ _ => rfl).bind fun _ => hrest

theorem runUtility {complain : String → Act Unit} (hcomplain : ∀ text, Steady (complain text))
    (utility : Utility) (arguments : List String) : Steady (runUtility complain utility arguments) :=
  view.bind fun _ => scope.bind fun _ => carryOut hcomplain _

section Redirections

variable {run : String → Act Unit} (hrun : ∀ script, Steady (run script))

include hrun

theorem redirect (redirection : Redirect) : Steady (redirect run redirection) := by
  unfold Shell.redirect
  dsimp only
  split
  · exact (wordText hrun _).bind fun _ => ite (pure _)
      (ite ((pure _).bind fun _ => (modifyScope _).bind fun _ => pure _)
        ((scope.bind fun _ => pure _).bind fun _ => (modifyScope _).bind fun _ => pure _))
  · refine (wordText hrun _).bind fun name => view.bind fun _ => scope.bind fun _ => ?_
    split
    · exact (modifyScope _).bind fun _ => pure _
    · exact (modifyScope _).bind fun _ => pure _
    · exact (shellComplain _).bind fun _ => pure _
  · refine (wordText hrun _).bind fun name => ?_
    split
    · exact (modifyScope _).bind fun _ => pure _
    · exact (scope.bind fun _ => pure _).bind fun _ => (modifyScope _).bind fun _ => pure _
    · exact (scope.bind fun _ => pure _).bind fun _ => (modifyScope _).bind fun _ => pure _
    · refine view.bind fun _ => ?_
      split
      · exact (modify fun _ _ _ => rfl).bind fun _ => (modifyScope _).bind fun _ => pure _
      · exact (shellComplain _).bind fun _ => pure _

theorem redirectAll (redirections : List Redirect) :
    Steady (redirections.foldlM (fun good redirection =>
      if good then Shell.redirect run redirection else return false) true) :=
  foldlM (fun _ redirection => ite (redirect hrun redirection) (pure _)) true redirections

theorem redirected (redirections : List Redirect) {act : Act Unit} (hact : Steady act) :
    Steady (redirected run redirections act) :=
  scope.bind fun _ => (redirectAll hrun redirections).bind fun _ =>
    ite (hact.bind fun _ => modifyScope _) ((setStatus 2).bind fun _ => modifyScope _)

end Redirections

/-! ## Commands of the shell -/

theorem kill (arguments : List String) : Steady (kill arguments) := by
  unfold Shell.kill
  split
  · have hrest : Steady (do Shell.setStatus 0; return () : Act Unit) :=
      (setStatus 0).bind fun _ => pure ()
    dsimp only
    split
    · exact (write 1 _).bind fun _ => hrest
    · exact hrest
  · split
    split
    · exact (shellComplain _).bind fun _ => setStatus 2
    · exact ite (ite (setStatus 0) (ite (throw _) (throw _)))
        ((forM (fun _ => shellComplain _) _).bind fun _ => setStatus 1)

theorem readLine (names : List String) : Steady (readLine names) := by
  unfold Shell.readLine
  refine scope.bind fun scope => ?_
  dsimp only
  refine (modifyScope _).bind fun _ => (forIn (fun named _ => ?_) _ _).bind fun _ => setStatus _
  exact (assign _ _).bind fun _ => pure _

theorem changeDirectory (arguments : List String) : Steady (changeDirectory arguments) := by
  unfold Shell.changeDirectory
  split
  · exact setStatus 0
  · refine view.bind fun view => ?_
    split
    · exact (modifyScope _).bind fun _ => setStatus 0
    · exact (shellComplain _).bind fun _ => setStatus 2

theorem leaveShell (arguments : List String) : Steady (leaveShell arguments) := by
  unfold Shell.leaveShell
  split
  · exact scope.bind fun _ => throw _
  · split
    · exact throw _
    · exact (shellComplain _).bind fun _ => throw _

theorem assignAll (arguments : List String) : Steady (assignAll arguments) := by
  unfold Shell.assignAll
  refine (forIn (fun argument _ => ?_) _ _).bind fun left => ?_
  · split
    · exact (assign _ _).bind fun _ => pure _
    · exact pure _
  · dsimp only
    split
    · exact pure _
    · exact setStatus 0

theorem setOptions (arguments : List String) : Steady (setOptions arguments) := by
  unfold Shell.setOptions
  split
  · exact (modifyScope _).bind fun _ => setStatus 0
  · exact ite (ite ((modifyScope _).bind fun _ => setStatus 0) (setStatus 0))
      ((modifyScope _).bind fun _ => setStatus 0)
  · exact pure ()

section Commands

variable {run : Command → Act Unit} (hrun : ∀ command, Steady (run command))

include hrun

theorem runText (text : String) : Steady (runText run text) := by
  unfold Shell.runText
  split
  · exact hrun _
  · exact (modifyScope _).bind fun _ => (shellComplain _).bind fun _ => throw _

theorem runScript (script : String) (arguments : List String) :
    Steady (runScript run script arguments) :=
  ((modifyScope _).bind fun _ => runText hrun script).subshell

theorem runShell (name : String) (arguments : List String) : Steady (runShell run name arguments) := by
  have hrefused : ∀ text, Steady (do Shell.complain (name ++ ": 0: " ++ text); Shell.setStatus 2) :=
    fun text => (complain _).bind fun _ => setStatus 2
  unfold Shell.runShell
  dsimp only
  split
  · split
    · exact hrefused _
    · exact runScript hrun _ _
  · split
    · exact scope.bind fun _ => runScript hrun _ _
    · refine view.bind fun _ => ?_
      split
      · exact runScript hrun _ _
      · exact hrefused _

theorem runProgram (program : Program) (name : String) (arguments : List String) :
    Steady (runProgram run program name arguments) := by
  cases program with
  | utility utility => exact runUtility (fun _ => complain _) utility arguments
  | shell => exact runShell hrun name arguments
  | environment =>
    unfold Shell.runProgram
    dsimp only
    split
    · exact assignAll []
    · refine view.bind fun _ => ?_
      split
      · exact runUtility (fun _ => complain _) _ _
      · exact ((assignAll _).bind fun _ => runShell hrun _ _).subshell
      · exact setStatus 0
      · exact (complain _).bind fun _ => setStatus _

theorem runNamed (name : String) (arguments : List String) :
    Steady (runNamed run name arguments) := by
  unfold Shell.runNamed
  split
  · exact leaveShell arguments
  · exact changeDirectory arguments
  · exact kill arguments
  · exact readLine arguments
  · exact setOptions arguments
  · exact assignAll arguments
  · exact assignAll arguments
  · exact assignAll arguments
  · exact modifyScope _
  · exact modifyScope _
  · exact runText hrun _
  · exact throw _
  · exact throw _
  · split
    · exact runUtility (fun _ => shellComplain _) _ _
    · refine view.bind fun _ => ?_
      split
      · exact runProgram hrun _ _ _
      · exact (shellComplain _).bind fun _ => setStatus 127
      · exact (shellComplain _).bind fun _ => setStatus 126

theorem runSimple (line : Nat) (assigned : List (String × Word)) (words : List Word)
    (redirections : List Redirect) :
    Steady (runSimple run line assigned words redirections) := by
  have hscript : ∀ text, Steady (Shell.runText run text) := runText hrun
  have hleave : Steady (do MonadExcept.throw (.exit (← Shell.scope).status) : Act Unit) :=
    scope.bind fun _ => throw _
  unfold Shell.runSimple
  refine (modifyScope _).bind fun _ => (mapM (fields hscript) words).bind fun found => ?_
  split
  · refine (setStatus 0).bind fun _ => (redirected hscript redirections (pure ())).bind fun _ =>
      (forIn (fun _ _ => ?_) _ _).bind fun _ => pure _
    exact (wordText hscript _).bind fun _ => (assign _ _).bind fun _ => pure _
  · refine (redirectAll hscript redirections).bind fun _ => throwIf fun _ => ?_
    split
    · exact setStatus 0
    · refine view.bind fun _ => ?_
      dsimp only
      split
      · exact (runProgram hrun _ _ _).bind fun _ => hleave
      · exact (shellComplain _).bind fun _ => (setStatus 127).bind fun _ => hleave
      · exact (shellComplain _).bind fun _ => (setStatus 126).bind fun _ => hleave
  · refine scope.bind fun _ => (forIn (fun _ _ => ?_) _ _).bind fun _ =>
      (redirected hscript redirections (runNamed hrun _ _)).bind fun _ =>
        ite (modifyScope _) (pure ())
    exact (wordText hscript _).bind fun _ => (assign _ _).bind fun _ => pure _

end Commands

/-! ## Compound commands -/

theorem runPipe {first second : Act Unit} (hfirst : Steady first) (hsecond : Steady second) :
    Steady (runPipe first second) :=
  get_bind (fun _ _ _ => rfl) fun _ => hfirst.subshell.collect.bind fun _ =>
    get_bind (fun _ _ _ => rfl) fun _ => (modify fun _ _ _ => rfl).bind fun _ =>
      ((modifyScope _).bind fun _ => hsecond).subshell.bind fun _ => modify fun _ _ _ => rfl

theorem runBody {body : Act Unit} (hbody : Steady body) : Steady (runBody body) := by
  refine (hbody.bind fun _ => pure true).tryCatch (fun stop => ?_) rfl
  split
  · exact pure false
  · exact pure true
  · exact throw _

theorem runLoop {condition : Act Bool} {body : Act Unit} (hcondition : Steady condition)
    (hbody : Steady body) (rounds : Nat) : Steady (runLoop condition body rounds) := by
  induction rounds with
  | zero => exact throw .stuck
  | succ rounds ih =>
    exact hcondition.bind fun _ =>
      ite ((runBody hbody).bind fun _ => ite ih (setStatus 0)) (setStatus 0)

theorem runEach (name : String) {body : Act Unit} (hbody : Steady body) (values : List String) :
    Steady (runEach name body values) := by
  induction values with
  | nil => exact pure ()
  | cons value values ih =>
    exact (assign name value).bind fun _ => (runBody hbody).bind fun _ => ite ih (pure ())

theorem checkStrict (tested : Bool) : Steady (checkStrict tested) :=
  scope.bind fun _ => ite (throw _) (pure ())

/-- **All commands are steady**, however deeply they are nested. -/
theorem runCommand (depth : Nat) (tested : Bool) (command : Command) :
    Steady (runCommand depth tested command) := by
  induction depth generalizing tested command with
  | zero => exact throw .stuck
  | succ depth ih =>
    have hholds : ∀ condition, Steady (do
        Shell.runCommand depth true condition
        return (← Shell.scope).status == 0) :=
      fun condition => (ih true condition).bind fun _ => scope.bind fun _ => pure _
    have hscript : ∀ text, Steady (Shell.runText (Shell.runCommand depth tested) text) :=
      runText (ih tested)
    cases command with
    | nothing => exact pure ()
    | simple line assigned words redirections =>
      exact (runSimple (ih false) line assigned words redirections).bind fun _ => checkStrict tested
    | pipe first second =>
      exact (runPipe (ih tested first) (ih tested second)).bind fun _ => checkStrict tested
    | negated body => exact (hholds body).bind fun _ => setStatus _
    | andThen first second => exact (hholds first).bind fun _ => ite (ih tested second) (pure ())
    | orElse first second => exact (hholds first).bind fun _ => ite (pure ()) (ih tested second)
    | row first second => exact (ih tested first).bind fun _ => ih tested second
    | choose condition body other =>
      exact (hholds condition).bind fun _ =>
        ite (ih tested body) ((setStatus 0).bind fun _ => ih tested other)
    | loop negated condition body =>
      exact runLoop ((hholds condition).bind fun _ => pure _) (ih tested body) mostRounds
    | each name words body =>
      exact (mapM (fields hscript) words).bind fun _ => runEach name (ih tested body) _
    | group own body redirections =>
      exact redirected hscript redirections (ite (ih tested body).subshell (ih tested body))

end Steady

end Lintel.Shell
