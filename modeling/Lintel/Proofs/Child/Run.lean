import Lintel.Child.Run
import Lintel.Proofs.Child.Capture
import Lintel.Proofs.Except
import Lintel.Proofs.Shell.Scripts

/-!
# Commands and what they print

What is said of a command depends on what its process prints to each stream, but neither on the pieces in which
that arrives nor on their order across the streams.

* **`collected_eq`**: what is said of a command whose process prints a row of pieces;
* `Process.Prints`: a process that prints these pieces at all limits; `run_eq_collected`: what is said of its
  command;
* **`exists_printed`**, `exists_prints`: the processes of a shell are such processes;
* **`collected_ended_and_run`**: both, for any system; `not_forall_collected_iff`: no output is never too much.
-/

namespace Lintel.Child

open Files (View)
open Shell (Act Bounds Finish Program Steady Stop World)
open Text (Bytes)
open Tool (Printed)

variable {outs errs : List Bytes} {arrivals : List Arrival}

/-- What is said of a command whose process prints these pieces and ends so, unless it prints too much. -/
def Request.collected (request : Request) (bounds : Bounds) (arrivals : List Arrival)
    (finish : Finish) : Except Fault Printed :=
  match Capture.collect bounds.most arrivals with
  | some capture => request.answer bounds capture finish
  | none => request.answer bounds {} .flood

/-- What is captured if each stream arrives in one piece. -/
def Capture.whole (out err : Bytes) : Capture := ⟨out.length + err.length, [out], [err]⟩

theorem Capture.bytes_whole (out err : Bytes) :
    (Capture.whole out err).bytes .out = out ∧ (Capture.whole out err).bytes .err = err :=
  ⟨List.append_nil out, List.append_nil err⟩

theorem answer_congr {capture capture' : Capture} (hout : capture.bytes .out = capture'.bytes .out)
    (herr : capture.bytes .err = capture'.bytes .err) (request : Request) (bounds : Bounds)
    (finish : Finish) : request.answer bounds capture finish = request.answer bounds capture' finish := by
  cases finish with
  | ended exit =>
    unfold Request.answer Capture.text
    rw [hout, herr]
  | flood => rfl
  | late => rfl

/-- **What is said of a command depends on what its process prints to the two streams**, not on the pieces and
the row in which it arrives. -/
theorem collected_eq (request : Request) (bounds : Bounds) (finish : Finish)
    (h : Interleaved outs errs arrivals) :
    request.collected bounds arrivals finish =
      if Exceeds bounds.most outs errs then request.answer bounds {} .flood
      else request.answer bounds (.whole outs.flatten errs.flatten) finish := by
  have hnone : Capture.collect bounds.most arrivals = none ↔ Exceeds bounds.most outs errs :=
    Capture.collect_eq_none h
  unfold Request.collected
  cases hcollect : Capture.collect bounds.most arrivals with
  | none => rw [if_pos (hnone.mp hcollect)]
  | some capture =>
    have hfits : ¬ Exceeds bounds.most outs errs := fun hmore => by
      rw [hnone.mpr hmore] at hcollect
      cases hcollect
    obtain ⟨hout, herr⟩ := Capture.bytes_of_collect h hcollect
    obtain ⟨hout', herr'⟩ := Capture.bytes_whole outs.flatten errs.flatten
    rw [if_neg hfits]
    exact answer_congr (hout.trans hout'.symm) (herr.trans herr'.symm) request bounds finish

/-! ## Processes -/

/-- At all limits the process prints the pieces, and ends so unless they are too much. -/
def Process.Prints (process : Process) (time : Seconds) (arrivals : List Arrival) (finish : Finish) : Prop :=
  ∀ most,
    (∀ capture, Capture.collect most arrivals = some capture →
      (process ⟨time, most⟩).1 = finish ∧ (process ⟨time, most⟩).2.1 = capture) ∧
    (Capture.collect most arrivals = none → (process ⟨time, most⟩).1 = Finish.flood)

/-- **What is said of a command that starts** is what is collected of the pieces that its process prints. -/
theorem run_eq_collected {system : System} {request : Request} {view : View} {process : Process}
    {time : Seconds} {finish : Finish} (hstart : system request view = .ok process)
    (hprints : process.Prints time arrivals finish) (most : ℤ) :
    (run ⟨time, most⟩ request view system).1 = request.collected ⟨time, most⟩ arrivals finish := by
  obtain ⟨hthrough, hcut⟩ := hprints most
  unfold run Request.collected
  rw [hstart]
  change request.answer ⟨time, most⟩ (process ⟨time, most⟩).2.1 (process ⟨time, most⟩).1 = _
  cases hcollect : Capture.collect most arrivals with
  | none =>
    rw [hcut hcollect]
    rfl
  | some capture =>
    obtain ⟨hfinish, hcapture⟩ := hthrough capture hcollect
    rw [hfinish, hcapture]

/-- How a process ends whose action has this result. -/
def finishOf (result : Except Stop Unit) (world : World) : Finish :=
  match result with
  | .ok () => .ended world.scope.status
  | .error stop => stop.finish

theorem execute_eq (world : World) (program : Program) (name : String) (arguments : List String) :
    world.execute program name arguments =
      let ended := Act.from (do
        Shell.passTime .zero
        Shell.runProgram Shell.runTop program name arguments) world
      (finishOf ended.1 ended.2, ended.2) := by
  unfold World.execute
  dsimp only
  split
  · next h => rw [Act.from, h]; rfl
  · next h => rw [Act.from, h]; rfl

/-- **A process prints the same pieces at all limits**, and ends in the same way unless it is cut off. -/
theorem exists_printed (world : World) (program : Program) (name : String) (arguments : List String) :
    ∃ arrivals finish, ∀ most,
      let ended := (world.taking most {}).execute program name arguments
      (∀ capture, Capture.collect most arrivals = some capture →
        ended.1 = finish ∧ ended.2.capture = capture) ∧
      (Capture.collect most arrivals = none → ended.1 = Finish.flood) := by
  have hsteady : Steady (do
      Shell.passTime .zero
      Shell.runProgram Shell.runTop program name arguments) :=
    (Steady.passTime .zero).bind fun _ =>
      Steady.runProgram (Steady.runCommand Shell.mostDepth false) program name arguments
  obtain ⟨⟨printed, result, after⟩, hcourse⟩ := hsteady world
  refine ⟨printed, finishOf result after, fun most => ⟨fun capture hcapture => ?_, fun hnone => ?_⟩⟩
  · rw [execute_eq]
    dsimp only
    rw [hcourse.through most {} capture hcapture]
    exact ⟨rfl, rfl⟩
  · rw [execute_eq]
    dsimp only
    rw [hcourse.cut most {} hnone]
    rfl

/-- A process of a shell prints the same pieces at all limits. -/
theorem exists_prints {request : Request} {view : View} {process : Process}
    (hstart : shell request view = .ok process) (time : Seconds) :
    ∃ arrivals finish, process.Prints time arrivals finish := by
  obtain ⟨start, -, rfl⟩ := map_eq_ok.mp hstart
  let world : World :=
    { bounds := ⟨time, 0⟩, files := start.view.files, scope := { directory := start.view.current } }
  obtain ⟨arrivals, finish, hprinted⟩ := exists_printed world start.program start.name start.arguments
  exact ⟨arrivals, finish, hprinted⟩

/-- The text of a stream that arrives in one piece. -/
def textOf (bytes : Bytes) : String := String.ofList (Text.decodeLossy bytes)

/-- **What is said of a command that starts and ends.** Whatever the pieces of its two streams and the row in
which they arrive, it fails exactly if something is printed and there is too much of it, and else the text of
each stream is that of the whole stream. What is said when a command is run is what is collected of the two
streams that its process prints, in whatever row they arrive; every process of a shell prints two streams that
are the same at all limits. -/
theorem collected_ended_and_run (system : System) (request : Request) (time : Seconds) :
    (∀ outs errs arrivals, Interleaved outs errs arrivals → ∀ most exit,
      request.collected ⟨time, most⟩ arrivals (.ended exit) =
        if Exceeds most outs errs then .error (failure request (floodMessage request ⟨time, most⟩))
        else .ok ⟨exit, textOf outs.flatten, textOf errs.flatten⟩) ∧
    (∀ view process, system request view = .ok process → ∀ outs errs printed finish,
      Interleaved outs errs printed → process.Prints time printed finish →
        ∀ arrivals, Interleaved outs errs arrivals → ∀ most,
          (run ⟨time, most⟩ request view system).1 = request.collected ⟨time, most⟩ arrivals finish) ∧
    ∀ view process, shell request view = .ok process → ∃ outs errs printed finish,
      Interleaved outs errs printed ∧ process.Prints time printed finish := by
  refine ⟨fun outs errs arrivals h most exit => ?_, ?_, fun view process hstart => ?_⟩
  · obtain ⟨hout, herr⟩ := Capture.bytes_whole outs.flatten errs.flatten
    rw [collected_eq request ⟨time, most⟩ (.ended exit) h]
    unfold Request.answer Capture.text
    rw [hout, herr]
    rfl
  · intro view process hstart outs errs printed finish hprinted hprints arrivals h most
    rw [run_eq_collected hstart hprints, collected_eq request ⟨time, most⟩ finish hprinted,
      collected_eq request ⟨time, most⟩ finish h]
  · obtain ⟨printed, finish, hprints⟩ := exists_prints hstart time
    obtain ⟨outs, errs, hprinted⟩ := exists_interleaved printed
    exact ⟨outs, errs, printed, finish, hprinted, hprints⟩

/-! ## A letter in two pieces, and no output -/

/-- A command that does nothing, in the root directory. -/
def idle : Request := ⟨["true"], "/"⟩

/-- A letter that arrives in two pieces, with a sign on the other stream between them. -/
def splitLetter : List Arrival := [⟨.out, [0xc3]⟩, ⟨.err, [0x21]⟩, ⟨.out, [0xa9]⟩]

/-- A process that prints the pieces, exits without an error and leaves no file. -/
def printing (arrivals : List Arrival) : Process := fun bounds =>
  match Capture.collect bounds.most arrivals with
  | some capture => (.ended 0, capture, .empty)
  | none => (.flood, {}, .empty)

theorem prints_printing (arrivals : List Arrival) (time : Seconds) :
    (printing arrivals).Prints time arrivals (.ended 0) := by
  refine fun most => ⟨fun capture hcapture => ?_, fun hnone => ?_⟩
  · simp [printing, hcapture]
  · simp [printing, hnone]

theorem collected_ended_and_run_splitLetter :
    let time := Number.Binary64.ofInt 300
    let system : System := fun _ _ => .ok (printing splitLetter)
    Interleaved [[0xc3], [0xa9]] [[0x21]] splitLetter ∧
      (run ⟨time, 3⟩ idle ⟨.empty, []⟩ system).1 = .ok ⟨0, "é", "!"⟩ ∧
      (run ⟨time, 2⟩ idle ⟨.empty, []⟩ system).1 =
        .error (.toolFailed "Output of `true` exceeded 2 bytes" "true") ∧
      ∃ process, shell idle ⟨.empty, []⟩ = .ok process ∧ ∃ outs errs printed finish,
        Interleaved outs errs printed ∧ process.Prints time printed finish := by
  intro time system
  obtain ⟨hcollected, hrun, hshell⟩ := collected_ended_and_run system idle time
  have hsplit : Interleaved [[0xc3], [0xa9]] [[0x21]] splitLetter := .out _ (.err _ (.out _ .nil))
  have hprints := prints_printing splitLetter time
  have hout : textOf [[0xc3], [0xa9]].flatten = "é" := by decide +kernel
  have herr : textOf [[0x21]].flatten = "!" := by decide +kernel
  have hmessage : floodMessage idle ⟨time, 2⟩ = "Output of `true` exceeded 2 bytes" := by
    decide +kernel
  refine ⟨hsplit, ?_, ?_, ?_⟩
  · rw [hrun _ _ rfl _ _ _ _ hsplit hprints _ hsplit, hcollected _ _ _ hsplit, if_neg (by decide), hout, herr]
  · rw [hrun _ _ rfl _ _ _ _ hsplit hprints _ hsplit, hcollected _ _ _ hsplit, if_pos (by decide), hmessage]
    rfl
  · have hstarts : (shell idle ⟨.empty, []⟩).toBool = true := by decide +kernel
    cases hstart : shell idle ⟨.empty, []⟩ with
    | error fault =>
      rw [hstart] at hstarts
      cases hstarts
    | ok process => exact ⟨process, rfl, hshell _ process hstart⟩

/-- **A limit below nothing is not exceeded by no output**, neither by what is collected nor by a command that
is run. -/
theorem not_forall_collected_iff :
    (¬ ∀ (request : Request) (time : Seconds) (most exit : ℤ) (outs errs : List Bytes)
        (arrivals : List Arrival), Interleaved outs errs arrivals →
      (request.collected ⟨time, most⟩ arrivals (.ended exit) =
          .error (failure request (floodMessage request ⟨time, most⟩)) ↔
        most < (outs.flatten.length + errs.flatten.length : ℕ))) ∧
      (run ⟨.ofInt 300, -1⟩ idle ⟨.empty, []⟩).1.toOption = some ⟨0, "", ""⟩ := by
  constructor
  · intro hall
    have hnothing := (hall idle .zero (-1) 0 [] [] [] .nil).mpr (by decide)
    cases hnothing
  · decide +kernel

end Lintel.Child
