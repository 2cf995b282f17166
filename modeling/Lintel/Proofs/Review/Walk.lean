import Lintel.Proofs.Gather
import Lintel.Proofs.Review.Step
import Lintel.Proofs.Review.Talk

/-!
# Steps of a walk

What each stage makes of what is known, and how a walk is played stage by stage.

* `Progress.overtime`, `failing`, `finishing`, `asking`, `answered`: what is known after a stage;
  `merge_outOfTurns`, `merge_ofStep`, `merge_toolStage`: these are all the changes there are;
* `play_walkFrom_broken`, `play_walkFrom_stop`, `play_walkFrom_go`: a stage that breaks the walk off, one
  that is the last one, and one that is not;
* `play_act_overtime`, `play_act_ask`, `play_act_tools`: the stages that are played.
-/

namespace Lintel.Review

/-! ## What is known after a stage -/

namespace Progress

/-- All turns are used up. -/
def overtime (turns : ℤ) (progress : Progress) : Progress :=
  { progress with
    status := .failed
    error := some s!"Review did not finish within {Number.intText turns} turns" }

/-- The conversation has failed. -/
def failing (progress : Progress) (error : String) : Progress :=
  { progress with status := .failed, error := some error, turns := progress.turns + 1 }

/-- The model has answered with the review. -/
def finishing (progress : Progress) (message : Message) (review : String) : Progress :=
  { progress with
    status := .done
    messages := progress.messages ++ [message]
    review := some review
    turns := progress.turns + 1 }

/-- The model has asked for tools. -/
def asking (progress : Progress) (message : Message) (calls : List ToolCall) : Progress :=
  { progress with
    status := .toolDispatch
    messages := progress.messages ++ [message]
    pending := calls
    turns := progress.turns + 1 }

/-- The tools have answered, in the order of the calls. -/
def answered (tools : Toolset) (progress : Progress) : Progress :=
  { progress with
    status := .awaitingModel
    messages := progress.messages ++ progress.pending.map fun call => .tool (tools.execute call)
    pending := [] }

/-- What is known after a step of the model. -/
def after (progress : Progress) (message : Message) : Step → Progress
  | .tools calls => progress.asking message calls
  | .done review => progress.finishing message review
  | .failed error => progress.failing error

theorem merge_outOfTurns (progress : Progress) (turns : ℤ) :
    progress.merge (.outOfTurns turns) = progress.overtime turns := rfl

theorem merge_ofStep (progress : Progress) (message : Message) (step : Step) :
    progress.merge (.ofStep progress message step) = progress.after message step := by
  cases step <;> rfl

/-- **The order in which the tools of a turn end does not show.** -/
theorem merge_toolStage (loop : Loop) (progress : Progress) :
    progress.merge (loop.toolStage progress) = progress.answered loop.tools := by
  rw [Loop.toolStage, gather_eq_map, List.map_map]
  rfl

end Progress

/-! ## Walks that are played -/

variable {σ : Type} (loop : Loop) (model : Talk.Model σ)

/-- A walk with a stage in front. -/
def Walk.cons (stage : Stage) (progress : Progress) (walk : Walk) : Walk :=
  { walk with visited := (stage, progress) :: walk.visited }

/-- A walk of one stage. -/
def Walk.stop (stage : Stage) (progress : Progress) : Walk := ⟨[(stage, progress)], .ok progress⟩

/-- A walk that a fault breaks off. -/
def Walk.broken (fault : Fault) : Walk := ⟨[], .error fault⟩

/-- A stage that breaks a walk off. -/
theorem play_walkFrom_broken {stage : Stage} {progress : Progress} {fault : Fault}
    {memory memory' : σ} {time time' : Seconds} {exchanges : List Exchange} (left : ℕ)
    (hact : (loop.act progress stage).play model memory time =
      ⟨.error fault, memory', time', exchanges⟩) :
    (loop.walkFrom (left + 1) stage progress).play model memory time =
      ⟨.broken fault, memory', time', exchanges⟩ := by
  rw [Loop.walkFrom, Talk.play_bind, hact]
  simp only [Talk.play_pure, List.append_nil]
  rfl

/-- The last stage of a walk. -/
theorem play_walkFrom_stop {stage : Stage} {progress : Progress} {change : Change}
    {memory memory' : σ} {time time' : Seconds} {exchanges : List Exchange} (left : ℕ)
    (hact : (loop.act progress stage).play model memory time =
      ⟨.ok change, memory', time', exchanges⟩)
    (hnext : stage.next (progress.merge change) = none) :
    (loop.walkFrom (left + 1) stage progress).play model memory time =
      ⟨.stop stage (progress.merge change), memory', time', exchanges⟩ := by
  rw [Loop.walkFrom, Talk.play_bind, hact]
  simp only [hnext]
  rw [Talk.play_pure]
  simp only [List.append_nil]
  rfl

/-- A stage of a walk that goes on. -/
theorem play_walkFrom_go {stage next : Stage} {progress : Progress} {change : Change}
    {memory memory' : σ} {time time' : Seconds} {exchanges : List Exchange} (left : ℕ)
    (hact : (loop.act progress stage).play model memory time =
      ⟨.ok change, memory', time', exchanges⟩)
    (hnext : stage.next (progress.merge change) = some next) :
    (loop.walkFrom (left + 1) stage progress).play model memory time =
      let rest := (loop.walkFrom left next (progress.merge change)).play model memory' time'
      ⟨.cons stage (progress.merge change) rest.value, rest.memory, rest.time,
        exchanges ++ rest.exchanges⟩ := by
  rw [Loop.walkFrom, Talk.play_bind, hact]
  simp only [hnext]
  rw [Talk.play_bind_pure]
  rfl

/-! ## Stages that are played -/

theorem play_act_overtime {progress : Progress} (h : loop.turns ≤ progress.turns) (memory : σ)
    (time : Seconds) :
    (loop.act progress .askModel).play model memory time =
      ⟨.ok (.outOfTurns loop.turns), memory, time, []⟩ := by
  rw [Loop.act, Loop.askStage, if_pos h]
  rfl

theorem play_act_ask {progress : Progress} (h : progress.turns < loop.turns) (memory : σ)
    (time : Seconds) :
    (loop.act progress .askModel).play model memory time =
      let asked := (loop.ask progress.messages).play model memory time
      ⟨Change.ofReply progress asked.value, asked.memory, asked.time, asked.exchanges⟩ := by
  rw [Loop.act, Loop.askStage, if_neg (Int.not_le.mpr h), Talk.play_bind_pure]

theorem play_act_tools (progress : Progress) (memory : σ) (time : Seconds) :
    (loop.act progress .runTools).play model memory time =
      ⟨.ok (loop.toolStage progress), memory, time, []⟩ := rfl

end Lintel.Review
