import Lintel.Proofs.Report.Truncate
import Lintel.Review.Toolset

/-!
# Results of tools

What a tool yields is cut to the limit before the model gets it. The reason why a call has failed is told in
full, however long it is.

* `Toolset.Outcome`: what a call comes to, a text or the reason why there is none; `execute_of_outcome`: the
  result that the model gets for it;
* **`execute_fits_iff`**: a result fits into the limit unless the call has failed and the reason is too long.
-/

namespace Lintel.Review

/-- What a call of a tool comes to: the text that the tool yields, or the reason why it yields none: no tool
has this name, its arguments are refused, or looking at the files goes wrong. -/
inductive Toolset.Outcome (toolset : Toolset) (call : ToolCall) : Except String String → Prop
  | unknown (hname : ∀ tool : Tool, tool.name ≠ call.name) :
      Outcome toolset call (.error ("Unknown tool " ++ call.name))
  | refused {tool : Tool} {problems : List Schema.Problem} (hname : tool.name = call.name)
      (hrequest : tool.request call.args = .error problems) :
      Outcome toolset call (.error (Schema.report tool.formName problems))
  | fails {tool : Tool} {request : Request} {fault : Fault} (hname : tool.name = call.name)
      (hrequest : tool.request call.args = .ok request)
      (hanswer : toolset.answer request = .error fault) : Outcome toolset call (.error fault.message)
  | yields {tool : Tool} {request : Request} {text : String} (hname : tool.name = call.name)
      (hrequest : tool.request call.args = .ok request) (hanswer : toolset.answer request = .ok text) :
      Outcome toolset call (.ok text)

/-- The result of a call that comes to an outcome: only what a tool yields is cut. -/
def ToolCall.resultOf (call : ToolCall) (limit : ℤ) : Except String String → ToolResult
  | .ok text => ⟨call.name, call.id.getD "", Report.bounded limit text, false⟩
  | .error reason => ⟨call.name, call.id.getD "", "Error: " ++ reason, true⟩

/-! ## Outcomes -/

theorem Tool.find?_name (tool : Tool) : Tool.all.find? (·.name == tool.name) = some tool := by
  cases tool <;> decide

namespace Toolset

variable {toolset : Toolset} {call : ToolCall} {outcome : Except String String}

theorem exists_outcome (toolset : Toolset) (call : ToolCall) : ∃ outcome, toolset.Outcome call outcome := by
  by_cases hunknown : ∀ tool : Tool, tool.name ≠ call.name
  · exact ⟨_, .unknown hunknown⟩
  push Not at hunknown
  obtain ⟨tool, hname⟩ := hunknown
  cases hrequest : tool.request call.args with
  | error problems => exact ⟨_, .refused hname hrequest⟩
  | ok request =>
    cases hanswer : toolset.answer request with
    | error fault => exact ⟨_, .fails hname hrequest hanswer⟩
    | ok text => exact ⟨_, .yields hname hrequest hanswer⟩

theorem execute_of_name {tool : Tool} (hname : tool.name = call.name) :
    toolset.execute call =
      match toolset.respond tool call.args with
      | .ok content => ⟨call.name, call.id.getD "", content, false⟩
      | .error message => ⟨call.name, call.id.getD "", message, true⟩ := by
  have hfound : Tool.all.find? (·.name == call.name) = some tool := hname ▸ tool.find?_name
  rewrite [execute, hfound]
  rfl

/-- **The model gets the outcome of its call.** -/
theorem execute_of_outcome (h : toolset.Outcome call outcome) :
    toolset.execute call = call.resultOf toolset.limit outcome := by
  cases h with
  | unknown hname =>
    have hnone : Tool.all.find? (·.name == call.name) = none := by
      simpa [List.find?_eq_none] using fun tool _ => hname tool
    rw [execute, hnone]
    rfl
  | refused hname hrequest =>
    rw [execute_of_name hname, respond, hrequest]
    rfl
  | fails hname hrequest hanswer =>
    rw [execute_of_name hname, respond, hrequest]
    simp only [hanswer]
    rfl
  | yields hname hrequest hanswer =>
    rw [execute_of_name hname, respond, hrequest]
    simp only [hanswer]
    rfl

/-- **The result of a call fits into the limit exactly if the call does not fail or its reason fits**: what a
tool yields is cut to the limit, but a reason is told in full. -/
theorem execute_fits_iff (toolset : Toolset) (call : ToolCall) (hlimit : 0 ≤ toolset.limit) :
    let result := toolset.execute call
    (result.content.length ≤ toolset.limit ↔ ∀ reason, toolset.Outcome call (.error reason) →
      ("Error: " ++ reason).length ≤ toolset.limit) ∧
    ∃ outcome, toolset.Outcome call outcome ∧ result = call.resultOf toolset.limit outcome := by
  intro result
  obtain ⟨outcome, houtcome⟩ := toolset.exists_outcome call
  have hresult : result = call.resultOf toolset.limit outcome := execute_of_outcome houtcome
  refine ⟨⟨fun hfits reason hreason => ?_, fun hreasons => ?_⟩, outcome, houtcome, hresult⟩
  · have hfailed : result = call.resultOf toolset.limit (.error reason) := execute_of_outcome hreason
    rw [hfailed] at hfits
    exact hfits
  · rw [hresult]
    cases outcome with
    | ok text => exact Report.length_bounded_le hlimit text
    | error reason => exact hreasons reason houtcome

/-- Tools for an empty project, whose results may have 40 characters. -/
def terse : Toolset := { view := ⟨.empty, []⟩, root := .ofString "/", limit := 40 }

/-- A call of a tool that there is not. -/
def misguided : ToolCall := ⟨"summarise_the_whole_repository", .obj [], some "call_1"⟩

theorem execute_fits_iff_misguided :
    0 ≤ terse.limit ∧ terse.Outcome misguided (.error ("Unknown tool " ++ misguided.name)) ∧
      ((terse.execute misguided).content.length ≤ terse.limit ↔
        ∀ reason, terse.Outcome misguided (.error reason) →
          ("Error: " ++ reason).length ≤ terse.limit) :=
  ⟨by decide, .unknown fun tool => by cases tool <;> decide,
    (execute_fits_iff terse misguided (by decide)).1⟩

/-- The name of a tool that there is not is told in full. -/
theorem not_forall_execute_fits :
    ¬ ∀ (toolset : Toolset) (call : ToolCall), 1 ≤ toolset.limit →
      (toolset.execute call).content.length ≤ toolset.limit := by
  intro hall
  exact absurd (hall terse misguided (by decide)) (by decide)

end Toolset

end Lintel.Review
