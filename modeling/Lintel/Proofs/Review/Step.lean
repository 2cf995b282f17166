import Lintel.Proofs.Text.Blank
import Lintel.Review.Conversation

/-!
# What a response means

* `CarriesText`, `Response.Textual`, `Talk.Model.Textual`: blocks of the kind text hold texts;
* `spoken`: the texts of a content in a row; `contentText_eq`: the content of such a response has this
  text;
* `verdict`: what a reply of the model means; **`readReply_eq`**: for such replies nothing goes wrong when
  they are read;
* `ofText_of_spoken`, `ofText_of_not_spoken`: a text is a review unless it is blank.
-/

namespace Lintel.Review

/-! ## Texts of a content -/

/-- A block of the kind text holds a text, if it holds anything. -/
def BlockCarriesText (block : Json) : Prop :=
  isTextBlock block = true → ∀ value, block.member? "text" = some value → ∃ text, value = .str text

/-- All blocks of a content of the kind text hold texts. -/
def CarriesText : Json → Prop
  | .arr blocks => ∀ block ∈ blocks, BlockCarriesText block
  | _ => True

/-- The text of a block, if it has one. -/
def spokenIn : Json → Option String
  | .str text => some text
  | block =>
    if isTextBlock block then
      match block.member? "text" with
      | some (.str text) => some text
      | _ => some ""
    else none

/-- The texts of a content in a row. -/
def spoken : Json → String
  | .str text => text
  | .arr blocks => String.join (blocks.filterMap spokenIn)
  | _ => ""

theorem blockText?_eq {block : Json} (h : BlockCarriesText block) :
    blockText? block = (spokenIn block).map .str := by
  have hmember : isTextBlock block = true →
      (block.member? "text").getD (.str "") =
        .str (match block.member? "text" with | some (.str text) => text | _ => "") := by
    intro hkind
    cases hvalue : block.member? "text" with
    | none => rfl
    | some value =>
      obtain ⟨text, rfl⟩ := h hkind value hvalue
      rfl
  cases block with
  | str text => rfl
  | null | bool | int | float | arr => rfl
  | obj members =>
    simp only [blockText?, spokenIn]
    by_cases hkind : isTextBlock (.obj members) = true
    · rw [if_pos hkind, if_pos hkind, hmember hkind]
      split <;> rfl
    · rw [if_neg hkind, if_neg hkind]
      rfl

theorem joinTexts_map_str (texts : List String) (index : ℕ) :
    joinTexts index (texts.map .str) = .ok (String.join texts) := by
  induction texts generalizing index with
  | nil => rfl
  | cons text texts ih =>
    rw [List.map_cons, joinTexts, ih, String.join_cons]
    rfl

/-- **The text of a content** is that of its blocks. -/
theorem contentText_eq {content : Json} (h : CarriesText content) :
    contentText content = .ok (spoken content) := by
  cases content with
  | str text => rfl
  | null | bool | int | float | obj => rfl
  | arr blocks =>
    have hblocks : blocks.filterMap blockText? = (blocks.filterMap spokenIn).map .str := by
      rw [List.map_filterMap]
      exact List.filterMap_congr fun block hblock => blockText?_eq (h block hblock)
    rw [contentText, hblocks, joinTexts_map_str]
    rfl

/-! ## Verdicts -/

/-- The blocks of a response of the kind text hold texts. -/
def Response.Textual : Response → Prop
  | .message content _ _ => CarriesText content
  | .other _ => True

/-- All responses of a model are of this kind. -/
def Talk.Model.Textual {σ : Type} (model : Talk.Model σ) : Prop :=
  ∀ memory messages response, (model memory messages).2.2 = .ok response → response.Textual

/-- What a reply means for the conversation. -/
def verdict : Reply → Step
  | .error error => .failed error
  | .ok (.other type) => .failed ("Unexpected model response type: " ++ type)
  | .ok (.message content calls malformed) =>
    if calls ≠ [] then .tools calls
    else if malformed ≠ [] then
      .failed ("Model produced malformed tool calls: " ++
        ", ".intercalate (malformed.map Json.shown))
    else .ofText (spoken content)

theorem ofResponse_eq {response : Response} (h : response.Textual) :
    Step.ofResponse response = .ok (verdict (.ok response)) := by
  cases response with
  | other type => rfl
  | message content calls malformed =>
    cases calls with
    | cons call calls => rfl
    | nil =>
      cases malformed with
      | cons name names => simp [Step.ofResponse, verdict]
      | nil =>
        have htext : contentText content = .ok (spoken content) := contentText_eq h
        simp [Step.ofResponse, verdict, htext, Except.map]

/-- The message of a reply. -/
def replyMessage : Reply → Message
  | .ok response => response.toMessage
  | .error _ => .model (.str "") []

/-- What reading a reply of the model gives. -/
def readReply : Reply → Except Fault Step
  | .ok response => Step.ofResponse response
  | .error error => .ok (.failed error)

theorem ofReply_eq_map (progress : Progress) (reply : Reply) :
    Change.ofReply progress reply =
      (readReply reply).map (.ofStep progress (replyMessage reply)) := by
  cases reply <;> rfl

/-- **Reading a reply never goes wrong**, if texts are where they should be. -/
theorem readReply_eq {reply : Reply} (h : ∀ response, reply = .ok response → response.Textual) :
    readReply reply = .ok (verdict reply) := by
  cases reply with
  | error error => rfl
  | ok response => exact ofResponse_eq (h response rfl)

theorem ofText_ne_tools (text : String) (calls : List ToolCall) :
    Step.ofText text ≠ .tools calls := by
  rw [Step.ofText]
  split <;> exact Step.noConfusion

theorem readReply_tools {reply : Reply} {calls : List ToolCall}
    (h : readReply reply = .ok (.tools calls)) :
    ∃ content malformed, reply = .ok (.message content calls malformed) ∧ calls ≠ [] := by
  cases reply with
  | error error => cases h
  | ok response =>
    cases response with
    | other type => cases h
    | message content asked malformed =>
      cases asked with
      | cons call asked =>
        cases h
        exact ⟨content, malformed, rfl, List.cons_ne_nil _ _⟩
      | nil =>
        exfalso
        cases malformed with
        | cons name names => cases h
        | nil =>
          change (contentText content).map Step.ofText = _ at h
          cases htext : contentText content with
          | error fault => rw [htext] at h; cases h
          | ok text =>
            rw [htext] at h
            exact ofText_ne_tools text calls (Except.ok.inj h)

theorem readReply_done {reply : Reply} {review : String}
    (h : readReply reply = .ok (.done review)) :
    ∃ content, reply = .ok (.message content [] []) ∧
      (contentText content).map Step.ofText = .ok (.done review) := by
  cases reply with
  | error error => cases h
  | ok response =>
    cases response with
    | other type => cases h
    | message content asked malformed =>
      cases asked with
      | cons call asked => cases h
      | nil =>
        cases malformed with
        | cons name names => cases h
        | nil => exact ⟨content, rfl, h⟩

/-! ## Reviews -/

/-- The text has more than blanks. -/
def Spoken (text : String) : Prop := ∃ c ∈ text.toList, Text.isBlank c = false

theorem trim_ne_empty_iff (text : String) : Text.trim text ≠ "" ↔ Spoken text := by
  rw [ne_eq, Text.trim_eq_empty_iff, Spoken]
  push Not
  exact exists_congr fun c => and_congr_right fun _ => by rw [ne_eq, Bool.not_eq_true]

theorem ofText_of_spoken {text : String} (h : Spoken text) :
    Step.ofText text = .done (Text.trim text) := by
  rw [Step.ofText]
  simp only [String.isEmpty_iff]
  rw [if_neg ((trim_ne_empty_iff text).mpr h)]

theorem ofText_of_not_spoken {text : String} (h : ¬ Spoken text) :
    Step.ofText text = .failed "Model returned an empty review" := by
  rw [Step.ofText]
  simp only [String.isEmpty_iff]
  rw [if_pos (not_not.mp fun hne => h ((trim_ne_empty_iff text).mp hne))]

end Lintel.Review
