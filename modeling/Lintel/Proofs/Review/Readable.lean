import Lintel.Proofs.Except
import Lintel.Proofs.Review.Bound

/-!
# Replies that can be read

A reply of the model has a meaning unless it is a message without calls in which a block of the kind text
holds something that is no text. Such a reply breaks the conversation off.

* `Response.Readable`: the responses that can be read; **`ends_ofResponse_iff`**, `ofResponse_eq_verdict`:
  these are the ones that have a meaning, and which one;
* `ReadableExchanges`, **`Course.answers_iff`**: a course ends with a review or an error exactly if all the
  responses on it can be read;
* **`answers_iff_readable`**: so does a conversation with any model, and nothing else can break it off.
-/

namespace Lintel.Review

/-- The response can be read: it is no message, it asks for tools, well or badly, or the blocks of its
content of the kind text hold texts. -/
def Response.Readable : Response → Prop
  | .message content calls malformed => calls ≠ [] ∨ malformed ≠ [] ∨ CarriesText content
  | .other _ => True

/-- The fault of a content in which a text is missing. -/
def SaysNotText (fault : Fault) : Prop := ∃ index type, fault = .notText index type

/-! ## Contents -/

theorem ends_joinTexts_iff {index : ℕ} {values : List Json} :
    Ends (joinTexts index values) ↔ ∀ value ∈ values, ∃ text, value = .str text := by
  induction values generalizing index with
  | nil => simp [joinTexts, ends_ok]
  | cons value values ih =>
    rw [List.forall_mem_cons]
    cases value with
    | str text => simp [joinTexts, ends_map, ih]
    | null | bool | int | float | arr | obj => simp [joinTexts, not_ends_error]

theorem joinTexts_saysNotText (index : ℕ) (values : List Json) :
    FailsOnlyWith SaysNotText (joinTexts index values) := by
  induction values generalizing index with
  | nil => exact failsOnlyWith_ok _
  | cons value values ih =>
    cases value with
    | str text => exact failsOnlyWith_map.mpr (ih (index + 1))
    | null | bool | int | float | arr | obj => exact failsOnlyWith_error.mpr ⟨index, _, rfl⟩

theorem blockCarriesText_iff (block : Json) :
    BlockCarriesText block ↔ ∀ value, blockText? block = some value → ∃ text, value = .str text := by
  refine ⟨fun h value hvalue => ?_, fun h hkind value hvalue => h value ?_⟩
  · rw [blockText?_eq h] at hvalue
    obtain ⟨text, -, rfl⟩ := Option.map_eq_some_iff.mp hvalue
    exact ⟨text, rfl⟩
  · cases block with
    | obj members => simp [blockText?, hkind, hvalue]
    | null | bool | int | float | str | arr => cases hvalue

theorem ends_contentText_iff (content : Json) : Ends (contentText content) ↔ CarriesText content := by
  cases content with
  | arr blocks =>
    rw [contentText, ends_joinTexts_iff, CarriesText]
    simp only [List.mem_filterMap, blockCarriesText_iff]
    constructor
    · intro h block hblock value hvalue
      exact h value ⟨block, hblock, hvalue⟩
    · rintro h value ⟨block, hblock, hvalue⟩
      exact h block hblock value hvalue
  | null | bool | int | float | str | obj => exact iff_of_true (ends_ok _) trivial

theorem contentText_saysNotText (content : Json) : FailsOnlyWith SaysNotText (contentText content) := by
  cases content with
  | arr blocks => exact joinTexts_saysNotText 0 _
  | null | bool | int | float | str | obj => exact failsOnlyWith_ok _

/-! ## Responses -/

/-- **A response has a meaning exactly if it can be read.** -/
theorem ends_ofResponse_iff (response : Response) :
    Ends (Step.ofResponse response) ↔ response.Readable := by
  cases response with
  | other type => exact iff_of_true (ends_ok _) trivial
  | message content calls malformed =>
    cases calls with
    | cons call calls => exact iff_of_true (ends_ok _) (.inl (List.cons_ne_nil _ _))
    | nil =>
      cases malformed with
      | cons name names => exact iff_of_true (ends_ok _) (.inr (.inl (List.cons_ne_nil _ _)))
      | nil =>
        change Ends ((contentText content).map Step.ofText) ↔ _
        rw [ends_map, ends_contentText_iff]
        simp [Response.Readable]

/-- What a response means that can be read. -/
theorem ofResponse_eq_verdict {response : Response} (h : response.Readable) :
    Step.ofResponse response = .ok (verdict (.ok response)) := by
  cases response with
  | other type => rfl
  | message content calls malformed =>
    cases calls with
    | cons call calls => rfl
    | nil =>
      cases malformed with
      | cons name names => simp [Step.ofResponse, verdict]
      | nil =>
        have htext : CarriesText content := by simpa [Response.Readable] using h
        exact ofResponse_eq htext

theorem ofResponse_saysNotText (response : Response) :
    FailsOnlyWith SaysNotText (Step.ofResponse response) := by
  cases response with
  | other type => exact failsOnlyWith_ok _
  | message content calls malformed =>
    rw [Step.ofResponse]
    split
    · exact failsOnlyWith_ok _
    split
    · exact failsOnlyWith_ok _
    · exact failsOnlyWith_map.mpr (contentText_saysNotText content)

theorem readReply_saysNotText (reply : Reply) : FailsOnlyWith SaysNotText (readReply reply) := by
  cases reply with
  | ok response => exact ofResponse_saysNotText response
  | error error => exact failsOnlyWith_ok _

/-! ## Courses -/

/-- All responses among some exchanges can be read. -/
def ReadableExchanges (exchanges : List Exchange) : Prop :=
  ∀ exchange ∈ exchanges, ∀ response, exchange.reply = .ok response → response.Readable

theorem readableExchanges_append {left right : List Exchange} :
    ReadableExchanges (left ++ right) ↔ ReadableExchanges left ∧ ReadableExchanges right :=
  List.forall_mem_append

theorem readableExchanges_of_failed {exchanges : List Exchange}
    (h : ∀ exchange ∈ exchanges, exchange.Failed) : ReadableExchanges exchanges := by
  intro exchange hmem response hreply
  obtain ⟨reason, hreason⟩ := h exchange hmem
  rw [hreason] at hreply
  cases hreply

theorem Exchange.ends_readReply_iff (exchange : Exchange) :
    Ends (readReply exchange.outcome) ↔ ReadableExchanges [exchange] := by
  rw [ReadableExchanges, List.forall_mem_singleton]
  cases hreply : exchange.reply with
  | ok response =>
    rw [outcome_of_ok hreply, readReply, ends_ofResponse_iff]
    exact ⟨fun h other heq => Except.ok.inj heq ▸ h, fun h => h response rfl⟩
  | error reason =>
    rw [outcome_of_error hreply]
    exact iff_of_true (ends_ok _) fun response heq => by cases heq

theorem Retried.ends_readReply_iff {attempts : ℕ} {messages : List Message}
    {exchanges : List Exchange} {outcome : Reply}
    (h : Retried attempts messages exchanges outcome) :
    Ends (readReply outcome) ↔ ReadableExchanges exchanges := by
  obtain ⟨rfl, -, rfl⟩ | ⟨failures, last, rfl, hfailures, rfl, -⟩ := h.ends
  · exact iff_of_true (ends_ok _) (readableExchanges_of_failed (by simp))
  · rw [readableExchanges_append, last.ends_readReply_iff]
    exact (and_iff_right (readableExchanges_of_failed hfailures)).symm

/-- What is known at last is a review or an error. -/
def Walk.Answers (walk : Walk) : Prop :=
  ∃ last, walk.last = .ok last ∧ (last.status = .done ∨ last.status = .failed)

section Course

variable {tools : Toolset} {limits : Limits} {progress : Progress} {inquiries : List Inquiry}
  {walk : Walk}

/-- **A course ends with a review or an error** exactly if all the responses on it can be read. -/
theorem Course.answers_iff (h : Course tools limits progress inquiries walk) :
    walk.Answers ↔ ReadableExchanges (inquiries.flatMap (·.exchanges)) := by
  induction h with
  | overtime => exact iff_of_true ⟨_, rfl, .inr rfl⟩ (readableExchanges_of_failed (by simp))
  | broken early asked means =>
    rw [List.flatMap_singleton, ← asked.ends_readReply_iff, means]
    exact iff_of_false (fun ⟨last, hlast, _⟩ => by cases hlast) (not_ends_error _)
  | failed early asked means =>
    rw [List.flatMap_singleton, ← asked.ends_readReply_iff, means]
    exact iff_of_true ⟨_, rfl, .inr rfl⟩ (ends_ok _)
  | done early asked means =>
    rw [List.flatMap_singleton, ← asked.ends_readReply_iff, means]
    exact iff_of_true ⟨_, rfl, .inl rfl⟩ (ends_ok _)
  | tools early asked means rest ih =>
    -- the reply of this turn asked for tools, so the rest of the course decides
    rw [List.flatMap_cons, readableExchanges_append, ← ih, ← asked.ends_readReply_iff, means]
    exact (and_iff_right (ends_ok _)).symm

theorem Course.saysNotText (h : Course tools limits progress inquiries walk) :
    FailsOnlyWith SaysNotText walk.last := by
  induction h with
  | overtime | failed | done => exact failsOnlyWith_ok _
  | @broken _ inquiry _ _ _ means =>
    exact failsOnlyWith_error.mpr (readReply_saysNotText inquiry.outcome _ means)
  | tools early asked means rest ih => exact ih

end Course

/-! ## Conversations -/

/-- The conversation answers with a review or an error. -/
def Answers (outcome : Except Fault Ending) : Prop :=
  ∃ ending, outcome = .ok ending ∧ (ending.status = .done ∨ ending.status = .failed)

theorem Walk.answers_iff (walk : Walk) :
    Review.Answers (walk.last.map Progress.ending) ↔ walk.Answers := by
  rw [Review.Answers, Walk.Answers]
  cases walk.last <;> simp [Except.map, Progress.ending]

theorem play_walk_of_turns_lt {σ : Type} (model : Talk.Model σ) (memory : σ) (time : Seconds)
    (system human : String) (tools : Toolset) {limits : Limits}
    (ends : (progress : Progress) → EndOrder progress.pending.length) (h : limits.turns < -1) :
    let loop := Loop.ofLimits tools limits ends
    ((loop.walk system human).play model memory time).value = .broken (.stepLimit loop.stepLimit) := by
  intro loop
  have hsteps : loop.stepLimit.toNat = 0 := by
    change (2 * limits.turns + 4).toNat = 0
    omega
  rw [Loop.walk, hsteps]
  rfl

/-- **A conversation answers with a review or an error exactly if all responses that it gets can be read**, and a
response has a meaning exactly if it can be read. Without a single step, and with a response in which a text
is missing, there is no answer. -/
theorem answers_iff_readable {σ : Type} (model : Talk.Model σ) (memory : σ) (time : Seconds)
    (system human : String) (tools : Toolset) (limits : Limits)
    (ends : (progress : Progress) → EndOrder progress.pending.length) :
    let played := ((Loop.ofLimits tools limits ends).run system human).play model memory time
    (Answers played.value ↔ -1 ≤ limits.turns ∧ ReadableExchanges played.exchanges) ∧
      FailsOnlyWith (fun fault => limits.turns < -1 ∨ SaysNotText fault) played.value ∧
      ∀ response : Response, (Ends (Step.ofResponse response) ↔ response.Readable) ∧
        (Step.ofResponse response = .ok (verdict (.ok response)) ↔ response.Readable) := by
  intro played
  rw [← and_assoc]
  refine ⟨?_, fun response => ⟨ends_ofResponse_iff response, fun h => ?_, ofResponse_eq_verdict⟩⟩
  · have hvalue := value_run model memory time system human (.ofLimits tools limits ends)
    have hexchanges := exchanges_run model memory time system human (.ofLimits tools limits ends)
    simp only [played, hvalue, hexchanges, Walk.answers_iff, failsOnlyWith_map]
    by_cases hturns : -1 ≤ limits.turns
    · obtain ⟨inquiries, hcalls, hcourse⟩ :=
        course_walk tools limits ends model system human memory time hturns
      rw [hcalls, hcourse.answers_iff]
      exact ⟨(and_iff_right hturns).symm,
        fun fault hfault => .inr (hcourse.saysNotText fault hfault)⟩
    · have hbroken := play_walk_of_turns_lt model memory time system human tools ends
        (Int.not_le.mp hturns)
      rw [hbroken]
      refine ⟨iff_of_false (fun ⟨last, hlast, _⟩ => by cases hlast) fun h => hturns h.1, ?_⟩
      exact fun fault _ => .inl (Int.not_le.mp hturns)
  · exact (ends_ofResponse_iff response).mp ⟨_, h⟩

/-- A block of the kind text that holds nothing instead of a text. -/
def hollow : Response :=
  .message (.arr [.obj [("type", .str "text"), ("text", .null)]]) [] []

/-- Not every message has a meaning. -/
theorem not_forall_ends_ofResponse :
    ¬ ∀ content calls malformed, Ends (Step.ofResponse (.message content calls malformed)) := by
  intro hall
  obtain ⟨step, hstep⟩ : Ends (Step.ofResponse hollow) := hall _ _ _
  cases hstep

end Lintel.Review
