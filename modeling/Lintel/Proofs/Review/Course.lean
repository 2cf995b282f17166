import Lintel.Proofs.Review.Walk
import Mathlib.Tactic.Cases

/-!
# The course of a conversation

* `Inquiry`: a call of the model as a conversation makes it, with all its attempts;
* `Course`: the courses that a conversation can take from some point on, turn by turn: all turns are used
  up, the reply cannot be read, the model fails, it answers with the review, or it asks for tools and the
  conversation goes on;
* **`course_walkFrom`**: with any model, a conversation takes one of these courses, and two steps for each
  turn and one more are enough for it.
-/

namespace Lintel.Review

variable {σ α : Type}

/-- A call of the model as a conversation makes it: its attempts and what they came to. -/
structure Inquiry where
  exchanges : List Exchange
  outcome : Reply

/-- The model is asked with the given messages, as often as the limits allow. -/
def Inquiry.About (limits : Limits) (messages : List Message) (inquiry : Inquiry) : Prop :=
  Retried limits.retry.attempts.toNat messages inquiry.exchanges inquiry.outcome

/-- What a conversation with tools and limits can do from some point on: its calls of the model and its
walk. -/
inductive Course (tools : Toolset) (limits : Limits) : Progress → List Inquiry → Walk → Prop
  | overtime {progress : Progress} (late : limits.turns ≤ progress.turns) :
      Course tools limits progress [] (.stop .askModel (progress.overtime limits.turns))
  | broken {progress : Progress} {inquiry : Inquiry} {fault : Fault}
      (early : progress.turns < limits.turns) (asked : inquiry.About limits progress.messages)
      (means : readReply inquiry.outcome = .error fault) :
      Course tools limits progress [inquiry] (.broken fault)
  | failed {progress : Progress} {inquiry : Inquiry} {error : String}
      (early : progress.turns < limits.turns) (asked : inquiry.About limits progress.messages)
      (means : readReply inquiry.outcome = .ok (.failed error)) :
      Course tools limits progress [inquiry] (.stop .askModel (progress.failing error))
  | done {progress : Progress} {inquiry : Inquiry} {review : String}
      (early : progress.turns < limits.turns) (asked : inquiry.About limits progress.messages)
      (means : readReply inquiry.outcome = .ok (.done review)) :
      Course tools limits progress [inquiry]
        (.stop .askModel (progress.finishing (replyMessage inquiry.outcome) review))
  | tools {progress : Progress} {inquiry : Inquiry} {calls : List ToolCall}
      {inquiries : List Inquiry} {walk : Walk}
      (early : progress.turns < limits.turns) (asked : inquiry.About limits progress.messages)
      (means : readReply inquiry.outcome = .ok (.tools calls))
      (rest : Course tools limits
        ((progress.asking (replyMessage inquiry.outcome) calls).answered tools) inquiries walk) :
      Course tools limits progress (inquiry :: inquiries)
        (.cons .askModel (progress.asking (replyMessage inquiry.outcome) calls)
          (.cons .runTools ((progress.asking (replyMessage inquiry.outcome) calls).answered tools)
            walk))

/-- A walk that was played is one of the courses from some point on. -/
def TakesCourse (tools : Toolset) (limits : Limits) (progress : Progress)
    (played : Talk.Played σ Walk) : Prop :=
  ∃ inquiries, played.exchanges = inquiries.flatMap (·.exchanges) ∧
    Course tools limits progress inquiries played.value

section Exists

variable (tools : Toolset) (limits : Limits)
  (ends : (progress : Progress) → EndOrder progress.pending.length) (model : Talk.Model σ)

theorem takesCourse_overtime {progress : Progress} (late : limits.turns ≤ progress.turns)
    (left : ℕ) (memory : σ) (time : Seconds) :
    TakesCourse tools limits progress
      (((Loop.ofLimits tools limits ends).walkFrom (left + 1) .askModel progress).play model memory
        time) := by
  rw [play_walkFrom_stop _ model left (play_act_overtime _ model late memory time) rfl,
    Progress.merge_outOfTurns]
  exact ⟨[], rfl, .overtime late⟩

theorem play_turn {progress : Progress} (early : progress.turns < limits.turns) {memory : σ}
    {time : Seconds} {asked : Talk.Played σ Reply}
    (hasked : (callAgain limits.retry progress.messages).play model memory time = asked) :
    ((Loop.ofLimits tools limits ends).act progress .askModel).play model memory time =
      ⟨(readReply asked.value).map (.ofStep progress (replyMessage asked.value)), asked.memory,
        asked.time, asked.exchanges⟩ := by
  rw [play_act_ask _ model early, ← ofReply_eq_map, ← hasked]
  rfl

/-- **Every conversation takes a course.** -/
theorem course_walkFrom (n : ℕ) :
    ∀ (left : ℕ) (progress : Progress) (memory : σ) (time : Seconds),
      limits.turns ≤ progress.turns + n → 2 * n + 1 ≤ left →
      TakesCourse tools limits progress
        (((Loop.ofLimits tools limits ends).walkFrom left .askModel progress).play model memory
          time) := by
  induction n with
  | zero =>
    intro left progress memory time hturns hleft
    obtain ⟨left, rfl⟩ : ∃ l, left = l + 1 := ⟨left - 1, by omega⟩
    exact takesCourse_overtime tools limits ends model (by simpa using hturns) left memory time
  | succ n ih =>
    intro left progress memory time hturns hleft
    obtain ⟨left, rfl⟩ : ∃ l, left = l + 2 := ⟨left - 2, by omega⟩
    by_cases late : limits.turns ≤ progress.turns
    · exact takesCourse_overtime tools limits ends model late (left + 1) memory time
    have early : progress.turns < limits.turns := Int.not_le.mp late
    obtain ⟨asked, hplay⟩ :
        ∃ asked, (callAgain limits.retry progress.messages).play model memory time = asked :=
      ⟨_, rfl⟩
    have hact := play_turn tools limits ends model early hplay
    have hasked : Inquiry.About limits progress.messages ⟨asked.exchanges, asked.value⟩ :=
      hplay ▸ retried_callAgain limits.retry model progress.messages memory time
    cases means : readReply asked.value with
    | error fault =>
      rw [means] at hact
      rw [play_walkFrom_broken _ model (left + 1) hact]
      exact ⟨[⟨asked.exchanges, asked.value⟩], by simp, .broken early hasked means⟩
    | ok step =>
      rw [means] at hact
      cases step with
      | failed error =>
        rw [play_walkFrom_stop _ model (left + 1) hact rfl]
        exact ⟨[⟨asked.exchanges, asked.value⟩], by simp, .failed early hasked means⟩
      | done review =>
        rw [play_walkFrom_stop _ model (left + 1) hact rfl]
        exact ⟨[⟨asked.exchanges, asked.value⟩], by simp, .done early hasked means⟩
      | tools calls =>
        -- the tools run, and the conversation goes on with one turn less
        have hasking : progress.merge (.ofStep progress (replyMessage asked.value) (.tools calls)) =
            progress.asking (replyMessage asked.value) calls := Progress.merge_ofStep _ _ _
        have hanswered : ∀ p : Progress, p.merge ((Loop.ofLimits tools limits ends).toolStage p) =
            p.answered tools := Progress.merge_toolStage _
        obtain ⟨inquiries, hexchanges, hcourse⟩ :=
          ih left ((progress.asking (replyMessage asked.value) calls).answered tools) asked.memory
            asked.time (by simp only [Progress.answered, Progress.asking]; push_cast; omega)
            (by omega)
        rw [play_walkFrom_go _ model (left + 1) hact rfl, hasking,
          play_walkFrom_go _ model left (play_act_tools _ model _ _ _) rfl, hanswered]
        refine ⟨⟨asked.exchanges, asked.value⟩ :: inquiries, ?_,
          .tools early hasked means hcourse⟩
        simp only [hexchanges, List.nil_append, List.flatMap_cons]

theorem course_walk (system human : String) (memory : σ) (time : Seconds)
    (hturns : -1 ≤ limits.turns) :
    TakesCourse tools limits (.start system human)
      (((Loop.ofLimits tools limits ends).walk system human).play model memory time) := by
  refine course_walkFrom tools limits ends model limits.turns.toNat _ _ memory time ?_ ?_
  · simp only [Progress.start]
    omega
  · simp only [Loop.stepLimit, Loop.ofLimits]
    omega

end Exists

/-! ## Replies come from the model -/

theorem exists_of_mem_exchanges (model : Talk.Model σ) (talk : Talk α) (memory : σ)
    (time : Seconds) :
    ∀ exchange ∈ (talk.play model memory time).exchanges,
      ∃ memory', exchange.reply = (model memory' exchange.sent).2.2 := by
  induction talk generalizing memory time with
  | done value => intro exchange h; cases h
  | ask messages next ih =>
    intro exchange h
    rw [Talk.play] at h
    rcases List.mem_cons.mp h with rfl | h
    · exact ⟨memory, rfl⟩
    · exact ih _ _ _ _ h
  | wait delay next ih => exact ih memory (time.after delay)

theorem Exchange.reply_of_outcome {exchange : Exchange} {response : Response}
    (h : exchange.outcome = .ok response) : exchange.reply = .ok response := by
  cases hreply : exchange.reply with
  | ok answer => rw [outcome_of_ok hreply] at h; exact h
  | error reason => rw [outcome_of_error hreply] at h; cases h

theorem Retried.textual {attempts : ℕ} {messages : List Message} {exchanges : List Exchange}
    {outcome : Reply} (h : Retried attempts messages exchanges outcome)
    (htextual : ∀ exchange ∈ exchanges, ∀ response, exchange.reply = .ok response →
      response.Textual) :
    ∀ response, outcome = .ok response → response.Textual := by
  intro response hok
  obtain ⟨-, -, hnone⟩ | ⟨failures, last, rfl, -, houtcome, -⟩ := h.ends
  · rw [hnone] at hok
    cases hok
    exact trivial
  · exact htextual last (List.mem_append_right _ (List.mem_singleton.mpr rfl)) response
      (Exchange.reply_of_outcome (houtcome.symm.trans hok))

end Lintel.Review
