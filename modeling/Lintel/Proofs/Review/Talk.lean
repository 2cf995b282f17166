import Lintel.Review.Conversation
import Mathlib.Data.List.Basic

/-!
# Talks that are played

* `play_bind`: a talk that follows another is played after it;
* `Retried`: what a call that is tried again looks like from the side of the model: some failures, then
  the call whose reply counts;
* **`retried_callAgain`**: each call of a conversation is of this kind.
-/

namespace Lintel.Review

variable {σ α β : Type}

namespace Talk

/-- **One talk after another.** -/
theorem play_bind (model : Model σ) (talk : Talk α) (rest : α → Talk β) (memory : σ)
    (time : Seconds) :
    (talk >>= rest).play model memory time =
      let first := talk.play model memory time
      let second := (rest first.value).play model first.memory first.time
      { second with exchanges := first.exchanges ++ second.exchanges } := by
  induction talk generalizing memory time with
  | done value => rfl
  | ask messages next ih =>
    have h := ih (model memory messages).2.2 (model memory messages).1
      (time.after (model memory messages).2.1)
    change play model memory time (ask messages fun reply => next reply >>= rest) = _
    simp only [play, h, List.cons_append]
  | wait delay next ih =>
    change play model memory time (wait delay (next >>= rest)) = _
    simp only [play, ih]

theorem play_pure (model : Model σ) (value : α) (memory : σ) (time : Seconds) :
    (pure value : Talk α).play model memory time = ⟨value, memory, time, []⟩ := rfl

theorem play_bind_pure (model : Model σ) (talk : Talk α) (f : α → β) (memory : σ)
    (time : Seconds) :
    (talk >>= fun value => pure (f value)).play model memory time =
      let played := talk.play model memory time
      ⟨f played.value, played.memory, played.time, played.exchanges⟩ := by
  rw [play_bind]
  simp only [play_pure, List.append_nil]

end Talk

/-! ## Calls that are tried again -/

/-- The model was asked in vain. -/
def Exchange.Failed (exchange : Exchange) : Prop := ∃ reason, exchange.reply = .error reason

/-- The reply that a caller of the model sees. -/
def Exchange.outcome (exchange : Exchange) : Reply :=
  exchange.reply.mapError ("Model call failed: " ++ ·)

/-- The exchanges of one call with the given messages, tried again at most so often, that comes to an
outcome: each attempt but the last has failed, and if that one has failed too, then no attempt was left.
Without any attempt there is no response. -/
structure Retried (attempts : ℕ) (messages : List Message) (exchanges : List Exchange)
    (outcome : Reply) : Prop where
  sent : ∀ exchange ∈ exchanges, exchange.sent = messages
  length_le : exchanges.length ≤ attempts
  ends : (exchanges = [] ∧ attempts = 0 ∧ outcome = .ok (.other "NoneType")) ∨
    ∃ failures last, exchanges = failures ++ [last] ∧ (∀ exchange ∈ failures, exchange.Failed) ∧
      outcome = last.outcome ∧ (last.Failed → exchanges.length = attempts)

theorem play_callModel (model : Talk.Model σ) (messages : List Message) (memory : σ)
    (time : Seconds) :
    (callModel messages).play model memory time =
      let answer := model memory messages
      let exchange : Exchange := ⟨messages, answer.2.2⟩
      ⟨exchange.outcome, answer.1, time.after answer.2.1, [exchange]⟩ := rfl

theorem Exchange.outcome_of_ok {exchange : Exchange} {response : Response}
    (h : exchange.reply = .ok response) : exchange.outcome = .ok response := by
  rw [outcome, h]
  rfl

theorem Exchange.outcome_of_error {exchange : Exchange} {reason : String}
    (h : exchange.reply = .error reason) :
    exchange.outcome = .error ("Model call failed: " ++ reason) := by
  rw [outcome, h]
  rfl

theorem Retried.single {attempts : ℕ} (exchange : Exchange) (h : 1 ≤ attempts)
    (hlast : exchange.Failed → attempts = 1) :
    Retried attempts exchange.sent [exchange] exchange.outcome where
  sent := by
    intro e he
    rw [List.mem_singleton.mp he]
  length_le := h
  ends := .inr ⟨[], exchange, rfl, by simp, rfl, fun hfail => (hlast hfail).symm⟩

theorem Retried.again {attempts : ℕ} {messages : List Message} {exchange : Exchange}
    {exchanges : List Exchange} {outcome : Reply} (hsent : exchange.sent = messages)
    (hfail : exchange.Failed) (hleft : attempts ≠ 0)
    (h : Retried attempts messages exchanges outcome) :
    Retried (attempts + 1) messages (exchange :: exchanges) outcome where
  sent := by
    intro e he
    rcases List.mem_cons.mp he with rfl | he
    · exact hsent
    · exact h.sent e he
  length_le := by
    rw [List.length_cons]
    exact Nat.succ_le_succ h.length_le
  ends := by
    obtain ⟨-, hzero, -⟩ | ⟨failures, last, rfl, hfailures, houtcome, hall⟩ := h.ends
    · exact absurd hzero hleft
    refine .inr ⟨exchange :: failures, last, rfl, ?_, houtcome, fun hlast => ?_⟩
    · intro e he
      rcases List.mem_cons.mp he with rfl | he
      · exact hfail
      · exact hfailures e he
    · rw [List.length_cons, hall hlast]

/-- The attempts of a call, as many as are left. -/
abbrev attemptsFrom (retry : Retry Seconds) (messages : List Message) (left : ℕ)
    (delay : Seconds) : Talk (Option Reply) :=
  retry.runFrom (fun _ => true) Talk.pause (callModel messages) left delay

section Attempts

variable (retry : Retry Seconds) (model : Talk.Model σ) (messages : List Message) (delay : Seconds)
  (memory : σ) (time : Seconds)

theorem play_attemptsFrom_ok (left : ℕ) {response : Response}
    (h : (model memory messages).2.2 = .ok response) :
    (attemptsFrom retry messages (left + 1) delay).play model memory time =
      ⟨some (.ok response), (model memory messages).1, time.after (model memory messages).2.1,
        [⟨messages, .ok response⟩]⟩ := by
  rw [attemptsFrom, Retry.runFrom, Talk.play_bind, play_callModel]
  simp only [h]
  rfl

theorem play_attemptsFrom_last {reason : String}
    (h : (model memory messages).2.2 = .error reason) :
    (attemptsFrom retry messages 1 delay).play model memory time =
      ⟨some (.error ("Model call failed: " ++ reason)), (model memory messages).1,
        time.after (model memory messages).2.1, [⟨messages, .error reason⟩]⟩ := by
  rw [attemptsFrom, Retry.runFrom, Talk.play_bind, play_callModel]
  simp only [h]
  rfl

theorem play_attemptsFrom_error (left : ℕ) {reason : String}
    (h : (model memory messages).2.2 = .error reason) :
    (attemptsFrom retry messages (left + 2) delay).play model memory time =
      let rest := (attemptsFrom retry messages (left + 1) (retry.next delay)).play model
        (model memory messages).1 ((time.after (model memory messages).2.1).after delay)
      { rest with exchanges := ⟨messages, .error reason⟩ :: rest.exchanges } := by
  rw [attemptsFrom, Retry.runFrom, Talk.play_bind, play_callModel]
  simp only [h]
  rfl

end Attempts

theorem retried_attemptsFrom (retry : Retry Seconds) (model : Talk.Model σ)
    (messages : List Message) (left : ℕ) (delay : Seconds) (memory : σ) (time : Seconds) :
    ∃ outcome,
      ((attemptsFrom retry messages (left + 1) delay).play model memory time).value =
        some outcome ∧
      Retried (left + 1) messages
        ((attemptsFrom retry messages (left + 1) delay).play model memory time).exchanges
        outcome := by
  induction left generalizing delay memory time with
  | zero =>
    cases hreply : (model memory messages).2.2 with
    | ok response =>
      rw [play_attemptsFrom_ok _ _ _ _ _ _ _ hreply]
      exact ⟨_, rfl, .single ⟨messages, .ok response⟩ (Nat.le_refl 1) fun _ => rfl⟩
    | error reason =>
      rw [play_attemptsFrom_last _ _ _ _ _ _ hreply]
      exact ⟨_, rfl, .single ⟨messages, .error reason⟩ (Nat.le_refl 1) fun _ => rfl⟩
  | succ left ih =>
    cases hreply : (model memory messages).2.2 with
    | ok response =>
      rw [play_attemptsFrom_ok _ _ _ _ _ _ _ hreply]
      refine ⟨_, rfl, .single ⟨messages, .ok response⟩ (by omega) ?_⟩
      rintro ⟨reason, h⟩
      cases h
    | error reason =>
      rw [play_attemptsFrom_error _ _ _ _ _ _ _ hreply]
      obtain ⟨outcome, hvalue, hretried⟩ := ih (retry.next delay) (model memory messages).1
        ((time.after (model memory messages).2.1).after delay)
      exact ⟨outcome, hvalue, hretried.again rfl ⟨reason, rfl⟩ (by omega)⟩

/-- **A call that is tried again** asks the model at most so often as is allowed, always with the same
messages, and up to the first response. -/
theorem retried_callAgain (retry : Retry Seconds) (model : Talk.Model σ) (messages : List Message)
    (memory : σ) (time : Seconds) :
    Retried retry.attempts.toNat messages
      ((callAgain retry messages).play model memory time).exchanges
      ((callAgain retry messages).play model memory time).value := by
  rw [callAgain, Talk.play_bind_pure, Retry.run]
  cases hattempts : retry.attempts.toNat with
  | zero => exact ⟨by simp [Retry.runFrom, Talk.play_pure], Nat.le_refl 0, .inl ⟨rfl, rfl, rfl⟩⟩
  | succ left =>
    obtain ⟨outcome, hvalue, hretried⟩ :=
      retried_attemptsFrom retry model messages left retry.first memory time
    simp only [hvalue, Option.getD_some]
    exact hretried

end Lintel.Review
