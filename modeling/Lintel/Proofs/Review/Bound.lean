import Lintel.Proofs.Review.Course
import Mathlib.Tactic.Linarith
import Mathlib.Tactic.Positivity

/-!
# Conversations come to an end

* `Course.exists_last`, `turns_le`, `length_inquiries_le`, `length_visited_le`, `length_exchanges_le`: how a
  course ends and what it can take from some point on;
* `EndsWithin`: a conversation that has ended within its limits;
* **`run_ends_within`**: with any model, even one that asks for tools for ever, a conversation ends with a
  review or an error within its turns, its calls of the model and its steps.
-/

namespace Lintel.Review

/-- All responses among some exchanges hold texts where they should. -/
def TextualExchanges (exchanges : List Exchange) : Prop :=
  ∀ exchange ∈ exchanges, ∀ response, exchange.reply = .ok response → response.Textual

namespace Course

variable {tools : Toolset} {limits : Limits} {progress : Progress} {inquiries : List Inquiry}
  {walk : Walk}

/-- A course ends with a review or an error. -/
theorem exists_last (h : Course tools limits progress inquiries walk)
    (htextual : TextualExchanges (inquiries.flatMap (·.exchanges))) :
    ∃ last, walk.last = .ok last ∧ (last.status = .done ∨ last.status = .failed) := by
  induction h with
  | overtime => exact ⟨_, rfl, .inr rfl⟩
  | failed => exact ⟨_, rfl, .inr rfl⟩
  | done => exact ⟨_, rfl, .inl rfl⟩
  | broken early asked means =>
    -- a reply that holds texts where it should can be read
    rw [readReply_eq (asked.textual (by simpa [TextualExchanges] using htextual))] at means
    cases means
  | tools early asked means rest ih =>
    exact ih fun exchange hmem => htextual exchange (List.mem_append_right _ hmem)

theorem turns_le (h : Course tools limits progress inquiries walk)
    (hturns : progress.turns ≤ limits.turns) {last : Progress} (hlast : walk.last = .ok last) :
    last.turns ≤ limits.turns := by
  induction h with
  | overtime => cases hlast; exact hturns
  | failed early => cases hlast; exact early
  | done early => cases hlast; exact early
  | broken => cases hlast
  | tools early asked means rest ih => exact ih early hlast

/-- One call for each turn. -/
theorem length_inquiries_le (h : Course tools limits progress inquiries walk)
    (hturns : progress.turns ≤ limits.turns) :
    (inquiries.length : ℤ) ≤ limits.turns - progress.turns := by
  induction h with
  | overtime => simpa using hturns
  | failed early | done early | broken early => simp only [List.length_singleton]; omega
  | tools early asked means rest ih =>
    have hrest := ih early
    simp only [Progress.answered, Progress.asking] at hrest
    rw [List.length_cons]
    push_cast at hrest ⊢
    omega

/-- Two stages for each turn, and one more when the turns are used up. -/
theorem length_visited_le (h : Course tools limits progress inquiries walk)
    (hturns : progress.turns ≤ limits.turns) :
    (walk.visited.length : ℤ) ≤ 2 * (limits.turns - progress.turns) + 1 := by
  induction h with
  | overtime => simp only [Walk.stop, List.length_singleton]; omega
  | failed early | done early => simp only [Walk.stop, List.length_singleton]; omega
  | broken early => simp only [Walk.broken, List.length_nil]; omega
  | tools early asked means rest ih =>
    have hrest := ih early
    simp only [Progress.answered, Progress.asking] at hrest
    simp only [Walk.cons, List.length_cons]
    push_cast at hrest ⊢
    omega

/-- Each call is tried at most so often as the limits allow. -/
theorem length_exchanges_le (h : Course tools limits progress inquiries walk) :
    (inquiries.flatMap (·.exchanges)).length ≤
      inquiries.length * limits.retry.attempts.toNat := by
  induction h with
  | overtime => simp
  | failed early asked | done early asked | broken early asked => simpa using asked.length_le
  | tools early asked means rest ih =>
    rw [List.flatMap_cons, List.length_append, List.length_cons, Nat.succ_mul, Nat.add_comm]
    exact Nat.add_le_add ih asked.length_le

end Course

/-- A conversation has ended within its limits: with a review or an error, and with no more turns, calls of
the model and stages than it may have. -/
structure EndsWithin (limits : Limits) (ending : Ending) (calls stages : ℕ) : Prop where
  status : ending.status = .done ∨ ending.status = .failed
  turns : ending.turns ≤ limits.turns
  calls : calls ≤ limits.turns * limits.retry.attempts
  stages : stages ≤ 2 * limits.turns + 1

theorem Course.endsWithin {tools : Toolset} {limits : Limits} {system human : String}
    {inquiries : List Inquiry} {walk : Walk} {last : Progress} (hturns : 1 ≤ limits.turns)
    (hattempts : 1 ≤ limits.retry.attempts)
    (h : Course tools limits (.start system human) inquiries walk) (hlast : walk.last = .ok last)
    (hstatus : last.status = .done ∨ last.status = .failed) :
    EndsWithin limits last.ending (inquiries.flatMap (·.exchanges)).length
      walk.visited.length := by
  have hstart : ((Progress.start system human).turns : ℤ) ≤ limits.turns := by
    simp only [Progress.start]
    omega
  refine ⟨hstatus, h.turns_le hstart hlast, ?_, ?_⟩
  · have hinquiries := h.length_inquiries_le hstart
    have hexchanges := h.length_exchanges_le
    simp only [Progress.start, Nat.cast_zero, sub_zero] at hinquiries
    calc ((inquiries.flatMap (·.exchanges)).length : ℤ)
        ≤ inquiries.length * (limits.retry.attempts.toNat : ℤ) := by exact_mod_cast hexchanges
      _ = inquiries.length * limits.retry.attempts := by rw [Int.toNat_of_nonneg (by omega)]
      _ ≤ limits.turns * limits.retry.attempts :=
          Int.mul_le_mul_of_nonneg_right hinquiries (by omega)
  · have hvisited := h.length_visited_le hstart
    simpa only [Progress.start, Nat.cast_zero, sub_zero] using hvisited

/-! ## Whole conversations -/

section Run

variable {σ : Type} (model : Talk.Model σ) (memory : σ) (time : Seconds) (system human : String)
  (loop : Loop)

theorem value_run :
    ((loop.run system human).play model memory time).value =
      ((loop.walk system human).play model memory time).value.last.map Progress.ending := by
  rw [Loop.run, Talk.play_bind_pure]

theorem exchanges_run :
    ((loop.run system human).play model memory time).exchanges =
      ((loop.walk system human).play model memory time).exchanges := by
  rw [Loop.run, Talk.play_bind_pure]

theorem textualExchanges_play {α : Type} (htextual : model.Textual) (talk : Talk α) :
    TextualExchanges (talk.play model memory time).exchanges := by
  intro exchange hmem response hreply
  obtain ⟨memory', hmodel⟩ := exists_of_mem_exchanges model talk memory time exchange hmem
  exact htextual memory' exchange.sent response (hmodel.symm.trans hreply)

/-- **Every conversation comes to an end within its limits**, whatever the model does; the limit of steps
is never reached. -/
theorem run_ends_within (tools : Toolset) (limits : Limits)
    (ends : (progress : Progress) → EndOrder progress.pending.length) (hturns : 1 ≤ limits.turns)
    (hattempts : 1 ≤ limits.retry.attempts) (htextual : model.Textual) :
    let loop := Loop.ofLimits tools limits ends
    let played := (loop.run system human).play model memory time
    let visited := ((loop.walk system human).play model memory time).value.visited
    ∃ ending, played.value = .ok ending ∧
      EndsWithin limits ending played.calls.length visited.length ∧
      visited.length < loop.stepLimit := by
  intro loop played visited
  obtain ⟨inquiries, hexchanges, hcourse⟩ :=
    course_walk tools limits ends model system human memory time (by omega)
  have hall := textualExchanges_play model memory time htextual (loop.walk system human)
  rw [hexchanges] at hall
  obtain ⟨last, hlast, hstatus⟩ := hcourse.exists_last hall
  have hwithin := hcourse.endsWithin hturns hattempts hlast hstatus
  refine ⟨last.ending, ?_, ?_, ?_⟩
  · refine (value_run model memory time system human loop).trans ?_
    rw [hlast]
    rfl
  · rw [Talk.Played.calls, List.length_map, exchanges_run model memory time system human loop,
      hexchanges]
    exact hwithin
  · have hstages : (visited.length : ℤ) ≤ 2 * limits.turns + 1 := hwithin.stages
    change (visited.length : ℤ) < 2 * limits.turns + 4
    omega

end Run

/-- A model that is busy every other time and asks for a tool otherwise, for ever. -/
def restless : Talk.Model Bool := fun busy _ =>
  (!busy, .ofInt 1,
    if busy then .error "busy" else .ok (.message (.arr [.str "Wait."]) [⟨"grep", .null, none⟩] []))

theorem restless_textual : restless.Textual := by
  intro busy messages response hreply
  cases busy with
  | true => cases hreply
  | false =>
    cases hreply
    intro block hblock htext
    rw [List.mem_singleton.mp hblock] at htext
    exact Bool.noConfusion htext

/-- A conversation with a model that never stops. -/
theorem run_ends_within_restless :
    let limits : Limits := { turns := 2 }
    let loop := Loop.ofLimits { view := ⟨.empty, []⟩, root := .ofString "/", limit := 100 } limits
    let played := (loop.run "Review." "Here it is.").play restless true .zero
    let visited := ((loop.walk "Review." "Here it is.").play restless true .zero).value.visited
    1 ≤ limits.turns ∧ 1 ≤ limits.retry.attempts ∧ restless.Textual ∧
      ∃ ending, played.value = .ok ending ∧
        EndsWithin limits ending played.calls.length visited.length ∧
        visited.length < loop.stepLimit :=
  ⟨by decide, by decide, restless_textual,
    run_ends_within restless true _ _ _ _ _ _ (by decide) (by decide) restless_textual⟩

end Lintel.Review
