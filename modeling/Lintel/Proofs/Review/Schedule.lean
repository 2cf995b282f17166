import Lintel.Proofs.Review.Answered
import Mathlib.Algebra.GroupWithZero.Nat
import Mathlib.Data.List.Nodup
import Mathlib.Data.List.Range

/-!
# Steps of a schedule

* `Schedule.Effect`: what a step can do to the talks of a schedule: one takes its place, leaves it, waits, or
  asks the model;
* `fill_induction`, `effect_begin`, `effect_advance`: everything that a schedule does is of this kind;
* `Schedule.Sound`: each talk is once in the schedule, what is left of it comes to the same as all of it,
  and every call of the model is that of a talk; **`Effect.sound`**: this stays so;
* `Schedule.Placed`: there are never more talks at once than places, and no place is free while a talk waits
  for one; **`placed_advance`**: this stays so whichever talk goes on.
-/

namespace Lintel.Review

variable {σ α : Type}

/-- What is left of the talk of a job, with its index. -/
def Job.left (job : Job α) : ℕ × Talk α := (job.index, job.rest)

/-- The talk ended with a value. -/
def Finish.isValue : Finish α → Bool
  | value _ => true
  | timedOut _ | tooLate => false

theorem Finish.exists_of_isValue {finish : Finish α} (h : finish.isValue = true) :
    ∃ value, finish = .value value := by
  cases finish with
  | value value => exact ⟨value, rfl⟩
  | timedOut | tooLate => cases h

namespace Schedule

/-- What is left of the talks that have not ended, each with its index. -/
def left (schedule : Schedule σ α) : List (ℕ × Talk α) :=
  schedule.waiting ++ schedule.running.map Job.left

/-- No talk that has ended was given up at its deadline. -/
def Punctual (schedule : Schedule σ α) : Prop :=
  ∀ entry ∈ schedule.ended, entry.2.isValue = true

instance (schedule : Schedule σ α) : Decidable schedule.Punctual :=
  inferInstanceAs (Decidable (∀ entry ∈ schedule.ended, entry.2.isValue = true))

/-- The steps that the talks of a schedule have left: those of each talk, and one for its end. -/
def stepsLeft (answer : List Message → Reply) (schedule : Schedule σ α) : ℕ :=
  (schedule.left.map fun entry => entry.2.steps answer + 1).sum

/-! ## What a step can do -/

/-- What a step can do to the talks of a schedule: one takes its place, which is no step of the talk; or it
leaves, and if it does so with a value, it was at its end; or it waits; or it asks the model and goes on with
the answer. -/
inductive Effect (answer : List Message → Reply) (now next : Schedule σ α) : ℕ → Prop
  | begins (left : next.left.Perm now.left) (ended : next.ended = now.ended)
      (calls : next.calls = now.calls) : Effect answer now next 0
  | leaves {index : ℕ} {talk : Talk α} {finish : Finish α}
      (left : now.left.Perm ((index, talk) :: next.left))
      (ended : next.ended = (index, finish) :: now.ended) (calls : next.calls = now.calls)
      (value : ∀ a, finish = .value a → talk = .done a) : Effect answer now next 1
  | waits {index : ℕ} {delay : Seconds} {talk : Talk α} {others : List (ℕ × Talk α)}
      (before : now.left.Perm ((index, .wait delay talk) :: others))
      (after : next.left.Perm ((index, talk) :: others)) (ended : next.ended = now.ended)
      (calls : next.calls = now.calls) : Effect answer now next 1
  | asks {index : ℕ} {messages : List Message} {talk : Reply → Talk α} {others : List (ℕ × Talk α)}
      (before : now.left.Perm ((index, .ask messages talk) :: others))
      (after : next.left.Perm ((index, talk (answer messages)) :: others))
      (ended : next.ended = now.ended) (calls : next.calls = messages :: now.calls) :
      Effect answer now next 1

/-! ## Taking free places -/

section Fill

variable {bounds : Bounds} {s : Schedule σ α}

theorem begin_waiting (waiting rest : List (ℕ × Talk α)) (index : ℕ) (talk : Talk α) :
    { ({ s with waiting } : Schedule σ α).begin bounds index talk with waiting := rest } =
      { s.begin bounds index talk with waiting := rest } := by
  simp only [begin]
  split_ifs <;> rfl

theorem fillFrom_induction {P : Schedule σ α → Prop} (waiting : List (ℕ × Talk α))
    (hbegin : ∀ (s : Schedule σ α) index talk rest, s.waiting = (index, talk) :: rest → P s →
      P { s.begin bounds index talk with waiting := rest })
    (h : P { s with waiting }) : P (s.fillFrom bounds waiting) := by
  induction waiting generalizing s with
  | nil => exact h
  | cons entry rest ih =>
    rw [fillFrom]
    split_ifs
    · refine ih ?_
      rw [← begin_waiting (entry :: rest)]
      exact hbegin _ _ _ _ rfl h
    · exact h

theorem fill_induction {P : Schedule σ α → Prop}
    (hbegin : ∀ (s : Schedule σ α) index talk rest, s.waiting = (index, talk) :: rest → P s →
      P { s.begin bounds index talk with waiting := rest })
    (h : P s) : P (s.fill bounds) :=
  fillFrom_induction s.waiting hbegin h

end Fill

/-! ## Jobs and their talks -/

/-- A job stands between others: they are left when it leaves, and they stay as they are when it goes on. -/
structure Job.Between (jobs before : List (Job α)) (job : Job α) (after : List (Job α)) : Prop where
  eq : jobs = before ++ job :: after
  others : jobs.filter (·.index != job.index) = before ++ after
  next : ∀ next, (jobs.map fun j => if j.index == job.index then next else j) = before ++ next :: after

theorem exists_between {jobs : List (Job α)} {job : Job α} (hjob : job ∈ jobs)
    (hnodup : (jobs.map (·.index)).Nodup) : ∃ before after, Job.Between jobs before job after := by
  obtain ⟨before, after, rfl⟩ := List.append_of_mem hjob
  rw [List.map_append, List.map_cons, List.nodup_middle, List.nodup_cons, ← List.map_append] at hnodup
  have hne : ∀ j ∈ before ++ after, j.index ≠ job.index := fun j hj heq =>
    hnodup.1 (heq ▸ List.mem_map_of_mem hj)
  obtain ⟨hbefore, hafter⟩ := List.forall_mem_append.mp hne
  refine ⟨before, after, rfl, ?_, fun next => ?_⟩
  · rw [List.filter_append, List.filter_cons_of_neg (by simp),
      List.filter_eq_self.mpr fun j hj => by simpa using hbefore j hj,
      List.filter_eq_self.mpr fun j hj => by simpa using hafter j hj]
  · have hkept : ∀ js : List (Job α), (∀ j ∈ js, j.index ≠ job.index) →
        (js.map fun j => if j.index == job.index then next else j) = js := fun js hjs =>
      (List.map_congr_left fun j hj => if_neg (by simpa using hjs j hj)).trans (List.map_id' js)
    rw [List.map_append, List.map_cons, hkept before hbefore, hkept after hafter]
    simp

section Step

variable {answer : List Message → Reply} {s : Schedule σ α}

/-- A talk takes its place, or it is too late for it. -/
theorem effect_begin {bounds : Bounds} {index : ℕ} {talk : Talk α} {rest : List (ℕ × Talk α)}
    (hwaiting : s.waiting = (index, talk) :: rest) :
    ∃ steps, Effect answer s { s.begin bounds index talk with waiting := rest } steps := by
  have hleft : s.left = (index, talk) :: (rest ++ s.running.map Job.left) := by
    rw [left, hwaiting, List.cons_append]
  simp only [begin]
  split_ifs
  · refine ⟨0, .begins ?_ rfl rfl⟩
    rw [hleft, left, List.map_append, ← List.append_assoc]
    exact List.perm_append_singleton _ _
  · exact ⟨1, .leaves (.of_eq hleft) rfl rfl fun a h => by cases h⟩

variable {before after : List (Job α)} {job : Job α}

theorem left_of_between (h : Job.Between s.running before job after) :
    s.left.Perm (job.left :: (s.waiting ++ (before ++ after).map Job.left)) := by
  rw [left, h.eq, List.map_append, List.map_cons, List.map_append, ← List.append_assoc,
    ← List.append_assoc]
  exact List.perm_middle

theorem left_goOn (h : Job.Between s.running before job after) (delay : Seconds) (rest : Talk α) :
    (s.goOn job delay rest).left.Perm
      ((job.index, rest) :: (s.waiting ++ (before ++ after).map Job.left)) := by
  rw [goOn, left, h.next, List.map_append, List.map_cons, List.map_append, ← List.append_assoc,
    ← List.append_assoc]
  exact List.perm_middle

/-- The schedule when a job has left and its place is still free. -/
def without (s : Schedule σ α) (job : Job α) (finish : Finish α) : Schedule σ α :=
  ({ s with clock := job.moment, running := s.running.filter (·.index != job.index) }).finish
    job.index finish

theorem effect_without (h : Job.Between s.running before job after) {finish : Finish α}
    (hvalue : ∀ a, finish = .value a → job.rest = .done a) :
    Effect answer s (s.without job finish) 1 := by
  have hothers : (s.without job finish).left = s.waiting ++ (before ++ after).map Job.left := by
    rw [← h.others]
    rfl
  have hleft : s.left.Perm ((job.index, job.rest) :: (s.without job finish).left) := by
    rw [hothers]
    exact left_of_between h
  exact .leaves hleft rfl rfl hvalue

/-- **What a schedule does when one of its talks goes on**: a step of this talk, after which the free places
are taken if it has left its own. -/
theorem effect_advance (bounds : Bounds) {model : Talk.Model σ} (hanswers : model.Answers answer)
    (h : Job.Between s.running before job after) :
    ∃ next, Effect answer s next 1 ∧
      (s.advance bounds model job = next ∨ s.advance bounds model job = next.fill bounds) := by
  have hbefore := left_of_between h
  by_cases hlate : job.isLate = true
  · refine ⟨s.without job (.timedOut job.allowed), effect_without h (fun a ha => by cases ha), .inr ?_⟩
    rw [advance, if_pos hlate]
    rfl
  rw [advance, if_neg hlate]
  rw [Job.left] at hbefore
  cases hrest : job.rest with
  | done value =>
    refine ⟨s.without job (.value value), effect_without h fun a ha => ?_, .inr rfl⟩
    cases ha
    exact hrest
  | wait delay rest =>
    rw [hrest] at hbefore
    exact ⟨_, .waits hbefore (left_goOn (s := { s with clock := job.moment }) h delay rest) rfl rfl,
      .inl rfl⟩
  | ask messages next =>
    rw [hrest] at hbefore
    let asked : Schedule σ α := { s with
      clock := job.moment, memory := (model s.memory messages).1, calls := messages :: s.calls }
    refine ⟨asked.goOn job (model s.memory messages).2.1 (next (model s.memory messages).2.2),
      .asks hbefore ?_ rfl rfl, .inl rfl⟩
    rw [← hanswers s.memory messages]
    exact left_goOn (s := asked) h _ _

end Step

/-! ## Steps that are left -/

section Effect

variable {answer : List Message → Reply} {talks : List (Talk α)} {now next : Schedule σ α} {steps : ℕ}

theorem stepsLeft_of_perm {entry : ℕ × Talk α} {others : List (ℕ × Talk α)}
    (h : now.left.Perm (entry :: others)) :
    now.stepsLeft answer =
      entry.2.steps answer + 1 + (others.map fun other => other.2.steps answer + 1).sum := by
  rw [stepsLeft, (h.map _).sum_nat, List.map_cons, List.sum_cons]

theorem Effect.stepsLeft_add_le (h : Effect answer now next steps) :
    next.stepsLeft answer + steps ≤ now.stepsLeft answer := by
  cases h with
  | begins left =>
    rw [stepsLeft, (left.map _).sum_nat]
    exact Nat.le_refl _
  | leaves left =>
    rw [stepsLeft_of_perm left, stepsLeft]
    omega
  | waits before after =>
    simp only [stepsLeft_of_perm before, stepsLeft_of_perm after, Talk.steps]
    omega
  | asks before after =>
    simp only [stepsLeft_of_perm before, stepsLeft_of_perm after, Talk.steps]
    omega

/-! ## Talks in a schedule -/

/-- The schedule is one of these talks, with these replies. -/
structure Sound (answer : List Message → Reply) (talks : List (Talk α)) (s : Schedule σ α) : Prop where
  indices : (s.left.map (·.1) ++ s.ended.map (·.1)).Perm (List.range talks.length)
  leads : ∀ entry ∈ s.left, ∃ talk, talks[entry.1]? = some talk ∧ talk.Leads answer entry.2
  values : ∀ entry ∈ s.ended, ∀ value, entry.2 = .value value →
    ∃ talk, talks[entry.1]? = some talk ∧ value = talk.outcome answer
  calls : s.Punctual → (s.calls ++ s.left.flatMap (·.2.asked answer)).Perm
    (talks.flatMap (·.asked answer))

theorem Sound.of_begins (h : Sound answer talks now) (hleft : next.left.Perm now.left)
    (hended : next.ended = now.ended) (hcalls : next.calls = now.calls) : Sound answer talks next where
  indices := by
    rw [hended]
    exact ((hleft.map _).append_right _).trans h.indices
  leads entry hentry := h.leads entry (hleft.mem_iff.mp hentry)
  values := by
    rw [hended]
    exact h.values
  calls := by
    intro hpunctual
    rw [Punctual, hended] at hpunctual
    rw [hcalls]
    exact ((hleft.flatMap_right _).append_left _).trans (h.calls hpunctual)

theorem Sound.of_leaves {index : ℕ} {talk : Talk α} {finish : Finish α} (h : Sound answer talks now)
    (hleft : now.left.Perm ((index, talk) :: next.left))
    (hended : next.ended = (index, finish) :: now.ended) (hcalls : next.calls = now.calls)
    (hvalue : ∀ a, finish = .value a → talk = .done a) : Sound answer talks next where
  indices := by
    rw [hended, List.map_cons]
    refine List.perm_middle.trans (.trans ?_ h.indices)
    exact ((hleft.map (·.1)).append_right _).symm
  leads entry hentry := h.leads entry (hleft.mem_iff.mpr (List.mem_cons_of_mem _ hentry))
  values := by
    rw [hended]
    refine List.forall_mem_cons.mpr ⟨fun a ha => ?_, h.values⟩
    obtain ⟨whole, hwhole, hleads⟩ := h.leads _ (hleft.mem_iff.mpr List.mem_cons_self)
    refine ⟨whole, hwhole, ?_⟩
    rw [← hleads.outcome_eq, hvalue a ha]
    rfl
  calls := by
    -- the talk has ended with a value, so it was at its end and has no calls left
    intro hpunctual
    rw [Punctual, hended, List.forall_mem_cons] at hpunctual
    obtain ⟨a, ha⟩ := Finish.exists_of_isValue hpunctual.1
    have hnow := (hleft.flatMap_right (·.2.asked answer)).append_left now.calls
    rw [List.flatMap_cons, hvalue a ha] at hnow
    rw [hcalls]
    exact hnow.symm.trans (h.calls hpunctual.2)

theorem Sound.of_goesOn {index : ℕ} {before after : Talk α} {others : List (ℕ × Talk α)}
    (h : Sound answer talks now) (calls : List (List Message))
    (hbefore : now.left.Perm ((index, before) :: others))
    (hafter : next.left.Perm ((index, after) :: others)) (hended : next.ended = now.ended)
    (hcalls : next.calls = calls ++ now.calls)
    (hasked : before.asked answer = calls ++ after.asked answer)
    (hleads : ∀ talk : Talk α, talk.Leads answer before → talk.Leads answer after) :
    Sound answer talks next where
  indices := by
    rw [hended]
    exact (((hafter.map _).trans (hbefore.map (·.1)).symm).append_right _).trans h.indices
  leads := by
    intro entry hentry
    rcases List.mem_cons.mp (hafter.mem_iff.mp hentry) with rfl | hother
    · obtain ⟨talk, htalk, htalkLeads⟩ := h.leads _ (hbefore.mem_iff.mpr List.mem_cons_self)
      exact ⟨talk, htalk, hleads talk htalkLeads⟩
    · exact h.leads _ (hbefore.mem_iff.mpr (List.mem_cons_of_mem _ hother))
  values := by
    rw [hended]
    exact h.values
  calls := by
    intro hpunctual
    rw [Punctual, hended] at hpunctual
    have hnext := (hafter.flatMap_right (·.2.asked answer)).append_left next.calls
    have hnow := (hbefore.flatMap_right (·.2.asked answer)).append_left now.calls
    have hmoved : (next.calls ++ ((index, after) :: others).flatMap (·.2.asked answer)).Perm
        (now.calls ++ ((index, before) :: others).flatMap (·.2.asked answer)) := by
      rw [List.flatMap_cons, List.flatMap_cons, hcalls, hasked, List.append_assoc, List.append_assoc]
      exact List.perm_append_comm_assoc _ _ _
    exact (hnext.trans (hmoved.trans hnow.symm)).trans (h.calls hpunctual)

/-- **Every step keeps a schedule one of its talks.** -/
theorem Effect.sound (heffect : Effect answer now next steps) (h : Sound answer talks now) :
    Sound answer talks next := by
  cases heffect with
  | begins left ended calls => exact h.of_begins left ended calls
  | leaves left ended calls value => exact h.of_leaves left ended calls value
  | waits before after ended calls =>
    exact h.of_goesOn [] before after ended calls rfl fun _ hleads => hleads.wait
  | @asks index messages talk others before after ended calls =>
    exact h.of_goesOn [messages] before after ended calls rfl fun _ hleads => hleads.ask

end Effect

/-! ## Places -/

/-- There are never more talks at once than places, and no place is free while a talk waits for one. -/
structure Placed (bounds : Bounds) (s : Schedule σ α) : Prop where
  most : (s.running.length : ℤ) ≤ bounds.places
  full : s.waiting = [] ∨ (s.running.length : ℤ) = bounds.places

section Places

variable {bounds : Bounds} {s : Schedule σ α}

theorem length_begin_le (h : (s.running.length : ℤ) < bounds.places) (index : ℕ) (talk : Talk α) :
    ((s.begin bounds index talk).running.length : ℤ) ≤ bounds.places := by
  simp only [begin]
  split_ifs
  · rw [List.length_append, List.length_singleton]
    exact h
  · exact Int.le_of_lt h

theorem placed_fillFrom (waiting : List (ℕ × Talk α)) (h : (s.running.length : ℤ) ≤ bounds.places) :
    (s.fillFrom bounds waiting).Placed bounds := by
  induction waiting generalizing s with
  | nil => exact ⟨h, .inl rfl⟩
  | cons entry rest ih =>
    rw [fillFrom]
    split_ifs with hroom
    · exact ih (length_begin_le hroom _ _)
    · exact ⟨h, .inr (Int.le_antisymm h (Int.not_lt.mp hroom))⟩

theorem Placed.goOn (h : s.Placed bounds) (job : Job α) (delay : Seconds) (rest : Talk α) :
    (s.goOn job delay rest).Placed bounds := by
  have hlength : (s.goOn job delay rest).running.length = s.running.length := List.length_map _
  exact ⟨hlength ▸ h.most, hlength ▸ h.full⟩

theorem Placed.leave (h : s.Placed bounds) (job : Job α) (finish : Finish α) :
    (s.leave bounds job finish).Placed bounds :=
  placed_fillFrom _ (Int.le_trans (Int.ofNat_le.mpr (List.length_filter_le _ _)) h.most)

/-- **The places are kept whichever talk goes on.** -/
theorem placed_advance (h : s.Placed bounds) (model : Talk.Model σ) (job : Job α) :
    (s.advance bounds model job).Placed bounds := by
  have hnow : ({ s with clock := job.moment } : Schedule σ α).Placed bounds := ⟨h.most, h.full⟩
  rw [advance]
  split_ifs
  · exact hnow.leave job _
  cases job.rest with
  | done value => exact hnow.leave job _
  | wait delay rest => exact hnow.goOn job delay rest
  | ask messages next =>
    have hasked : ({ s with
        clock := job.moment
        memory := (model s.memory messages).1
        calls := messages :: s.calls } : Schedule σ α).Placed bounds := ⟨h.most, h.full⟩
    exact hasked.goOn job _ _

end Places

end Schedule

end Lintel.Review
