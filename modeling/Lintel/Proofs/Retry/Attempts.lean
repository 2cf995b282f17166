import Lintel.Retry
import Mathlib.Data.ENat.Lattice
import Mathlib.Data.List.Iterate

/-!
# Attempts

A function with given outcomes is tried again and watched (`watch`): when it is called, with which argument,
and when there is a pause. It is called up to the first outcome that is not tried again, at most as often
as is allowed, with one pause between two calls.

* `runFrom_settled`, `runFrom_passing`: one attempt;
* `runFrom_watched`: all attempts;
* **`watch_attempted`**: how often the function is called, and what comes of it.
-/

namespace Lintel.Retry

variable {β δ ε α : Type}

/-! ## Functions that are watched -/

/-- What is seen of a function that is tried again. -/
inductive Event (β δ : Type) where
  | call (argument : β)
  | pause (delay : δ)
  deriving DecidableEq, Repr

/-- The argument of a call. -/
def Event.argument? : Event β δ → Option β
  | call argument => some argument
  | pause _ => none

/-- The delay of a pause. -/
def Event.delay? : Event β δ → Option δ
  | call _ => none
  | pause delay => some delay

/-- A function while it is watched: the outcomes of its next calls, and what was seen so far. -/
structure Watched (β δ ε α : Type) where
  outcomes : ℕ → Except ε α
  events : List (Event β δ) := []

namespace Watched

/-- A call has the next outcome. -/
def call (argument : β) : StateM (Watched β δ ε α) (Except ε α) := fun watched =>
  (watched.outcomes 0, ⟨fun n => watched.outcomes (n + 1), watched.events ++ [.call argument]⟩)

/-- A pause is seen, and changes nothing. -/
def pause (delay : δ) : StateM (Watched β δ ε α) Unit := fun watched =>
  ((), { watched with events := watched.events ++ [.pause delay] })

end Watched

/-- Calls with an argument, with a pause between each two of them. -/
def course (argument : β) : List δ → List (Event β δ)
  | [] => [.call argument]
  | delay :: delays => .call argument :: .pause delay :: course argument delays

theorem filterMap_argument?_course (argument : β) (delays : List δ) :
    (course argument delays).filterMap Event.argument? =
      List.replicate (delays.length + 1) argument := by
  induction delays with
  | nil => rfl
  | cons delay delays ih =>
    simp only [course, List.filterMap_cons, Event.argument?, ih, List.length_cons,
      List.replicate_succ]

theorem filterMap_delay?_course (argument : β) (delays : List δ) :
    (course argument delays).filterMap Event.delay? = delays := by
  induction delays with
  | nil => rfl
  | cons delay delays ih =>
    simp only [course, List.filterMap_cons, Event.delay?, ih]

/-- The outcome is a fault that is tried again. -/
def passes (retried : ε → Bool) : Except ε α → Bool
  | .ok _ => false
  | .error fault => retried fault

theorem course_cons (argument : β) (delay : δ) (delays : List δ) (events : List (Event β δ)) :
    (events ++ [.call argument, .pause delay]) ++ course argument delays =
      events ++ course argument (delay :: delays) := by
  simp [course]

variable [Mul δ] [LT δ] [DecidableLT δ]

/-- The outcome of a function with given outcomes that is tried again, and what is seen of it. -/
def watch (retry : Retry δ) (retried : ε → Bool) (outcomes : ℕ → Except ε α) (argument : β) :
    Option (Except ε α) × List (Event β δ) :=
  let (outcome, watched) :=
    (retry.run retried Watched.pause (Watched.call argument)).run { outcomes }
  (outcome, watched.events)

/-! ## One attempt -/

section Steps

variable (retry : Retry δ) {retried : ε → Bool} {outcomes : ℕ → Except ε α} (argument : β) (delay : δ)
  (events : List (Event β δ))

/-- An attempt that is the last. -/
theorem runFrom_settled {left : ℕ} (h : left = 0 ∨ passes retried (outcomes 0) = false) :
    (retry.runFrom retried Watched.pause (Watched.call argument) (left + 1) delay).run
      ⟨outcomes, events⟩ =
        (some (outcomes 0), ⟨fun n => outcomes (n + 1), events ++ [.call argument]⟩) := by
  rw [runFrom, StateT.run_bind]
  -- the call is made, and its outcome says how to go on
  change StateT.run (match outcomes 0 with | .ok value => _ | .error fault => _) _ = _
  cases houtcome : outcomes 0 with
  | ok value => rfl
  | error fault =>
    have hlast : (left == 0 || !retried fault) = true := by
      simpa [houtcome, passes] using h
    dsimp only
    rw [hlast]
    rfl

/-- An attempt in vain, and a pause before the others. -/
theorem runFrom_passing {left : ℕ} (h : passes retried (outcomes 0) = true) :
    (retry.runFrom retried Watched.pause (Watched.call argument) (left + 2) delay).run
      ⟨outcomes, events⟩ =
        (retry.runFrom retried Watched.pause (Watched.call argument) (left + 1)
          (retry.next delay)).run
            ⟨fun n => outcomes (n + 1), events ++ [.call argument, .pause delay]⟩ := by
  conv_lhs => rw [runFrom, StateT.run_bind]
  change StateT.run (match outcomes 0 with | .ok value => _ | .error fault => _) _ = _
  cases houtcome : outcomes 0 with
  | ok value => simp [houtcome, passes] at h
  | error fault =>
    have hlast : (left + 1 == 0 || !retried fault) = false := by
      simpa [houtcome, passes] using h
    have hevents : events ++ [Event.call argument, .pause delay] =
        events ++ [.call argument] ++ [.pause delay] := by
      rw [List.append_assoc, List.singleton_append]
    dsimp only
    rw [hlast, if_neg Bool.false_ne_true, StateT.run_bind, hevents]
    rfl

end Steps

/-! ## All attempts -/

/-- **All attempts**: after some that are tried again there is one that is not, or no other is allowed. -/
theorem runFrom_watched (retry : Retry δ) (retried : ε → Bool) (argument : β) (left : ℕ) (delay : δ)
    (outcomes : ℕ → Except ε α) (events : List (Event β δ)) :
    ∃ again ≤ left, (∀ n < again, passes retried (outcomes n) = true) ∧
      (again = left ∨ passes retried (outcomes again) = false) ∧
      (retry.runFrom retried Watched.pause (Watched.call argument) (left + 1) delay).run
        ⟨outcomes, events⟩ =
          (some (outcomes again), ⟨fun n => outcomes (n + again + 1),
            events ++ course argument (List.iterate retry.next delay again)⟩) := by
  -- an attempt in vain leaves one less, and the outcomes from the second one on
  induction left generalizing delay outcomes events with
  | zero =>
    exact ⟨0, Nat.le_refl 0, fun _ hn => absurd hn (Nat.not_lt_zero _), .inl rfl,
      runFrom_settled retry argument delay events (.inl rfl)⟩
  | succ left ih =>
    cases hpasses : passes retried (outcomes 0) with
    | false =>
      exact ⟨0, Nat.zero_le _, fun _ hn => absurd hn (Nat.not_lt_zero _), .inr hpasses,
        runFrom_settled retry argument delay events (.inr hpasses)⟩
    | true =>
      obtain ⟨again, hle, hall, hlast, hrun⟩ := ih (retry.next delay) (fun n => outcomes (n + 1))
        (events ++ [.call argument, .pause delay])
      refine ⟨again + 1, Nat.succ_le_succ hle, ?_, ?_, ?_⟩
      · rintro (_ | n) hn
        · exact hpasses
        · exact hall n (Nat.lt_of_succ_lt_succ hn)
      · exact hlast.imp (congrArg (· + 1)) id
      · rw [runFrom_passing retry argument delay events hpasses, hrun, course_cons]
        rfl

/-! ## How often a function is called -/

/-- The number of the first outcome that is not tried again, counted from one; infinite without one. -/
noncomputable def firstSettled (retried : ε → Bool) (outcomes : ℕ → Except ε α) : ℕ∞ :=
  sInf {k | ∃ n : ℕ, k = n + 1 ∧ passes retried (outcomes n) = false}

theorem calls_eq_min {retried : ε → Bool} {outcomes : ℕ → Except ε α} {again left : ℕ}
    (hle : again ≤ left) (hall : ∀ n < again, passes retried (outcomes n) = true)
    (hlast : again = left ∨ passes retried (outcomes again) = false) :
    ((again + 1 : ℕ) : ℕ∞) = min (firstSettled retried outcomes) ((left + 1 : ℕ) : ℕ∞) := by
  apply le_antisymm
  · refine le_min (le_sInf ?_) (Nat.cast_le.mpr (Nat.succ_le_succ hle))
    rintro k ⟨n, rfl, hn⟩
    have hsettled : again ≤ n := by
      by_contra hlt
      rw [hall n (Nat.lt_of_not_le hlt)] at hn
      cases hn
    exact_mod_cast Nat.succ_le_succ hsettled
  · rcases hlast with rfl | hsettled
    · exact min_le_right _ _
    · refine (min_le_left _ _).trans (sInf_le ⟨again, ?_, hsettled⟩)
      push_cast
      rfl

theorem le_of_eq_min {retried : ε → Bool} {outcomes : ℕ → Except ε α} {calls n : ℕ} {most : ℕ∞}
    (h : (calls : ℕ∞) = min (firstSettled retried outcomes) most)
    (hn : passes retried (outcomes n) = false) : calls ≤ n + 1 := by
  have hfirst : firstSettled retried outcomes ≤ ((n + 1 : ℕ) : ℕ∞) := sInf_le ⟨n, by push_cast; rfl, hn⟩
  exact Nat.cast_le.mp ((h.trans_le (min_le_left _ _)).trans hfirst)

theorem watch_eq (retry : Retry δ) (retried : ε → Bool) (outcomes : ℕ → Except ε α) (argument : β)
    (h : 1 ≤ retry.attempts) :
    ∃ again : ℕ,
      ((again + 1 : ℕ) : ℕ∞) = min (firstSettled retried outcomes) retry.attempts.toNat ∧
      watch retry retried outcomes argument = (some (outcomes again),
        course argument (List.iterate retry.next retry.first again)) := by
  obtain ⟨left, hleft⟩ : ∃ left, retry.attempts.toNat = left + 1 :=
    Nat.exists_eq_succ_of_ne_zero (by omega)
  obtain ⟨again, hle, hall, hlast, hrun⟩ :=
    runFrom_watched retry retried argument left retry.first outcomes []
  refine ⟨again, ?_, ?_⟩
  · rw [hleft]
    exact calls_eq_min hle hall hlast
  · rw [watch, run, hleft, hrun]
    rfl

/-- What becomes of a function with given outcomes that is tried again, after a number of calls: all of them
have the one argument, there is one pause between each two of them and none after the last, whose outcome
counts; after a fault that is not to be tried again there is no other call. -/
structure Attempted (retry : Retry δ) (retried : ε → Bool) (outcomes : ℕ → Except ε α) (argument : β)
    (calls : ℕ) (outcome : Option (Except ε α)) (events : List (Event β δ)) : Prop where
  calls_eq : (calls : ℕ∞) = min (firstSettled retried outcomes) retry.attempts.toNat
  arguments : events.filterMap Event.argument? = List.replicate calls argument
  course : ∃ delays, delays.length + 1 = calls ∧ events = course argument delays
  outcome : outcome = some (outcomes (calls - 1))
  untried : ∀ n fault, outcomes n = .error fault → retried fault = false → calls ≤ n + 1

/-- **A function is called up to the first outcome that is not tried again**, at most as often as is
allowed. -/
theorem watch_attempted (retry : Retry δ) (retried : ε → Bool) (outcomes : ℕ → Except ε α)
    (argument : β) (h : 1 ≤ retry.attempts) :
    ∃ calls, Attempted retry retried outcomes argument calls
      (watch retry retried outcomes argument).1 (watch retry retried outcomes argument).2 := by
  obtain ⟨again, hcalls, hwatch⟩ := watch_eq retry retried outcomes argument h
  rw [hwatch]
  refine ⟨again + 1, hcalls, ?_, ⟨_, ?_, rfl⟩, rfl, ?_⟩
  · rw [filterMap_argument?_course, List.length_iterate]
  · rw [List.length_iterate]
  · intro n fault houtcome hfault
    exact le_of_eq_min hcalls (by rw [houtcome, passes, hfault])

/-- A service that is busy twice, and then breaks down for good. -/
def breakdown : ℕ → Except String ℕ
  | 0 | 1 => .error "busy"
  | 2 => .error "broken"
  | n + 3 => .ok n

theorem watch_attempted_breakdown :
    let retry : Retry ℕ := ⟨5, 1, 10, 8⟩
    let watched := watch retry (· == "busy") breakdown "request"
    1 ≤ retry.attempts ∧
      Attempted retry (· == "busy") breakdown "request" 3 watched.1 watched.2 ∧
      watched = (some (.error "broken"),
        [.call "request", .pause 1, .call "request", .pause 8, .call "request"]) := by
  intro retry watched
  have hattempts : 1 ≤ retry.attempts := by decide
  have hwatched : watched = (some (.error "broken"),
      [.call "request", .pause 1, .call "request", .pause 8, .call "request"]) := rfl
  obtain ⟨calls, hcalls⟩ := watch_attempted retry (· == "busy") breakdown "request" hattempts
  have hthree : calls = 3 := by
    have harguments := congrArg List.length hcalls.arguments
    rw [List.length_replicate] at harguments
    exact harguments.symm
  exact ⟨hattempts, hthree ▸ hcalls, hwatched⟩

end Lintel.Retry
