import Lintel.Proofs.Retry.Attempts
import Mathlib.Algebra.Order.Ring.Defs
import Mathlib.Algebra.Order.Ring.Rat

/-!
# Delays

Delays are multiplied by a factor of at least one, exactly, and cut to a greatest delay; but the first one is
taken as it is. So the delays of a call are bounded, and never get shorter, if the first one is not too
long.

* `iterate_next`: the delays from one on that is not too long;
* **`delays_bounded_iff`**: when the delays of a call are bounded, and when they never get shorter;
  `not_forall_delays_le`: they need not be.
-/

namespace Lintel.Retry

variable {β ε α K : Type} [Semiring K] [LinearOrder K]

/-- The delays of the pauses. -/
def delaysOf (events : List (Event β K)) : List K := events.filterMap Event.delay?

theorem next_le_most (retry : Retry K) (delay : K) : retry.next delay ≤ retry.most := by
  rw [next]
  split_ifs with hmost
  · exact le_refl _
  · exact not_lt.mp hmost

theorem exists_delaysOf_watch (retry : Retry K) (retried : ε → Bool) (outcomes : ℕ → Except ε α)
    (argument : β) : ∃ pauses, delaysOf (watch retry retried outcomes argument).2 =
      List.iterate retry.next retry.first pauses := by
  rcases le_or_gt 1 retry.attempts with hattempts | hattempts
  · obtain ⟨again, -, hwatch⟩ := watch_eq retry retried outcomes argument hattempts
    exact ⟨again, by rw [hwatch, delaysOf, filterMap_delay?_course]⟩
  · refine ⟨0, ?_⟩
    have hnone : retry.attempts.toNat = 0 := by omega
    rw [watch, run, hnone]
    rfl

theorem not_pairwise_iterate_next {retry : Retry K} {pauses : ℕ} {delay : K}
    (hmost : retry.most < delay) (hpauses : 2 ≤ pauses) :
    ¬ (List.iterate retry.next delay pauses).Pairwise (· ≤ ·) := by
  obtain ⟨more, rfl⟩ := Nat.exists_eq_add_of_le hpauses
  rw [Nat.add_comm, List.iterate, List.iterate, List.pairwise_cons]
  rintro ⟨hfirst, -⟩
  have hnext := (hfirst _ List.mem_cons_self).trans (next_le_most retry delay)
  exact not_lt.mpr hnext hmost

theorem le_most_of_mem_tail {retry : Retry K} {pauses : ℕ} {delay d : K}
    (hd : d ∈ (List.iterate retry.next delay pauses).tail) : d ≤ retry.most := by
  cases pauses with
  | zero => exact absurd hd List.not_mem_nil
  | succ pauses =>
    obtain ⟨n, -, rfl⟩ := List.mem_iterate.mp hd
    rw [← Function.iterate_succ_apply, Function.iterate_succ_apply']
    exact next_le_most retry _

variable [IsOrderedRing K]

theorem le_next {retry : Retry K} {delay : K} (hfactor : 1 ≤ retry.factor) (hdelay : 0 ≤ delay)
    (hmost : delay ≤ retry.most) : delay ≤ retry.next delay := by
  rw [next]
  split_ifs
  · exact hmost
  · exact le_mul_of_one_le_right hdelay hfactor

/-- **From a delay on that is not too long**, all are at least as long, none is too long, and none is
shorter than one before it. -/
theorem iterate_next {retry : Retry K} (hfactor : 1 ≤ retry.factor) (pauses : ℕ) {delay : K}
    (hdelay : 0 ≤ delay) (hmost : delay ≤ retry.most) :
    (∀ d ∈ List.iterate retry.next delay pauses, delay ≤ d ∧ d ≤ retry.most) ∧
      (List.iterate retry.next delay pauses).Pairwise (· ≤ ·) := by
  induction pauses generalizing delay with
  | zero => exact ⟨fun _ hd => absurd hd List.not_mem_nil, .nil⟩
  | succ pauses ih =>
    have hnext := le_next hfactor hdelay hmost
    obtain ⟨hrange, hsorted⟩ := ih (hdelay.trans hnext) (next_le_most retry delay)
    rw [List.iterate, List.forall_mem_cons, List.pairwise_cons]
    exact ⟨⟨⟨le_refl _, hmost⟩, fun d hd => ⟨hnext.trans (hrange d hd).1, (hrange d hd).2⟩⟩,
      fun d hd => hnext.trans (hrange d hd).1, hsorted⟩

/-- **The delays of a call are bounded, and never get shorter**, if the first one is not too long; otherwise
they are bounded only if there is no pause, and never get shorter only if there is at most one. All delays
but the first are bounded anyway. -/
theorem delays_bounded_iff (retry : Retry K) (retried : ε → Bool) (outcomes : ℕ → Except ε α)
    (argument : β) (hfirst : 0 ≤ retry.first) (hfactor : 1 ≤ retry.factor) :
    let delays := delaysOf (watch retry retried outcomes argument).2
    ((∀ d ∈ delays, d ≤ retry.most) ↔ retry.first ≤ retry.most ∨ delays = []) ∧
    (delays.Pairwise (· ≤ ·) ↔ retry.first ≤ retry.most ∨ delays.length ≤ 1) ∧
    ∀ d ∈ delays.tail, d ≤ retry.most := by
  intro delays
  obtain ⟨pauses, hdelays⟩ : ∃ pauses, delays = List.iterate retry.next retry.first pauses :=
    exists_delaysOf_watch retry retried outcomes argument
  rw [hdelays, List.length_iterate, List.iterate_eq_nil]
  refine ⟨⟨fun hbounded => ?_, ?_⟩, ⟨fun hsorted => ?_, ?_⟩, fun d hd => le_most_of_mem_tail hd⟩
  · cases pauses with
    | zero => exact .inr rfl
    | succ pauses => exact .inl (hbounded retry.first List.mem_cons_self)
  · rintro (hmost | rfl)
    · exact fun d hd => ((iterate_next hfactor pauses hfirst hmost).1 d hd).2
    · exact fun d hd => absurd hd List.not_mem_nil
  · by_contra hnot
    rw [not_or, not_le, not_le] at hnot
    exact not_pairwise_iterate_next hnot.1 hnot.2 hsorted
  · rintro (hmost | hone)
    · exact (iterate_next hfactor pauses hfirst hmost).2
    · obtain rfl | rfl : pauses = 0 ∨ pauses = 1 := by omega
      · exact .nil
      · exact List.pairwise_singleton _ _

/-- A first delay of sixty seconds where thirty are the most. -/
def hasty : Retry ℚ := ⟨3, 60, 2, 30⟩

/-- The delays of a call that always fails. -/
def hastyDelays : List ℚ :=
  delaysOf (watch hasty (fun _ => true) (fun _ => (.error () : Except Unit Unit)) ()).2

theorem hastyDelays_eq : hastyDelays = [60, 30] := by decide +kernel

theorem delays_bounded_iff_hasty :
    0 ≤ hasty.first ∧ 1 ≤ hasty.factor ∧ ¬ (∀ d ∈ hastyDelays, d ≤ hasty.most) ∧
      ¬ hastyDelays.Pairwise (· ≤ ·) ∧ ∀ d ∈ hastyDelays.tail, d ≤ hasty.most := by
  have hfirst : 0 ≤ hasty.first := by decide +kernel
  have hfactor : 1 ≤ hasty.factor := by decide +kernel
  have hlong : ¬ hasty.first ≤ hasty.most := by decide +kernel
  obtain ⟨hbounded, hsorted, htail⟩ := delays_bounded_iff hasty (fun _ => true)
    (fun _ => (.error () : Except Unit Unit)) () hfirst hfactor
  refine ⟨hfirst, hfactor, fun h => ?_, fun h => ?_, htail⟩
  · exact (hbounded.mp h).elim hlong fun hnil =>
      List.cons_ne_nil _ _ (hastyDelays_eq.symm.trans hnil)
  · refine (hsorted.mp h).elim hlong fun hone => ?_
    have htwo : hastyDelays.length = 2 := congrArg List.length hastyDelays_eq
    exact absurd (htwo.symm.trans_le hone) (by decide)

/-- **Not every delay is bounded**, and delays may get shorter. -/
theorem not_forall_delays_le :
    ¬ ∀ (retry : Retry ℚ) (retried : Unit → Bool) (outcomes : ℕ → Except Unit Unit),
      0 ≤ retry.first → 1 ≤ retry.factor → 0 ≤ retry.most → 1 ≤ retry.attempts →
        let delays := delaysOf (watch retry retried outcomes ()).2
        (∀ d ∈ delays, d ≤ retry.most) ∧ delays.Pairwise (· ≤ ·) := by
  intro hall
  have hhasty : ∀ d ∈ hastyDelays, d ≤ hasty.most :=
    (hall hasty (fun _ => true) (fun _ => .error ()) (by decide +kernel) (by decide +kernel)
      (by decide +kernel) (by decide)).1
  rw [hastyDelays_eq] at hhasty
  exact absurd (hhasty 60 List.mem_cons_self) (by decide +kernel)

end Lintel.Retry
