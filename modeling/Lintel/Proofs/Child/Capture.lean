import Lintel.Child.Capture
import Mathlib.Algebra.Group.Basic
import Mathlib.Algebra.Group.Nat.Defs
import Mathlib.Data.Int.Notation
import Mathlib.Data.Nat.Notation
import Mathlib.Tactic.Common

/-!
# What is captured

The pieces of two streams arrive in one row, those of each stream in their order (`Interleaved`). In whatever
row they arrive, they are too long exactly if there are too many bytes in both streams together, and else each
stream is put together as it was printed.

* `accept_eq_none`, `of_accept`: one more piece;
* `foldlM_accept_eq_none`, `of_foldlM_accept`: a row of pieces;
* **`collect_eq_none`**, **`bytes_of_collect`**: two streams in one row.
-/

namespace Lintel.Child

open Text (Bytes)

variable {outs errs : List Bytes} {arrivals : List Arrival} {most : ℤ}

/-- The pieces of two streams in one row, in which those of each stream keep their order. -/
inductive Interleaved : List Bytes → List Bytes → List Arrival → Prop
  | nil : Interleaved [] [] []
  | out (bytes : Bytes) {outs errs : List Bytes} {arrivals : List Arrival} :
    Interleaved outs errs arrivals → Interleaved (bytes :: outs) errs (⟨.out, bytes⟩ :: arrivals)
  | err (bytes : Bytes) {outs errs : List Bytes} {arrivals : List Arrival} :
    Interleaved outs errs arrivals → Interleaved outs (bytes :: errs) (⟨.err, bytes⟩ :: arrivals)

theorem exists_interleaved (arrivals : List Arrival) : ∃ outs errs, Interleaved outs errs arrivals := by
  induction arrivals with
  | nil => exact ⟨[], [], .nil⟩
  | cons arrival arrivals ih =>
    obtain ⟨outs, errs, h⟩ := ih
    obtain ⟨_ | _, bytes⟩ := arrival
    · exact ⟨bytes :: outs, errs, h.out bytes⟩
    · exact ⟨outs, bytes :: errs, h.err bytes⟩

/-- The bytes of a stream in a row of pieces. -/
def sent (arrivals : List Arrival) (stream : Stream) : Bytes :=
  arrivals.flatMap fun arrival => if arrival.stream = stream then arrival.bytes else []

theorem sent_cons (arrival : Arrival) (arrivals : List Arrival) (stream : Stream) :
    sent (arrival :: arrivals) stream =
      (if arrival.stream = stream then arrival.bytes else []) ++ sent arrivals stream := rfl

/-- There are more bytes in the two streams than the limit allows; no output is never too much. -/
def Exceeds (most : ℤ) (outs errs : List Bytes) : Prop :=
  0 < outs.flatten.length + errs.flatten.length ∧
    most < (outs.flatten.length + errs.flatten.length : ℕ)

instance (most : ℤ) (outs errs : List Bytes) : Decidable (Exceeds most outs errs) :=
  inferInstanceAs (Decidable (_ ∧ _))

namespace Interleaved

theorem sent_out (h : Interleaved outs errs arrivals) : sent arrivals .out = outs.flatten := by
  induction h with
  | nil => rfl
  | out bytes _ ih => rw [sent_cons, ih]; rfl
  | err bytes _ ih => rw [sent_cons, ih]; rfl

theorem sent_err (h : Interleaved outs errs arrivals) : sent arrivals .err = errs.flatten := by
  induction h with
  | nil => rfl
  | out bytes _ ih => rw [sent_cons, ih]; rfl
  | err bytes _ ih => rw [sent_cons, ih]; rfl

theorem length_eq (h : Interleaved outs errs arrivals) :
    (arrivals.flatMap (·.bytes)).length = outs.flatten.length + errs.flatten.length := by
  induction h with
  | nil => rfl
  | out bytes _ ih =>
    rw [List.flatMap_cons, List.length_append, ih, List.flatten_cons, List.length_append, add_assoc]
  | err bytes _ ih =>
    rw [List.flatMap_cons, List.length_append, ih, List.flatten_cons, List.length_append, add_left_comm]

end Interleaved

namespace Capture

/-! ## One piece -/

theorem used_add (capture : Capture) (arrival : Arrival) :
    (capture.add arrival).used = capture.used + arrival.bytes.length := by
  obtain ⟨_ | _, bytes⟩ := arrival <;> rfl

theorem bytes_add (capture : Capture) (arrival : Arrival) (stream : Stream) :
    (capture.add arrival).bytes stream =
      capture.bytes stream ++ if arrival.stream = stream then arrival.bytes else [] := by
  obtain ⟨_ | _, piece⟩ := arrival <;> cases stream <;> simp [add, bytes, pieces]

theorem accept_eq_none {capture : Capture} {arrival : Arrival} : capture.accept most arrival = none ↔
    0 < arrival.bytes.length ∧ most < (capture.used + arrival.bytes.length : ℕ) := by
  unfold accept
  dsimp only
  rw [List.length_pos_iff, ← used_add]
  split_ifs with hempty hmore
  · simp [List.isEmpty_iff.mp hempty]
  · simp_all
  · simp [hmore]

theorem of_accept {capture taken : Capture} {arrival : Arrival}
    (h : capture.accept most arrival = some taken) :
    taken.used = capture.used + arrival.bytes.length ∧ ∀ stream, taken.bytes stream =
      capture.bytes stream ++ if arrival.stream = stream then arrival.bytes else [] := by
  unfold accept at h
  dsimp only at h
  split_ifs at h with hempty
  · obtain rfl := Option.some.inj h
    simp [List.isEmpty_iff.mp hempty]
  · obtain rfl := Option.some.inj h
    exact ⟨used_add capture arrival, bytes_add capture arrival⟩

/-! ## Rows of pieces -/

/-- **A row of pieces is too long** exactly if there are bytes in it and they are too many together with those
before. -/
theorem foldlM_accept_eq_none (capture : Capture) (arrivals : List Arrival) :
    arrivals.foldlM (accept most) capture = none ↔
      0 < (arrivals.flatMap (·.bytes)).length ∧
        most < (capture.used + (arrivals.flatMap (·.bytes)).length : ℕ) := by
  induction arrivals generalizing capture with
  | nil => simp
  | cons arrival arrivals ih =>
    rw [List.foldlM_cons, List.flatMap_cons, List.length_append]
    cases haccept : capture.accept most arrival with
    | none =>
      obtain ⟨hbytes, hmore⟩ := accept_eq_none.mp haccept
      refine iff_of_true rfl ⟨by omega, by omega⟩
    | some taken =>
      have hfits : ¬ (0 < arrival.bytes.length ∧
          most < (capture.used + arrival.bytes.length : ℕ)) := by
        rw [← accept_eq_none, haccept]
        exact Option.some_ne_none taken
      refine (ih taken).trans ?_
      rw [(of_accept haccept).1]
      omega

theorem of_foldlM_accept {capture taken : Capture}
    (h : arrivals.foldlM (accept most) capture = some taken) (stream : Stream) :
    taken.bytes stream = capture.bytes stream ++ sent arrivals stream := by
  induction arrivals generalizing capture with
  | nil =>
    obtain rfl := Option.some.inj h
    exact (List.append_nil _).symm
  | cons arrival arrivals ih =>
    rw [List.foldlM_cons] at h
    obtain ⟨middle, hmiddle, hrest⟩ := Option.bind_eq_some_iff.mp h
    rw [ih hrest, (of_accept hmiddle).2, sent_cons, List.append_assoc]

/-! ## Two streams -/

/-- **Two streams are too long** exactly if something is printed and there are too many bytes in both together,
in whatever row their pieces arrive. -/
theorem collect_eq_none (h : Interleaved outs errs arrivals) :
    collect most arrivals = none ↔ Exceeds most outs errs := by
  unfold collect Exceeds
  rw [foldlM_accept_eq_none, h.length_eq]
  simp

/-- **What is captured of two streams** is what was printed to each of them. -/
theorem bytes_of_collect {capture : Capture} (h : Interleaved outs errs arrivals)
    (hcollect : collect most arrivals = some capture) :
    capture.bytes .out = outs.flatten ∧ capture.bytes .err = errs.flatten := by
  rw [of_foldlM_accept hcollect, of_foldlM_accept hcollect, h.sent_out, h.sent_err]
  exact ⟨rfl, rfl⟩

end Capture

end Lintel.Child
