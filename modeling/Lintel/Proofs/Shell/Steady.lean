import Lintel.Shell.World

/-!
# Steady actions

What a script prints is taken piece by piece until there is too much of it. An action is steady if that is
all that the limit and the pieces taken before have to do with it: it prints the same pieces and ends in the
same way, unless it is cut off (`Course`, `Steady`).

* `Steady.pure`, `Steady.throw`, `Steady.modify`, `Steady.get_bind`: single steps that do not print;
* `Steady.accept`: taking one more piece;
* **`Steady.bind`**, `Steady.tryCatch`: one action after another;
* `Steady.mapM`, `Steady.foldlM`, `Steady.forIn`: actions along a list.
-/

namespace Lintel.Shell

open Child (Arrival Capture)

variable {α β : Type}

/-- The world with another limit and other pieces that were taken. -/
def World.taking (world : World) (most : Int) (capture : Capture) : World :=
  { world with bounds := { world.bounds with most }, capture }

/-- What an action does if it is not cut off: the pieces that it prints, how it ends, and the world after it
apart from the limit and the pieces taken. -/
structure Course (α : Type) where
  printed : List Arrival
  result : Except Stop α
  world : World

/-- What an action does in a world. -/
abbrev Act.from (act : Act α) (world : World) : Except Stop α × World := act.run.run world

/-- The action takes this course from the world, at every limit and whatever was taken before: the pieces are
taken, or it is cut off. -/
structure Act.Takes (act : Act α) (world : World) (course : Course α) : Prop where
  through : ∀ most capture taken, course.printed.foldlM (Capture.accept most) capture = some taken →
    act.from (world.taking most capture) = (course.result, course.world.taking most taken)
  cut : ∀ most capture, course.printed.foldlM (Capture.accept most) capture = none →
    (act.from (world.taking most capture)).1 = .error .flood

/-- From every world, the action takes one course at all limits. -/
def Steady (act : Act α) : Prop := ∀ world, ∃ course, act.Takes world course

namespace Steady

/-! ## Single steps -/

theorem of_quiet {act : Act α}
    (h : ∀ world : World, ∃ result after, ∀ most capture,
      act.from (world.taking most capture) = (result, World.taking after most capture)) :
    Steady act := by
  intro world
  obtain ⟨result, after, hquiet⟩ := h world
  refine ⟨⟨[], result, after⟩, fun most capture taken htaken => ?_, fun _ _ hnone => nomatch hnone⟩
  obtain rfl : capture = taken := Option.some.inj htaken
  exact hquiet most capture

theorem pure (a : α) : Steady (pure a) := of_quiet fun world => ⟨.ok a, world, fun _ _ => rfl⟩

theorem throw (stop : Stop) : Steady (throw stop : Act α) :=
  of_quiet fun world => ⟨.error stop, world, fun _ _ => rfl⟩

theorem modify {change : World → World}
    (h : ∀ world most capture, change (World.taking world most capture) =
      (change world).taking most capture) : Steady (modify change : Act PUnit) :=
  of_quiet fun world => ⟨.ok ⟨⟩, change world, fun most capture =>
    congrArg (Prod.mk _) (h world most capture)⟩

theorem modifyScope (change : Scope → Scope) : Steady (modifyScope change) :=
  modify fun _ _ _ => rfl

/-- Going on with the world, if nothing is made of the limit and the pieces taken. -/
theorem get_bind {next : World → Act β}
    (h : ∀ world most capture, next (World.taking world most capture) = next world)
    (hnext : ∀ world, Steady (next world)) : Steady (get >>= next) := by
  intro world
  obtain ⟨course, hcourse⟩ := hnext world world
  have hfrom : ∀ most capture, Act.from (get >>= next) (world.taking most capture) =
      (next world).from (world.taking most capture) := by
    intro most capture
    change (next (world.taking most capture)).from _ = _
    rw [h]
  refine ⟨course, fun most capture taken htaken => ?_, fun most capture hnone => ?_⟩
  · exact (hfrom most capture).trans (hcourse.through most capture taken htaken)
  · exact (congrArg Prod.fst (hfrom most capture)).trans (hcourse.cut most capture hnone)

theorem get_set {change : World → World} {value : World → α}
    (h : ∀ world most capture, change (World.taking world most capture) =
      (change world).taking most capture)
    (hvalue : ∀ world most capture, value (World.taking world most capture) = value world) :
    Steady (do let world ← get; set (change world); return value world : Act α) := by
  refine of_quiet fun world => ⟨.ok (value world), change world, fun most capture => ?_⟩
  change (Except.ok (value (world.taking most capture)), change (world.taking most capture)) = _
  rw [h, hvalue]

/-- Taking one more piece, or being cut off. -/
theorem accept (arrival : Arrival) :
    Steady (do
      let world ← get
      match world.capture.accept world.bounds.most arrival with
      | some capture => set { world with capture }
      | none => MonadExcept.throw .flood : Act PUnit) := by
  intro world
  refine ⟨⟨[arrival], .ok PUnit.unit, world⟩, fun most capture taken htaken => ?_,
    fun most capture hnone => ?_⟩
  · have haccept : capture.accept most arrival = some taken := by simpa using htaken
    change Act.from (match capture.accept most arrival with
      | some capture => set { world.taking most capture with capture }
      | none => MonadExcept.throw .flood) _ = _
    rw [haccept]
    rfl
  · have haccept : capture.accept most arrival = none := by simpa using hnone
    change (Act.from (match capture.accept most arrival with
      | some capture => set { world.taking most capture with capture }
      | none => MonadExcept.throw .flood) _).1 = _
    rw [haccept]
    rfl

/-! ## One action after another -/

theorem of_follows {first : Act α} {next both : Act β} {world : World} {course : Course α}
    (hfirst : first.Takes world course) (hnext : Steady next)
    (hgo : ∀ before after, first.from before = (course.result, after) →
      both.from before = next.from after)
    (hcut : ∀ before, (first.from before).1 = .error .flood → (both.from before).1 = .error .flood) :
    ∃ course, both.Takes world course := by
  obtain ⟨⟨more, result, last⟩, hsecond⟩ := hnext course.world
  refine ⟨⟨course.printed ++ more, result, last⟩, fun most capture taken htaken => ?_,
    fun most capture hnone => ?_⟩
  · rw [List.foldlM_append] at htaken
    obtain ⟨middle, hmiddle, hrest⟩ := Option.bind_eq_some_iff.mp htaken
    rw [hgo _ _ (hfirst.through most capture middle hmiddle)]
    exact hsecond.through most middle taken hrest
  · rw [List.foldlM_append] at hnone
    cases hmiddle : course.printed.foldlM (Capture.accept most) capture with
    | none => exact hcut _ (hfirst.cut most capture hmiddle)
    | some middle =>
      rw [hmiddle] at hnone
      rw [hgo _ _ (hfirst.through most capture middle hmiddle)]
      exact hsecond.cut most middle hnone

theorem from_bind (act : Act α) (next : α → Act β) (world : World) :
    Act.from (act >>= next) world = match act.from world with
      | (.ok a, after) => (next a).from after
      | (.error stop, after) => (.error stop, after) := by
  unfold Act.from
  rw [ExceptT.run_bind, StateT.run_bind]
  cases act.run.run world with
  | mk result after => cases result <;> rfl

/-- **Steady actions one after another.** -/
theorem bind {act : Act α} {next : α → Act β} (hact : Steady act) (hnext : ∀ a, Steady (next a)) :
    Steady (act >>= next) := by
  intro world
  obtain ⟨⟨printed, result, after⟩, hcourse⟩ := hact world
  have hcut : ∀ before, (act.from before).1 = .error .flood →
      (Act.from (act >>= next) before).1 = .error .flood := by
    intro before h
    rw [from_bind]
    rcases hrun : act.from before with ⟨_ | _, after⟩ <;> simp_all
  cases result with
  | error stop =>
    refine of_follows hcourse (throw stop) (fun before after h => ?_) hcut
    rw [from_bind, h]
    rfl
  | ok a =>
    refine of_follows hcourse (hnext a) (fun before after h => ?_) hcut
    rw [from_bind, h]

theorem from_tryCatch (act : Act α) (handle : Stop → Act α) (world : World) :
    Act.from (tryCatch act handle) world = match act.from world with
      | (.ok a, after) => (.ok a, after)
      | (.error stop, after) => (handle stop).from after := by
  unfold Act.from
  rw [ExceptT.run_tryCatch, StateT.run_bind]
  cases act.run.run world with
  | mk result after => cases result <;> rfl

/-- Steady actions, one of which takes over where the other stops, but not if it was cut off. -/
theorem tryCatch {act : Act α} {handle : Stop → Act α} (hact : Steady act)
    (hhandle : ∀ stop, Steady (handle stop)) (hflood : handle .flood = MonadExcept.throw .flood) :
    Steady (tryCatch act handle) := by
  intro world
  obtain ⟨⟨printed, result, after⟩, hcourse⟩ := hact world
  have hcut : ∀ before, (act.from before).1 = .error .flood →
      (Act.from (MonadExcept.tryCatch act handle) before).1 = .error .flood := by
    intro before h
    rw [from_tryCatch]
    rcases hrun : act.from before with ⟨stop | a, after⟩
    · rw [hrun] at h
      obtain rfl : stop = .flood := Except.error.inj h
      change ((handle .flood).from after).1 = .error .flood
      rw [hflood]
      rfl
    · simp_all
  cases result with
  | ok a =>
    refine of_follows hcourse (pure a) (fun before after h => ?_) hcut
    rw [from_tryCatch, h]
    rfl
  | error stop =>
    refine of_follows hcourse (hhandle stop) (fun before after h => ?_) hcut
    rw [from_tryCatch, h]

/-! ## Along lists -/

theorem foldlM {step : β → α → Act β} (hstep : ∀ b a, Steady (step b a)) (b : β) (as : List α) :
    Steady (as.foldlM step b) := by
  induction as generalizing b with
  | nil => exact pure b
  | cons a as ih =>
    rw [List.foldlM_cons]
    exact (hstep b a).bind ih

theorem mapM {step : α → Act β} (hstep : ∀ a, Steady (step a)) (as : List α) :
    Steady (as.mapM step) := by
  induction as with
  | nil => exact pure []
  | cons a as ih =>
    rw [List.mapM_cons]
    exact (hstep a).bind fun b => ih.bind fun bs => pure _

theorem forM {step : α → Act PUnit} (hstep : ∀ a, Steady (step a)) (as : List α) :
    Steady (as.forM step) := by
  induction as with
  | nil => exact pure PUnit.unit
  | cons a as ih => exact (hstep a).bind fun _ => ih

theorem forIn {step : α → β → Act (ForInStep β)} (hstep : ∀ a b, Steady (step a b)) (as : List α)
    (b : β) : Steady (forIn as b step) := by
  induction as generalizing b with
  | nil => exact pure b
  | cons a as ih =>
    rw [List.forIn_cons]
    refine (hstep a b).bind fun next => ?_
    cases next with
    | done b => exact pure b
    | yield b => exact ih b

end Steady

end Lintel.Shell
