import Lintel.Files.Within
import Lintel.Proofs.Tool.Shape

/-!
# Names that tools give to files

A name with a null character has no place. `Placed` and `AllPlaced` say that there is none in the name of
a file and in the targets; then, and only then, it can be said whether a file is within the targets.

* `ends_isWithin`, `ends_isValueWithin`: when that can be said;
* `ends_keepWithin`: when an issue can be kept with its place or left out.
-/

namespace Lintel.Files

variable {view : View} {base : Path} {targets : List String} {name : String}

/-- The name has a place as seen from a directory. -/
def Placed (base : Path) (name : String) : Prop := View.hasNul (base.join (.ofString name)) = false

/-- All of the targets have a place. -/
def AllPlaced (targets : List String) : Prop := ∀ target ∈ targets, View.hasNul (.ofString target) = false

/-- The value names a file of which it can be said whether it is within the targets; where there are no
targets, that is any value. -/
def NamesFile (base : Path) (targets : List String) (file : Json) : Prop :=
  targets = [] ∨ AllPlaced targets ∧ ∃ name, file = .str name ∧ Placed base name

theorem ends_place {path : Path} : Ends (view.place path) ↔ View.hasNul path = false := by
  rw [View.place]
  cases View.hasNul path <;> simp [ends_ok, not_ends_error]

theorem escapes_place {path : Path} : Escapes (view.place path) := by
  rw [View.place]
  split_ifs
  · exact failsOnlyWith_error.mpr id
  · exact failsOnlyWith_ok _

theorem ends_resolveFrom : Ends (resolveFrom view base name) ↔ Placed base name := ends_place

theorem resolveFrom_of_placed (h : Placed base name) :
    resolveFrom view base name = .ok (view.resolve (base.join (.ofString name))) := by
  rw [resolveFrom, View.place, h]
  rfl

/-- The places of the targets. -/
def placesOf (view : View) (targets : List String) : List Place :=
  targets.map fun target => view.resolve (.ofString target)

theorem places_eq (h : AllPlaced targets) :
    (targets.mapM fun target => view.place (.ofString target)) = .ok (placesOf view targets) := by
  rw [mapM_eq_ok, placesOf, List.forall₂_map_right_iff, List.forall₂_same]
  intro target htarget
  rw [View.place, h target htarget]
  rfl

theorem ends_places :
    Ends (targets.mapM fun target => view.place (.ofString target)) ↔ AllPlaced targets := by
  simp only [ends_mapM, ends_place, AllPlaced]

theorem escapes_places : Escapes (targets.mapM fun target => view.place (.ofString target)) :=
  FailsOnlyWith.mapM fun _ _ => escapes_place

/-! ## Files within targets -/

theorem isWithin_nil : isWithin view base [] name = .ok true := rfl

theorem isWithin_eq (hall : AllPlaced targets) (hne : targets ≠ []) :
    isWithin view base targets name =
      (resolveFrom view base name).map fun place =>
        (placesOf view targets).any (·.isPrefixOf place) := by
  have hplaces : (placesOf view targets).isEmpty = false := by simpa [placesOf] using hne
  rw [isWithin, places_eq hall, ok_bind, if_neg (by simp [hplaces])]
  cases resolveFrom view base name <;> rfl

theorem ends_isWithin :
    Ends (isWithin view base targets name) ↔
      AllPlaced targets ∧ (targets = [] ∨ Placed base name) := by
  by_cases hall : AllPlaced targets
  · rcases eq_or_ne targets [] with rfl | hne
    · simp [isWithin_nil, ends_ok, hall]
    · simp [isWithin_eq hall hne, ends_map, ends_resolveFrom, hall, hne]
  · have hnot : ¬ Ends (targets.mapM fun target => view.place (.ofString target)) :=
      fun h => hall (ends_places.mp h)
    refine iff_of_false (fun h => hnot ?_) (fun h => hall h.1)
    obtain ⟨places, hplaces, _⟩ := ends_bind.mp h
    exact ⟨places, hplaces⟩

theorem escapes_isWithin : Escapes (isWithin view base targets name) := by
  refine escapes_places.bind fun places => ?_
  split_ifs
  · exact failsOnlyWith_ok _
  · exact escapes_place.bind fun place => failsOnlyWith_ok _

theorem isValueWithin_of_ne {file : Json} (h : ∀ name, file ≠ .str name) :
    isValueWithin view base targets file =
      if targets.isEmpty then .ok true else .error (.notPath file.typeName) := by
  cases file with
  | str name => exact absurd rfl (h name)
  | _ => rfl

theorem ends_isValueWithin {file : Json} :
    Ends (isValueWithin view base targets file) ↔ NamesFile base targets file := by
  rw [NamesFile]
  by_cases hname : ∃ name, file = .str name
  · obtain ⟨name, rfl⟩ := hname
    rw [isValueWithin, ends_isWithin]
    constructor
    · rintro ⟨hall, hempty | hplaced⟩
      · exact .inl hempty
      · exact .inr ⟨hall, name, rfl, hplaced⟩
    · rintro (rfl | ⟨hall, _, hname, hplaced⟩)
      · exact ⟨fun _ h => absurd h List.not_mem_nil, .inl rfl⟩
      · cases hname
        exact ⟨hall, .inr hplaced⟩
  · rw [isValueWithin_of_ne fun name h => hname ⟨name, h⟩]
    have hnot : ¬ (AllPlaced targets ∧ ∃ name, file = .str name ∧ Placed base name) :=
      fun ⟨_, name, h, _⟩ => hname ⟨name, h⟩
    cases targets <;> simp [hnot, ends_ok, not_ends_error]

theorem escapes_isValueWithin {file : Json} : Escapes (isValueWithin view base targets file) := by
  by_cases hname : ∃ name, file = .str name
  · obtain ⟨name, rfl⟩ := hname
    exact escapes_isWithin
  · rw [isValueWithin_of_ne fun name h => hname ⟨name, h⟩]
    split_ifs
    · exact failsOnlyWith_ok _
    · exact failsOnlyWith_error.mpr id

/-- Keeps something made of the place of a file, if the file is within the targets. -/
def keepWithin {α : Type} (view : View) (base : Path) (targets : List String) (name : String)
    (keep : Place → α) : Except Fault (Option α) := do
  if ← isWithin view base targets name then
    return some (keep (← resolveFrom view base name))
  else return none

theorem ends_keepWithin {α : Type} {keep : Place → α} :
    Ends (keepWithin view base targets name keep) ↔ AllPlaced targets ∧ Placed base name := by
  rw [keepWithin, ends_bind]
  constructor
  · rintro ⟨inside, hinside, hrest⟩
    obtain ⟨hall, hempty | hplaced⟩ := ends_isWithin.mp ⟨inside, hinside⟩
    · subst hempty
      cases hinside
      rw [if_pos rfl, ends_bind] at hrest
      obtain ⟨place, hplace, _⟩ := hrest
      exact ⟨hall, ends_resolveFrom.mp ⟨place, hplace⟩⟩
    · exact ⟨hall, hplaced⟩
  · rintro ⟨hall, hplaced⟩
    have hends : Ends (isWithin view base targets name) := ends_isWithin.mpr ⟨hall, .inr hplaced⟩
    obtain ⟨inside, hinside⟩ := hends
    refine ⟨inside, hinside, ?_⟩
    rw [resolveFrom_of_placed hplaced]
    split_ifs <;> exact ends_ok _

theorem escapes_keepWithin {α : Type} {keep : Place → α} :
    Escapes (keepWithin view base targets name keep) := by
  refine escapes_isWithin.bind fun inside => ?_
  split_ifs
  · exact escapes_place.bind fun place => failsOnlyWith_ok _
  · exact failsOnlyWith_ok _

end Lintel.Files
