import Lintel.Proofs.Files.Inside
import Mathlib.Data.List.Nodup

/-!
# Sound file trees

A file tree is kept as a list of places with what stands there. It is sound if no place stands in it twice
and the components of all places are names, as it is with every tree that is put together file by file.

* `Sound.empty`, `Sound.put`: trees are sound from the beginning and stay so;
* **`Sound.nodup_list`**, `Sound.isName_list`: a directory has no name twice, and nothing else than names.
-/

namespace Lintel.Files

variable {files : Files} {place : Place} {entry : Entry} {name : String}

/-- No place stands in the tree twice, and the components of its places are names. -/
structure Sound (files : Files) : Prop where
  once : (files.entries.map (·.1)).Nodup
  normal : ∀ e ∈ files.entries, IsNormal e.1

namespace Sound

theorem empty : Files.empty.Sound := ⟨List.nodup_nil, fun _ h => absurd h List.not_mem_nil⟩

theorem filter (h : files.Sound) (p : Place × Entry → Bool) : Sound ⟨files.entries.filter p⟩ :=
  ⟨(List.filter_sublist.map _).nodup h.once, fun e he => h.normal e (List.mem_filter.mp he).1⟩

theorem set (h : files.Sound) (hplace : IsNormal place) : (files.set place entry).Sound := by
  have hrest := h.filter (·.1 != place)
  constructor
  · unfold Files.set
    rw [List.map_append, List.nodup_append']
    refine ⟨hrest.once, List.nodup_singleton _, ?_⟩
    rw [List.map_singleton, List.disjoint_singleton]
    simp
  · intro e he
    rcases List.mem_append.mp he with he | he
    · exact hrest.normal e he
    · rw [List.mem_singleton.mp he]
      exact hplace

theorem addDir (h : files.Sound) (hplace : IsNormal place) : (files.addDir place).Sound := by
  unfold Files.addDir
  cases files.entry? place with
  | some _ => exact h
  | none => exact h.set hplace

/-- The tree stays sound when something is written. -/
theorem put (h : files.Sound) (hplace : IsNormal place) : (files.put place entry).Sound := by
  unfold Files.put
  refine Sound.set ?_ hplace
  suffices hdirs : ∀ above : List Place, (∀ p ∈ above, IsNormal p) →
      (above.foldl Files.addDir files).Sound by
    refine hdirs _ fun p hp => ?_
    obtain ⟨n, -, rfl⟩ := List.mem_map.mp hp
    exact fun part hpart => hplace part (List.mem_of_mem_take hpart)
  intro above habove
  induction above generalizing files with
  | nil => exact h
  | cons p above ih =>
    obtain ⟨hp, habove⟩ := List.forall_mem_cons.mp habove
    exact ih (h.addDir hp) habove

end Sound

/-! ## Listings -/

/-- The name of a place in a directory. -/
def childName? (directory place : Place) : Option String :=
  if directory.isPrefixOf place && directory.length < place.length then
    match place.drop directory.length with
    | [name] => some name
    | _ => none
  else none

theorem childName?_eq_some {directory : Place} :
    childName? directory place = some name ↔ place = directory ++ [name] := by
  unfold childName?
  constructor
  · intro h
    split_ifs at h with hbelow
    obtain ⟨rest, rfl⟩ := List.isPrefixOf_iff_prefix.mp (Bool.and_eq_true_iff.mp hbelow).1
    rw [List.drop_left] at h
    split at h
    · exact Option.some.inj h ▸ rfl
    · cases h
  · rintro rfl
    simp

theorem map_fst_list_perm (files : Files) (directory : Place) :
    ((files.list directory).map (·.1)).Perm
      ((files.entries.map (·.1)).filterMap (childName? directory)) := by
  unfold list
  refine ((List.mergeSort_perm _ _).map _).trans (List.Perm.of_eq ?_)
  unfold below
  rw [List.filterMap_filterMap, List.map_filterMap, List.filterMap_map]
  refine List.filterMap_congr fun e _ => ?_
  obtain ⟨place, entry⟩ := e
  simp only [Function.comp_apply, childName?]
  by_cases hbelow : (directory.isPrefixOf place && decide (directory.length < place.length)) = true
  · simp only [hbelow, if_true, Option.bind_some]
    rcases place.drop directory.length with _ | ⟨name, _ | ⟨second, rest⟩⟩ <;> rfl
  · simp only [hbelow]
    rfl

/-- **A directory has no name twice.** -/
theorem Sound.nodup_list (h : files.Sound) (directory : Place) :
    ((files.list directory).map (·.1)).Nodup := by
  rw [(map_fst_list_perm files directory).nodup_iff]
  refine h.once.filterMap fun a b name ha hb => ?_
  rw [childName?_eq_some.mp ha, childName?_eq_some.mp hb]

/-- What a directory has are names. -/
theorem Sound.isName_list (h : files.Sound) {directory : Place} {name : String}
    (hname : name ∈ (files.list directory).map (·.1)) : IsName name := by
  obtain ⟨place, hplace, hchild⟩ :=
    List.mem_filterMap.mp ((map_fst_list_perm files directory).mem_iff.mp hname)
  obtain ⟨e, he, rfl⟩ := List.mem_map.mp hplace
  have hnormal := h.normal e he
  rw [childName?_eq_some.mp hchild] at hnormal
  exact hnormal name (by simp)

end Lintel.Files
