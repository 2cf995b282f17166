import Lintel.Files.Glob
import Lintel.Proofs.Check.Targets

/-!
# What is below a path

* `OnDisk`: trees of directories and files;
* `locate_beneath`: a path below another one is looked up from what stands there;
* **`mem_below_iff`**, `nodup_below`: what is below a path, by what is found at the paths below it;
* `readText_eq_iff`: what is read at a path, by the file that stands there.
-/

namespace Lintel.Files

open Glob (beneath)

variable {view : View} {path : Path} {parts : List String} {found : Place} {entry : Entry}

/-- The tree is one of directories and files, as a disk can hold it. -/
structure OnDisk (files : Files) : Prop where
  sound : files.Sound
  storable : files.Storable
  nested : files.Nested

/-! ## Paths below -/

theorem locate_beneath (view : View) (path : Path) (parts : List String) :
    view.locate (beneath path parts) =
      (view.locate path).bind fun at_ => view.files.locateFrom at_.1 parts :=
  locateFrom_append _ _ _ _

theorem exists_dir_of_locate_beneath (hne : parts ≠ [])
    (h : view.locate (beneath path parts) = .ok (found, entry)) :
    ∃ place, view.locate path = .ok (place, .dir) ∧
      view.files.locateFrom place parts = .ok (found, entry) := by
  rw [locate_beneath] at h
  cases hpath : view.locate path with
  | error refusal =>
    rw [hpath] at h
    cases h
  | ok at_ =>
    obtain ⟨place, standing⟩ := at_
    rw [hpath] at h
    have hrest : view.files.locateFrom place parts = .ok (found, entry) := h
    obtain ⟨part, rest, rfl⟩ := List.exists_cons_of_ne_nil hne
    have hstanding : view.files.entry? place = some standing := entry?_of_locateFrom hpath
    cases standing with
    | dir => exact ⟨place, rfl, hrest⟩
    | file content rules =>
      rw [locateFrom, hstanding] at hrest
      cases hrest

/-- **What is below a path** is what is found at the paths below it. -/
theorem mem_below_iff (h : view.files.OnDisk) : (parts, entry) ∈ view.below path ↔
    parts ≠ [] ∧ IsNormal parts ∧ ∃ place, view.locate (beneath path parts) = .ok (place, entry) := by
  obtain ⟨hsound, hstorable, hnested⟩ := h
  constructor
  · intro h
    unfold View.below at h
    split at h
    · next place hpath =>
      obtain ⟨hne, hmem⟩ := mem_below.mp h
      have hnormal : IsNormal parts := fun part hpart =>
        hsound.normal _ hmem part (List.mem_append_right place hpart)
      have hdots : ".." ∉ parts := fun hmem => (hnormal _ hmem).2.2.1 rfl
      have hentry := (entry?_eq_some_iff hsound (by simp [hne])).mpr hmem
      refine ⟨hne, hnormal, place ++ parts, ?_⟩
      rw [locate_beneath, hpath]
      exact (locateFrom_eq_ok_iff hstorable hnested hdots).mpr ⟨rfl, hentry⟩
    · exact absurd h List.not_mem_nil
  · rintro ⟨hne, hnormal, found, hfound⟩
    obtain ⟨place, hpath, hrest⟩ := exists_dir_of_locate_beneath hne hfound
    have hdots : ".." ∉ parts := fun hmem => (hnormal _ hmem).2.2.1 rfl
    obtain ⟨rfl, hentry⟩ := (locateFrom_eq_ok_iff hstorable hnested hdots).mp hrest
    unfold View.below
    rw [hpath]
    exact mem_below.mpr ⟨hne, (entry?_eq_some_iff hsound (by simp [hne])).mp hentry⟩

theorem nodup_below (hsound : view.files.Sound) (path : Path) :
    ((view.below path).map (·.1)).Nodup := by
  unfold View.below
  split
  · next place _ =>
    refine List.Nodup.of_map (place ++ ·) ?_
    have hplaces : ((view.files.below place).map fun e => place ++ e.1).Sublist
        (view.files.entries.map (·.1)) := by
      unfold below
      rw [List.map_filterMap]
      refine Policy.filterMap_sublist_map (fun e at_ he => ?_) _
      obtain ⟨below, hbelow, rfl⟩ := Option.map_eq_some_iff.mp he
      simp only [Option.ite_none_right_eq_some, Option.some.injEq] at hbelow
      obtain ⟨hstart, rfl⟩ := hbelow
      obtain ⟨rest, hrest⟩ := List.isPrefixOf_iff_prefix.mp (Bool.and_eq_true_iff.mp hstart).1
      rw [← hrest, List.drop_left]
    rw [List.map_map]
    exact hplaces.nodup hsound.once
  · exact List.nodup_nil

/-! ## Texts -/

/-- The fault is that bytes are no text. -/
def IsUndecodable (fault : Fault) : Prop := ∃ flaw, fault = .undecodable flaw

theorem failsOnlyWith_textOf (content : Text.Bytes) : FailsOnlyWith IsUndecodable (View.textOf content) := by
  unfold View.textOf
  split
  · exact failsOnlyWith_ok _
  · exact failsOnlyWith_error.mpr ⟨_, rfl⟩

theorem readText_of_not_isFile (h : view.isFile path = false) :
    ∃ fault, view.readText path = .error fault ∧ ¬ IsUndecodable fault := by
  unfold View.readText View.readBytes
  split_ifs
  · exact ⟨_, rfl, fun ⟨_, hflaw⟩ => nomatch hflaw⟩
  · cases hpath : view.locate path with
    | error refusal => exact ⟨_, rfl, fun ⟨_, hflaw⟩ => nomatch hflaw⟩
    | ok at_ =>
      obtain ⟨place, _ | ⟨content, rules⟩⟩ := at_
      · exact ⟨_, rfl, fun ⟨_, hflaw⟩ => nomatch hflaw⟩
      · simp [View.isFile, hpath] at h

/-- **What is read at a path**, a text or bytes that are none, is what the file there holds. -/
theorem readText_eq_iff (hstorable : view.files.Storable) {outcome : Except Fault String}
    (hread : FailsOnlyWith IsUndecodable outcome) :
    view.readText path = outcome ↔ ∃ place content rules,
      view.locate path = .ok (place, .file content rules) ∧ View.textOf content = outcome := by
  constructor
  · intro houtcome
    cases hfile : view.isFile path with
    | false =>
      obtain ⟨fault, hfault, hother⟩ := readText_of_not_isFile hfile
      exact absurd (hread fault (houtcome.symm.trans hfault)) hother
    | true =>
      obtain ⟨place, content, rules, hpath⟩ := isFile_iff.mp hfile
      exact ⟨place, content, rules, hpath, (readText_of_locate hstorable hpath).symm.trans houtcome⟩
  · rintro ⟨place, content, rules, hpath, rfl⟩
    exact readText_of_locate hstorable hpath

end Lintel.Files
