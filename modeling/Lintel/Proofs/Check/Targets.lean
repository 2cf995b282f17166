import Lintel.Check.Targets
import Lintel.Proofs.Files.Contain
import Lintel.Proofs.Policy.Exact
import Mathlib.Data.List.Lex
import Mathlib.Data.List.Sort

/-!
# Source files below targets

From a tree of directories and files, and from targets that are named from the root, the source files are
taken that stand at a target or below it, where no skipped directory is on the way from the target
(`IsTaken`).

* `locateFrom_eq_ok_iff`: in a tree in which files stand in directories, what is found is what stands there;
* `suffixOf_eq_iff`, `isSourceName_iff`: the names of source files;
* `mem_sourcesOf`: what is taken for one target;
* **`sources_exact`**: what is taken for all targets, once and in order; `not_forall_ends_sources`: a missing
  target need not be passed over.
-/

namespace Lintel.Files

variable {files : Files} {view : View} {place found : Place} {entry : Entry} {parts : List String}

/-! ## Trees of directories -/

/-- A directory stands at the place. -/
def isDirAt (files : Files) (place : Place) : Bool :=
  match files.entry? place with
  | some .dir => true
  | _ => false

/-- What is above an entry are directories. -/
def Nested (files : Files) : Prop := ∀ e ∈ files.entries, ∀ above ∈ ancestors e.1, files.isDirAt above = true

instance : Decidable (Nested files) := inferInstanceAs (Decidable (∀ e ∈ _, _))

theorem isDirAt_iff : files.isDirAt place = true ↔ files.entry? place = some .dir := by
  unfold isDirAt
  split
  · next h => simp [h]
  · next h => simpa using h

theorem mem_ancestors {above : Place} :
    above ∈ ancestors place ↔ ∃ name rest, place = above ++ name :: rest := by
  unfold ancestors
  rw [List.mem_map]
  constructor
  · rintro ⟨n, hn, rfl⟩
    have hlength : n < place.length := List.mem_range.mp hn
    have hsplit : place.take n ++ place.drop n = place := List.take_append_drop n place
    rw [List.drop_eq_getElem_cons hlength] at hsplit
    exact ⟨_, _, hsplit.symm⟩
  · rintro ⟨name, rest, rfl⟩
    exact ⟨above.length, by simp, by simp⟩

theorem mem_of_entry? (hne : place ≠ []) (h : files.entry? place = some entry) :
    (place, entry) ∈ files.entries := by
  unfold entry? at h
  rw [if_neg (by simpa using hne)] at h
  obtain ⟨e, he, rfl⟩ := Option.map_eq_some_iff.mp h
  have hplace : e.1 = place := by simpa using List.find?_some he
  exact hplace ▸ List.mem_of_find?_eq_some he

theorem entry?_eq_some_iff (h : files.Sound) (hne : place ≠ []) :
    files.entry? place = some entry ↔ (place, entry) ∈ files.entries := by
  unfold entry?
  rw [if_neg (by simpa using hne), map_find?_eq_some h.once]

theorem eq_walk_of_locateFrom (h : files.locateFrom place parts = .ok (found, entry)) :
    found = Path.walk place parts := by
  induction parts generalizing place with
  | nil =>
    rw [locateFrom] at h
    split at h
    · exact (Prod.mk.inj (Except.ok.inj h)).1.symm
    · cases h
  | cons part parts ih =>
    rw [locateFrom] at h
    split at h
    · cases h
    · cases h
    · split_ifs at h
      exact ih h

/-- **In a tree of directories, what is found at names is what stands there.** -/
theorem locateFrom_eq_ok_iff (hstorable : files.Storable) (hnested : files.Nested) (hdots : ".." ∉ parts) :
    files.locateFrom place parts = .ok (found, entry) ↔
      found = place ++ parts ∧ files.entry? found = some entry := by
  constructor
  · intro h
    have hfound : found = Path.walk place parts := eq_walk_of_locateFrom h
    rw [walk_of_not_mem place hdots] at hfound
    exact ⟨hfound, entry?_of_locateFrom h⟩
  · rintro ⟨rfl, hentry⟩
    induction parts generalizing place with
    | nil =>
      rw [List.append_nil] at hentry
      simp [locateFrom, hentry]
    | cons part parts ih =>
      obtain ⟨hpart, hparts⟩ : ".." ≠ part ∧ ".." ∉ parts := by simpa using hdots
      have hmem : (place ++ part :: parts, entry) ∈ files.entries := mem_of_entry? (by simp) hentry
      have habove : place ∈ ancestors (place ++ part :: parts) := mem_ancestors.mpr ⟨part, parts, rfl⟩
      have hdir : files.entry? place = some .dir := isDirAt_iff.mp (hnested _ hmem place habove)
      have hshort : (Text.encode part).length ≤ maxName := hstorable.short _ hmem part (by simp)
      have hassoc : place ++ part :: parts = place ++ [part] ++ parts := by simp
      rw [hassoc] at hentry ⊢
      rw [locateFrom, hdir]
      simp only [Nat.not_lt.mpr hshort, if_false, step_of_ne (Ne.symm hpart)]
      exact ih hparts hentry

theorem mem_below : (parts, entry) ∈ files.below place ↔
    parts ≠ [] ∧ (place ++ parts, entry) ∈ files.entries := by
  unfold below
  rw [List.mem_filterMap]
  constructor
  · rintro ⟨⟨at_, e⟩, hmem, hbelow⟩
    simp only [Option.ite_none_right_eq_some, Option.some.injEq, Prod.mk.injEq] at hbelow
    obtain ⟨hbelow, rfl, rfl⟩ := hbelow
    obtain ⟨hstart, hlength⟩ := Bool.and_eq_true_iff.mp hbelow
    obtain ⟨rest, rfl⟩ := List.isPrefixOf_iff_prefix.mp hstart
    rw [List.drop_left]
    refine ⟨?_, hmem⟩
    rintro rfl
    simp at hlength
  · rintro ⟨hne, hmem⟩
    have hlength : 0 < parts.length := List.length_pos_of_ne_nil hne
    exact ⟨_, hmem, by simp [hlength]⟩

end Lintel.Files

namespace Lintel

/-! ## Order and repetitions -/

section Order

variable {α : Type} [BEq α] [LawfulBEq α] {a b : α} {as kept : List α}

theorem mem_eraseReps_loop : b ∈ List.eraseRepsBy.loop (· == ·) a as kept ↔ b ∈ kept ∨ b = a ∨ b ∈ as := by
  induction as generalizing a kept with
  | nil => simp [List.eraseRepsBy.loop, or_comm]
  | cons c as ih =>
    rw [List.eraseRepsBy.loop]
    by_cases hsame : a = c
    · simp [hsame, ih]
    · have hne : (a == c) = false := beq_eq_false_iff_ne.mpr hsame
      simp only [hne, ih, List.mem_cons]
      tauto

theorem pairwise_eraseReps_loop [LinearOrder α] (has : (a :: as).Pairwise (· ≤ ·))
    (hkept : kept.Pairwise (· > ·)) (hbefore : ∀ b ∈ kept, b < a) :
    (List.eraseRepsBy.loop (· == ·) a as kept).Pairwise (· < ·) := by
  have hkept' : (a :: kept).Pairwise (· > ·) := List.pairwise_cons.mpr ⟨hbefore, hkept⟩
  induction as generalizing a kept with
  | nil =>
    rw [List.eraseRepsBy.loop, List.pairwise_reverse]
    exact hkept'
  | cons c as ih =>
    obtain ⟨hfirst, hrest⟩ := List.pairwise_cons.mp has
    rw [List.eraseRepsBy.loop]
    by_cases hsame : a = c
    · subst hsame
      simpa using ih hrest hkept hbefore hkept'
    · have hne : (a == c) = false := beq_eq_false_iff_ne.mpr hsame
      have hlt : a < c := lt_of_le_of_ne (hfirst c List.mem_cons_self) hsame
      have hbefore' : ∀ b ∈ a :: kept, b < c := by
        intro b hb
        rcases List.mem_cons.mp hb with rfl | hb
        · exact hlt
        · exact (hbefore b hb).trans hlt
      simp only [hne]
      exact ih hrest hkept' hbefore' (List.pairwise_cons.mpr ⟨hbefore', hkept'⟩)

theorem mem_eraseReps : b ∈ as.eraseReps ↔ b ∈ as := by
  cases as with
  | nil => rfl
  | cons a as =>
    have hloop : (a :: as).eraseReps = List.eraseRepsBy.loop (· == ·) a as [] := rfl
    simp [hloop, mem_eraseReps_loop]

theorem pairwise_eraseReps [LinearOrder α] (h : as.Pairwise (· ≤ ·)) : as.eraseReps.Pairwise (· < ·) := by
  cases as with
  | nil => exact List.Pairwise.nil
  | cons a as => exact pairwise_eraseReps_loop h List.Pairwise.nil fun _ hb => absurd hb List.not_mem_nil

end Order

namespace Files

theorem partsLe_iff {a b : List String} : partsLe a b = true ↔ a ≤ b := by
  rw [← not_lt]
  induction a generalizing b with
  | nil => simp [partsLe]
  | cons first a ih =>
    cases b with
    | nil => simp [partsLe]
    | cons second b =>
      rw [partsLe, List.cons_lt_cons_iff]
      by_cases hsame : first = second
      · simp [hsame, ih]
      · have hsame' : second ≠ first := Ne.symm hsame
        rw [if_neg (by simpa using hsame), decide_eq_true_eq, not_or, not_lt]
        simp only [hsame', false_and, not_false_eq_true, and_true]
        exact ⟨le_of_lt, fun hle => lt_of_le_of_ne hle hsame⟩

theorem exists_stem_of_suffixOf {name tail : List Char} (h : Path.suffixOf name = '.' :: tail) :
    ∃ stem, stem ≠ [] ∧ name = stem ++ '.' :: tail := by
  have hsplit : name.reverse = name.reverse.takeWhile (· != '.') ++ name.reverse.dropWhile (· != '.') :=
    List.takeWhile_append_dropWhile.symm
  unfold Path.suffixOf at h
  dsimp only at h
  split_ifs at h with hshort
  have htail : name.reverse.takeWhile (· != '.') = tail.reverse := by
    rw [← List.reverse_reverse (name.reverse.takeWhile _), (List.cons.inj h).2]
  rw [htail] at hsplit hshort
  cases hrest : name.reverse.dropWhile (· != '.') with
  | nil =>
    have hlength : name.length = tail.length := by simpa [hrest] using congrArg List.length hsplit
    simp [hlength] at hshort
  | cons c rest =>
    have hc : c = '.' := by
      have hnonempty : name.reverse.dropWhile (· != '.') ≠ [] := by simp [hrest]
      simpa [hrest] using List.head_dropWhile_not (· != '.') hnonempty
    have hname : name = rest.reverse ++ '.' :: tail := by
      rw [← List.reverse_reverse name, hsplit, hrest, hc]
      simp
    refine ⟨rest.reverse, ?_, hname⟩
    rintro hempty
    simp [hname, hempty] at hshort

theorem suffixOf_append {stem tail : List Char} (hstem : stem ≠ []) (hne : tail ≠ []) (hdot : '.' ∉ tail) :
    Path.suffixOf (stem ++ '.' :: tail) = '.' :: tail := by
  have hrun : (stem ++ '.' :: tail).reverse.takeWhile (· != '.') = tail.reverse := by
    have hall : ∀ c ∈ tail.reverse, (c != '.') = true := by
      intro c hc
      have hmem : c ∈ tail := List.mem_reverse.mp hc
      simpa using fun heq : c = '.' => hdot (heq ▸ hmem)
    simp only [List.reverse_append, List.reverse_cons, List.append_assoc, List.singleton_append]
    rw [List.takeWhile_append_of_pos hall]
    simp
  have hlength : 0 < stem.length := List.length_pos_of_ne_nil hstem
  have hlong : ¬ (tail.reverse.isEmpty = true ∨
      (stem ++ '.' :: tail).length ≤ tail.reverse.length + 1) := by
    simp [hne]
    omega
  unfold Path.suffixOf
  simp only [hrun, Bool.or_eq_true, decide_eq_true_eq]
  rw [if_neg hlong, List.reverse_reverse]

/-- The suffix of a name goes from its last dot on, where a stem is in front of it. -/
theorem suffixOf_eq_iff {name tail : List Char} (hne : tail ≠ []) (hdot : '.' ∉ tail) :
    Path.suffixOf name = '.' :: tail ↔ ∃ stem, stem ≠ [] ∧ name = stem ++ '.' :: tail := by
  refine ⟨exists_stem_of_suffixOf, ?_⟩
  rintro ⟨stem, hstem, rfl⟩
  exact suffixOf_append hstem hne hdot

end Files

namespace Check

open Files (NameTooLong Path Place View componentsOf IsRooted)

variable {view : View} {target name : String} {targets : List String} {place : Place}

/-! ## Names of source files -/

/-- The name is that of a source file: it has a stem, and it is not the name of a declaration file. -/
structure NamesSource (name : String) : Prop where
  suffix : ∃ stem, stem ≠ "" ∧ (name = stem ++ ".ts" ∨ name = stem ++ ".tsx")
  noDeclaration : ∀ stem, name ≠ stem ++ ".d.ts"

theorem endsWith_iff (name back : String) : Text.endsWith back name = true ↔ ∃ stem, name = stem ++ back := by
  unfold Text.endsWith
  rw [List.isSuffixOf_iff_suffix]
  constructor
  · rintro ⟨stem, hstem⟩
    refine ⟨String.ofList stem, ?_⟩
    rw [← String.toList_inj, ← hstem]
    simp
  · rintro ⟨stem, rfl⟩
    exact ⟨stem.toList, by simp⟩

theorem suffixOf_toList_iff (name tail : String) (hne : tail.toList ≠ []) (hdot : '.' ∉ tail.toList) :
    String.ofList (Path.suffixOf name.toList) = "." ++ tail ↔
      ∃ stem, stem ≠ "" ∧ name = stem ++ ("." ++ tail) := by
  have hlist : String.ofList (Path.suffixOf name.toList) = "." ++ tail ↔
      Path.suffixOf name.toList = '.' :: tail.toList := by
    rw [← String.toList_inj]
    simp
  rw [hlist, Files.suffixOf_eq_iff hne hdot]
  constructor
  · rintro ⟨stem, hstem, hname⟩
    refine ⟨String.ofList stem, by simpa using hstem, ?_⟩
    rw [← String.toList_inj, hname]
    simp
  · rintro ⟨stem, hstem, rfl⟩
    exact ⟨stem.toList, by simpa using hstem, by simp⟩

theorem isSourceName_iff : isSourceName name = true ↔ NamesSource name := by
  have hts := suffixOf_toList_iff name "ts" (by decide) (by decide)
  have htsx := suffixOf_toList_iff name "tsx" (by decide) (by decide)
  have hdeclaration := endsWith_iff name ".d.ts"
  unfold isSourceName
  rw [Bool.and_eq_true, Bool.not_eq_true', List.contains_iff_mem, List.mem_cons, List.mem_singleton]
  change (String.ofList (Path.suffixOf name.toList) = "." ++ "ts" ∨
    String.ofList (Path.suffixOf name.toList) = "." ++ "tsx") ∧ _ ↔ _
  rw [hts, htsx, Bool.eq_false_iff, ne_eq, hdeclaration, ← exists_or]
  constructor
  · rintro ⟨⟨stem, hstem⟩, hnone⟩
    refine ⟨⟨stem, ?_⟩, fun stem hname => hnone ⟨stem, hname⟩⟩
    rcases hstem with ⟨hne, hname⟩ | ⟨hne, hname⟩
    · exact ⟨hne, .inl hname⟩
    · exact ⟨hne, .inr hname⟩
  · rintro ⟨⟨stem, hne, hname⟩, hnone⟩
    refine ⟨⟨stem, ?_⟩, fun ⟨stem, hname⟩ => hnone stem hname⟩
    rcases hname with hname | hname
    · exact .inl ⟨hne, hname⟩
    · exact .inr ⟨hne, hname⟩

/-! ## What is taken -/

/-- The target is named from the root, without two dots. -/
structure IsTarget (target : String) : Prop where
  rooted : IsRooted target
  noDots : ".." ∉ componentsOf target

instance : DecidablePred IsTarget := fun target =>
  decidable_of_iff (IsRooted target ∧ ".." ∉ componentsOf target) ⟨fun h => ⟨h.1, h.2⟩, fun h => ⟨h.1, h.2⟩⟩

/-- A target is at the place, or a directory above it from which no skipped directory is on the way. -/
inductive Reaches (view : View) (target : String) : Place → Prop
  | here : Reaches view target (componentsOf target)
  | below {between : List String} {name : String} (hdir : view.isDir (.ofString target) = true)
      (hbetween : ∀ part ∈ between, part ∉ skippedDirectories) :
      Reaches view target (componentsOf target ++ (between ++ [name]))

/-- A source file stands at the place, and one of the targets reaches it. -/
structure IsTaken (view : View) (targets : List String) (place : Place) : Prop where
  stands : ∃ content rules, view.files.entry? place = some (.file content rules)
  named : ∃ name, place.getLast? = some name ∧ NamesSource name
  reached : ∃ target ∈ targets, Reaches view target place

theorem resolve_of_isTarget (h : IsTarget target) :
    view.resolve (.ofString target) = componentsOf target := by
  rw [Files.resolve_ofString h.rooted, Files.walk_of_not_mem [] h.noDots, List.nil_append]

theorem locate_ofString (h : IsRooted target) :
    view.locate (.ofString target) = view.files.locateFrom [] (componentsOf target) := by
  have habsolute : (Path.ofString target).isAbsolute = true := by simpa [Files.isAbsolute_ofString] using h
  unfold View.locate Files.locate
  rw [habsolute, Files.parts_ofString, if_pos rfl]

section Tree

variable (hsound : view.files.Sound) (hstorable : view.files.Storable) (hnested : view.files.Nested)

include hstorable hnested

theorem locate_target (h : IsTarget target) {found : Place} {entry : Entry} :
    view.locate (.ofString target) = .ok (found, entry) ↔
      found = componentsOf target ∧ view.files.entry? found = some entry := by
  rw [locate_ofString h.rooted, Files.locateFrom_eq_ok_iff hstorable hnested h.noDots, List.nil_append]

theorem isFile_target (h : IsTarget target) : view.isFile (.ofString target) = true ↔
    ∃ content rules, view.files.entry? (componentsOf target) = some (.file content rules) := by
  rw [Files.isFile_iff]
  simp only [locate_target hstorable hnested h, exists_and_left, exists_eq_left]

theorem isDir_target (h : IsTarget target) : view.isDir (.ofString target) = true ↔
    view.files.entry? (componentsOf target) = some .dir := by
  rw [Files.isDir_iff]
  simp only [locate_target hstorable hnested h, exists_eq_left]

omit hstorable hnested in
theorem isSource_iff {parts : List String} {entry : Entry} : isSource parts entry = true ↔
    (∃ content rules, entry = .file content rules) ∧ NamesSource (parts.getLast?.getD "") ∧
      ∀ part ∈ parts.dropLast, part ∉ skippedDirectories := by
  cases entry with
  | dir => simp [isSource]
  | file content rules =>
    unfold isSource
    rw [Bool.and_eq_true, isSourceName_iff]
    simp

omit hstorable hnested in
theorem not_namesSource_empty : ¬ NamesSource "" := by
  rintro ⟨⟨stem, -, hname | hname⟩, -⟩
  · simpa using congrArg String.toList hname
  · simpa using congrArg String.toList hname

omit hstorable hnested in
theorem namesSource_getD_iff {parts : List String} : NamesSource (parts.getLast?.getD "") ↔
    ∃ name, parts.getLast? = some name ∧ NamesSource name := by
  cases parts.getLast? with
  | none => simp [not_namesSource_empty]
  | some name => simp

theorem mem_sourcesOf_file (h : IsTarget target) (hfile : view.isFile (.ofString target) = true) :
    place ∈ sourcesOf view (.ofString target) ↔ IsTaken view [target] place := by
  have hstands := (isFile_target hstorable hnested h).mp hfile
  have hname : (Path.ofString target).name = (componentsOf target).getLast?.getD "" := by
    rw [Path.name, Files.parts_ofString]
  unfold sourcesOf
  rw [if_pos hfile, resolve_of_isTarget h, hname]
  constructor
  · intro hmem
    split_ifs at hmem with hsource
    · rw [List.mem_singleton.mp hmem]
      have hnamed := namesSource_getD_iff.mp (isSourceName_iff.mp hsource)
      exact ⟨hstands, hnamed, target, List.mem_singleton.mpr rfl, .here⟩
    · exact absurd hmem List.not_mem_nil
  · rintro ⟨-, hnamed, other, hother, hreaches⟩
    obtain rfl : other = target := List.mem_singleton.mp hother
    cases hreaches with
    | here =>
      have hsource := isSourceName_iff.mpr (namesSource_getD_iff.mpr hnamed)
      rw [if_pos hsource]
      exact List.mem_singleton.mpr rfl
    | below hdir _ =>
      obtain ⟨content, rules, hentry⟩ := hstands
      rw [(isDir_target hstorable hnested h).mp hdir] at hentry
      cases hentry

theorem mem_below_target (h : IsTarget target) {parts : List String} {entry : Entry} :
    (parts, entry) ∈ view.below (.ofString target) ↔ view.isDir (.ofString target) = true ∧
      (parts, entry) ∈ view.files.below (componentsOf target) := by
  unfold View.below
  split
  · next found hlocate =>
    have hdir : view.isDir (.ofString target) = true := Files.isDir_iff.mpr ⟨_, hlocate⟩
    have hfound := ((locate_target hstorable hnested h).mp hlocate).1
    simp [hdir, hfound]
  · next hnone =>
    have hdir : ¬ view.isDir (.ofString target) = true := by
      intro hdir
      obtain ⟨found, hlocate⟩ := Files.isDir_iff.mp hdir
      exact hnone found hlocate
    simp [hdir]

include hsound

/-- **What is taken for a target** are the source files that it reaches. -/
theorem mem_sourcesOf (h : IsTarget target) :
    place ∈ sourcesOf view (.ofString target) ↔ IsTaken view [target] place := by
  by_cases hfile : view.isFile (.ofString target) = true
  · exact mem_sourcesOf_file hstorable hnested h hfile
  · unfold sourcesOf
    rw [if_neg hfile, resolve_of_isTarget h, List.mem_map]
    constructor
    · rintro ⟨⟨parts, entry⟩, hmem, rfl⟩
      obtain ⟨hbelow, hsource⟩ := List.mem_filter.mp hmem
      obtain ⟨hdir, hbelow⟩ := (mem_below_target hstorable hnested h).mp hbelow
      obtain ⟨hne, hentry⟩ := Files.mem_below.mp hbelow
      obtain ⟨⟨content, rules, rfl⟩, hnamed, hbetween⟩ := isSource_iff.mp hsource
      have hwhole : componentsOf target ++ parts ≠ [] := by simp [hne]
      have hlast : parts = parts.dropLast ++ [parts.getLast hne] := (List.dropLast_append_getLast hne).symm
      refine ⟨⟨content, rules, (Files.entry?_eq_some_iff hsound hwhole).mpr hentry⟩, ?_, target,
        List.mem_singleton.mpr rfl, ?_⟩
      · dsimp only
        rw [List.getLast?_append_of_ne_nil _ hne]
        exact namesSource_getD_iff.mp hnamed
      · dsimp only
        rw [hlast]
        exact .below hdir hbetween
    · rintro ⟨⟨content, rules, hentry⟩, ⟨last, hlast, hnamed⟩, other, hother, hreaches⟩
      obtain rfl : other = target := List.mem_singleton.mp hother
      cases hreaches with
      | here => exact absurd ((isFile_target hstorable hnested h).mpr ⟨content, rules, hentry⟩) hfile
      | @below between name hdir hbetween =>
        have hname : name = last := by simpa using hlast
        have hmem := (Files.entry?_eq_some_iff hsound (by simp)).mp hentry
        have hbelow := (mem_below_target hstorable hnested h).mpr
          ⟨hdir, Files.mem_below.mpr ⟨by simp, hmem⟩⟩
        refine ⟨_, List.mem_filter.mpr ⟨hbelow, isSource_iff.mpr ⟨⟨_, _, rfl⟩, ?_, ?_⟩⟩, rfl⟩
        · simpa [hname] using hnamed
        · simpa using hbetween

theorem mem_collect (htargets : ∀ t ∈ targets, IsTarget t) :
    place ∈ collect view targets ↔ IsTaken view targets place := by
  unfold collect
  rw [mem_eraseReps, List.mem_mergeSort, List.mem_flatMap]
  constructor
  · rintro ⟨t, ht, hmem⟩
    obtain ⟨hstands, hnamed, other, hother, hreaches⟩ :=
      (mem_sourcesOf hsound hstorable hnested (htargets t ht)).mp hmem
    rw [List.mem_singleton.mp hother] at hreaches
    exact ⟨hstands, hnamed, t, ht, hreaches⟩
  · rintro ⟨hstands, hnamed, t, ht, hreaches⟩
    exact ⟨t, ht, (mem_sourcesOf hsound hstorable hnested (htargets t ht)).mpr
      ⟨hstands, hnamed, t, List.mem_singleton.mpr rfl, hreaches⟩⟩

end Tree

/-! ## What is taken for all targets -/

theorem pairwise_collect (view : View) (targets : List String) : (collect view targets).Pairwise (· < ·) := by
  refine pairwise_eraseReps (Files.pairwise_mergeSort_key id (fun _ _ => Files.partsLe_iff) _)

/-- The places are those of the source files that the targets reach, each once, in order. -/
structure Collected (view : View) (targets : List String) (found : List Place) : Prop where
  increasing : found.Pairwise (· < ·)
  exact : ∀ place, place ∈ found ↔ IsTaken view targets place

theorem Collected.unique {others : List String} {found found' : List Place}
    (hsame : ∀ t, t ∈ others ↔ t ∈ targets) (h : Collected view targets found)
    (h' : Collected view others found') : found' = found := by
  have hmem : ∀ place, place ∈ found' ↔ place ∈ found := by
    intro place
    rw [h.exact, h'.exact]
    refine ⟨fun htaken => ⟨htaken.stands, htaken.named, ?_⟩, fun htaken => ⟨htaken.stands, htaken.named, ?_⟩⟩
    · simpa only [hsame] using htaken.reached
    · simpa only [hsame] using htaken.reached
  have hperm : found'.Perm found :=
    (List.perm_ext_iff_of_nodup (h'.increasing.imp ne_of_lt) (h.increasing.imp ne_of_lt)).mpr hmem
  exact hperm.eq_of_pairwise' h'.increasing h.increasing

theorem isTaken_append {front back : List String} :
    IsTaken view (front ++ back) place ↔ IsTaken view front place ∨ IsTaken view back place := by
  constructor
  · rintro ⟨hstands, hnamed, t, ht, hreaches⟩
    rcases List.mem_append.mp ht with ht | ht
    · exact .inl ⟨hstands, hnamed, t, ht, hreaches⟩
    · exact .inr ⟨hstands, hnamed, t, ht, hreaches⟩
  · rintro (⟨hstands, hnamed, t, ht, hreaches⟩ | ⟨hstands, hnamed, t, ht, hreaches⟩)
    · exact ⟨hstands, hnamed, t, List.mem_append_left back ht, hreaches⟩
    · exact ⟨hstands, hnamed, t, List.mem_append_right front ht, hreaches⟩

theorem sources_of_short (h : ∀ t ∈ targets, ¬ NameTooLong view (.ofString t)) :
    sources view targets = .ok (collect view targets) := by
  obtain ⟨answers, hanswers⟩ := ends_mapM.mpr fun t ht => Files.ends_askDir_iff.mpr (h t ht)
  unfold sources
  rw [hanswers, ok_bind]
  rfl

theorem exists_of_sources_eq_error {fault : Fault} (h : sources view targets = .error fault) :
    ∃ t ∈ targets, NameTooLong view (.ofString t) ∧ fault = .file .longName (Path.ofString t).text := by
  have hfails : FailsOnlyWith (fun fault => ∃ t ∈ targets, NameTooLong view (.ofString t) ∧
      fault = .file .longName (Path.ofString t).text) (sources view targets) :=
    FailsOnlyWith.bind (FailsOnlyWith.mapM fun t ht _ hfault => ⟨t, ht, Files.askDir_eq_error_iff.mp hfault⟩)
      fun _ => failsOnlyWith_ok _
  exact hfails fault h

theorem ends_sources_iff :
    Ends (sources view targets) ↔ ∀ t ∈ targets, ¬ NameTooLong view (.ofString t) := by
  constructor
  · rintro ⟨found, hfound⟩ t ht
    obtain ⟨answers, hanswers, -⟩ := bind_eq_ok.mp hfound
    exact Files.ends_askDir_iff.mp (ends_mapM.mp ⟨answers, hanswers⟩ t ht)
  · exact fun h => ⟨_, sources_of_short h⟩

theorem sources_of_nameTooLong (h : ∃ t ∈ targets, NameTooLong view (.ofString t)) :
    ∃ t ∈ targets, NameTooLong view (.ofString t) ∧
      sources view targets = .error (.file .longName (Path.ofString t).text) := by
  obtain ⟨t, ht, hlong⟩ := h
  cases hsources : sources view targets with
  | error fault =>
    obtain ⟨t, ht, hlong, rfl⟩ := exists_of_sources_eq_error hsources
    exact ⟨t, ht, hlong, rfl⟩
  | ok found => exact absurd hlong (ends_sources_iff.mp ⟨found, hsources⟩ t ht)

/-- **The source files of the targets**: each one that a target reaches, once, in the order of places,
whatever the order and repetition of the targets; the files of two rows of targets are those of the one and
those of the other. Only if a name in a target is longer than a disk allows, there is an error. -/
theorem sources_exact {view : View} (hsound : view.files.Sound) (hstorable : view.files.Storable)
    (hnested : view.files.Nested) {targets : List String} (htargets : ∀ t ∈ targets, IsTarget t) :
    ((∃ t ∈ targets, NameTooLong view (.ofString t)) → ∃ t ∈ targets, NameTooLong view (.ofString t) ∧
      sources view targets = .error (.file .longName (Path.ofString t).text)) ∧
    ((∀ t ∈ targets, ¬ NameTooLong view (.ofString t)) →
      ∃ found, sources view targets = .ok found ∧ Collected view targets found ∧
        (∀ others, (∀ t, t ∈ others ↔ t ∈ targets) → sources view others = .ok found) ∧
        ∀ front back, targets = front ++ back → ∃ found₁ found₂, sources view front = .ok found₁ ∧
          sources view back = .ok found₂ ∧ ∀ place, place ∈ found ↔ place ∈ found₁ ∨ place ∈ found₂) := by
  refine ⟨sources_of_nameTooLong, fun hshort => ?_⟩
  -- what holds of rows of these targets
  have hpart : ∀ others, (∀ t ∈ others, t ∈ targets) →
      sources view others = .ok (collect view others) ∧ Collected view others (collect view others) := by
    intro others hothers
    constructor
    · exact sources_of_short fun t ht => hshort t (hothers t ht)
    · exact ⟨pairwise_collect view others, fun place =>
        mem_collect hsound hstorable hnested fun t ht => htargets t (hothers t ht)⟩
  obtain ⟨hsources, hcollected⟩ := hpart targets fun _ ht => ht
  refine ⟨_, hsources, hcollected, fun others hsame => ?_, ?_⟩
  · obtain ⟨hothers, hcollected'⟩ := hpart others fun t ht => (hsame t).mp ht
    rw [hothers, hcollected.unique hsame hcollected']
  · rintro front back rfl
    obtain ⟨hfront, hcollected₁⟩ := hpart front fun t ht => List.mem_append_left back ht
    obtain ⟨hback, hcollected₂⟩ := hpart back fun t ht => List.mem_append_right front ht
    refine ⟨_, _, hfront, hback, fun place => ?_⟩
    rw [hcollected.exact, hcollected₁.exact, hcollected₂.exact, isTaken_append]

/-- A tree with a directory that is passed over from above. -/
def builtTree : View := ⟨⟨[
  (["srv"], .dir),
  (["srv", "build"], .dir),
  (["srv", "build", "app"], .dir),
  (["srv", "build", "app", ".ts"], .file [] none),
  (["srv", "build", "app", "d.ts"], .file [] none),
  (["srv", "build", "app", "types.d.ts"], .file [] none),
  (["srv", "build", "app", "dist"], .dir),
  (["srv", "build", "app", "dist", "b.tsx"], .file [] none)]⟩, []⟩

/-- A file in a skipped directory is taken if the directory is itself a target, of whatever spelling. -/
theorem sources_exact_builtTree :
    let targets := ["/srv/build/app", "/srv//build/./app/dist/", "/srv/build/app/d.ts"]
    builtTree.files.Sound ∧ builtTree.files.Storable ∧ builtTree.files.Nested ∧
      (∀ t ∈ targets, IsTarget t) ∧ (∀ t ∈ targets, ¬ NameTooLong builtTree (.ofString t)) ∧
        ∃ found, sources builtTree targets = .ok found ∧ Collected builtTree targets found ∧
          ["srv", "build", "app", "dist", "b.tsx"] ∈ found ∧
          ["srv", "build", "app", "types.d.ts"] ∉ found := by
  intro targets
  have hsound : builtTree.files.Sound := ⟨by decide +kernel, by decide +kernel⟩
  have hstorable : builtTree.files.Storable := ⟨by decide +kernel, by decide +kernel⟩
  have hnested : builtTree.files.Nested := by decide +kernel
  have htargets : ∀ t ∈ targets, IsTarget t := by decide +kernel
  have hfound : ∀ t ∈ targets, (builtTree.locate (.ofString t)).toBool = true := by decide +kernel
  have hshort : ∀ t ∈ targets, ¬ NameTooLong builtTree (.ofString t) := by
    rintro t ht ⟨-, hlong⟩
    have hlocated := hfound t ht
    rw [hlong] at hlocated
    cases hlocated
  obtain ⟨found, hsources, hcollected, -⟩ := (sources_exact hsound hstorable hnested htargets).2 hshort
  refine ⟨hsound, hstorable, hnested, htargets, hshort, found, hsources, hcollected, ?_, fun hmem => ?_⟩
  · have hnamed : NamesSource "b.tsx" := isSourceName_iff.mp (by decide +kernel)
    have hreaches : Reaches builtTree "/srv//build/./app/dist/" (_ ++ ([] ++ ["b.tsx"])) :=
      .below (by decide +kernel) fun _ h => absurd h List.not_mem_nil
    have hplace : componentsOf "/srv//build/./app/dist/" ++ ([] ++ ["b.tsx"]) =
        ["srv", "build", "app", "dist", "b.tsx"] := by decide +kernel
    rw [hplace] at hreaches
    exact (hcollected.exact _).mpr ⟨⟨[], none, rfl⟩, ⟨_, rfl, hnamed⟩, _, by simp [targets], hreaches⟩
  · obtain ⟨name, hname, hnamed⟩ := ((hcollected.exact _).mp hmem).named
    obtain rfl : "types.d.ts" = name := Option.some.inj hname
    exact hnamed.noDeclaration "types" (by decide)

/-- A name that no disk can hold. -/
def endlessName : String := String.ofList (List.replicate 256 'a')

theorem isName_endlessName : Files.IsName endlessName := by
  have hlist : endlessName.toList = List.replicate 256 'a' := String.toList_ofList
  have hlength : endlessName.toList.length = 256 := by rw [hlist, List.length_replicate]
  have hslash : '/' ∉ endlessName.toList := by
    rw [hlist]
    exact fun hmem => absurd (List.eq_of_mem_replicate hmem) (by decide)
  refine ⟨?_, ?_, ?_, hslash⟩
  all_goals
    intro hname
    rw [hname] at hlength
    exact absurd hlength (by decide)

theorem componentsOf_endless : componentsOf ("/" ++ endlessName) = [endlessName] := by
  have hspelt : "/" ++ endlessName = "" ++ "/" ++ endlessName := by simp
  rw [hspelt, Files.componentsOf_append, Files.componentsOf_empty, List.nil_append,
    Files.componentsOf_of_isName isName_endlessName]

theorem isTarget_endless : IsTarget ("/" ++ endlessName) := by
  refine ⟨by simp [IsRooted], ?_⟩
  rw [componentsOf_endless, List.mem_singleton]
  exact isName_endlessName.2.2.1.symm

theorem nameTooLong_endless (view : View) : NameTooLong view (.ofString ("/" ++ endlessName)) := by
  obtain ⟨hnul, hlong⟩ := Files.nameTooLong_endlessRoot view
  constructor
  · rw [View.hasNul, Files.parts_ofString, componentsOf_endless]
    exact hnul
  · rw [locate_ofString isTarget_endless.rooted, componentsOf_endless]
    exact hlong

/-- **A target at which nothing stands need not be passed over.** -/
theorem not_forall_ends_sources :
    ¬ ∀ (view : View) (targets : List String), view.files.Sound → view.files.Storable →
      view.files.Nested → (∀ t ∈ targets, IsTarget t) →
        ∃ found, sources view targets = .ok found ∧ Collected view targets found := by
  intro hall
  have htarget : ∀ t ∈ ["/" ++ endlessName], IsTarget t := by
    intro t ht
    rw [List.mem_singleton.mp ht]
    exact isTarget_endless
  obtain ⟨found, hfound, -⟩ := hall ⟨.empty, []⟩ ["/" ++ endlessName] Files.Sound.empty
    ⟨fun _ h => absurd h List.not_mem_nil, fun _ h => absurd h List.not_mem_nil⟩
    (fun _ h => absurd h List.not_mem_nil) htarget
  have hlong := Files.askDir_of_nameTooLong (nameTooLong_endless ⟨.empty, []⟩)
  rw [sources, List.mapM_cons, hlong] at hfound
  cases hfound

end Check

end Lintel
