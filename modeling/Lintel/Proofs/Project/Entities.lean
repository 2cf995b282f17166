import Lintel.Proofs.Files.Below
import Lintel.Proofs.Project.Exports

/-!
# Calls of the index

The first call that succeeds looks up all entity files and keeps what it finds; a file that is no text makes a
call fail, and the next one looks again.

* `Holds`: what an entity file holds; `mem_entityFiles`, `pairwise_entityFiles`: the row of these files;
* `Listed`, `BreaksBelow`: the names that the files export, and what hides them;
* `listed_of_entitiesBelow`, `entitiesBelow_eq_error_iff`: what a look at the files yields;
* `Course`: the answers to calls while the tree changes; `course_answers`: every row of calls is one;
* **`answers_exact`**: what calls answer, and when all answers are the names that the first tree exports;
  `not_forall_answers_listed`: they need not be.
-/

namespace Lintel.Project

open Files (IsNormal IsUndecodable NameTooLong Path View)
open Files.Glob (beneath)

variable {view : View} {root : Path} {parts : List String} {name : String} {names : List String}
  {fault : Fault} {outcome : Except Fault String}

/-! ## Entity files -/

def NamesEntity (parts : List String) : Prop := ∃ name, parts.getLast? = some name ∧ isEntityFile name = true

/-- Below the root stands an entity file that reads as the outcome says. -/
structure Holds (view : View) (root : Path) (parts : List String) (outcome : Except Fault String) : Prop where
  normal : IsNormal parts
  named : NamesEntity parts
  read : view.readText (beneath root parts) = outcome

/-- The entries below the root with names of entity files, in the order of their paths. -/
def entityFiles (view : View) (root : Path) : List (List String × Entry) :=
  ((view.below root).filter fun e => isEntityFile (e.1.getLast?.getD "")).mergeSort belowLe

theorem namesEntity_iff : isEntityFile (parts.getLast?.getD "") = true ↔ NamesEntity parts := by
  unfold NamesEntity
  cases parts.getLast? with
  | none => simp [isEntityFile, Text.endsWith]
  | some name => simp

theorem mem_entityFiles {entry : Entry} :
    (parts, entry) ∈ entityFiles view root ↔ NamesEntity parts ∧ (parts, entry) ∈ view.below root := by
  rw [entityFiles, List.mem_mergeSort, List.mem_filter, namesEntity_iff, and_comm]

theorem pairwise_entityFiles (hsound : view.files.Sound) (root : Path) :
    (entityFiles view root).Pairwise fun a b => a.1 < b.1 := by
  refine Files.pairwise_lt_mergeSort Prod.fst (fun a b => Files.partsLe_iff) ?_
  exact (List.filter_sublist.map _).nodup (Files.nodup_below hsound root)

/-- **The entity files are those in the row.** -/
theorem holds_iff (h : view.files.OnDisk) (hread : FailsOnlyWith IsUndecodable outcome) :
    Holds view root parts outcome ↔ ∃ content rules,
      (parts, .file content rules) ∈ entityFiles view root ∧ View.textOf content = outcome := by
  simp only [mem_entityFiles, Files.mem_below_iff h]
  constructor
  · rintro ⟨hnormal, hnamed, houtcome⟩
    obtain ⟨place, content, rules, hplace, htext⟩ := (Files.readText_eq_iff h.storable hread).mp houtcome
    have hne : parts ≠ [] := by
      rintro rfl
      obtain ⟨name, hname, -⟩ := hnamed
      cases hname
    exact ⟨content, rules, ⟨hnamed, hne, hnormal, place, hplace⟩, htext⟩
  · rintro ⟨content, rules, ⟨hnamed, -, hnormal, place, hplace⟩, htext⟩
    exact ⟨hnormal, hnamed, (Files.readText_eq_iff h.storable hread).mpr ⟨place, content, rules, hplace, htext⟩⟩

/-! ## A look at the files -/

/-- The names are those that the entity files below the root export, in strict order. -/
structure Listed (view : View) (root : Path) (names : List String) : Prop where
  listed : ∀ name, name ∈ names ↔
    ∃ parts text, Holds view root parts (.ok text) ∧ IsExportedBy text name
  sorted : names.Pairwise (· < ·)

/-- The root cannot be looked up, or the first entity file that is no text has the fault. -/
def BreaksBelow (view : View) (root : Path) (fault : Fault) : Prop :=
  (NameTooLong view root ∧ fault = .file .longName root.text) ∨
    ∃ parts flaw, Holds view root parts (.error (.undecodable flaw)) ∧ fault = .undecodable flaw ∧
      ∀ earlier, earlier < parts → ∀ other, ¬ Holds view root earlier (.error (.undecodable other))

theorem mem_sortedUnique : name ∈ sortedUnique names ↔ name ∈ names := by
  rw [sortedUnique, mem_eraseReps, List.mem_mergeSort]

theorem pairwise_sortedUnique (names : List String) : (sortedUnique names).Pairwise (· < ·) := by
  refine pairwise_eraseReps (Files.pairwise_mergeSort_key id (fun a b => ?_) names)
  rw [Bool.not_eq_true', decide_eq_false_iff_not, not_lt]
  rfl

theorem below_of_not_isDir (h : view.isDir root = false) : view.below root = [] := by
  unfold View.below
  split
  · next place hplace => simp [View.isDir, hplace] at h
  · rfl

theorem entitiesBelow_eq (hstorable : view.files.Storable) (h : ¬ NameTooLong view root) :
    entitiesBelow view root = ((entityFiles view root).mapM fun e => entitiesOf e.2).map fun rows =>
      sortedUnique rows.flatten := by
  rw [entitiesBelow, Files.askDir_of_not_nameTooLong hstorable h, ok_bind, map_eq_bind]
  cases hdir : view.isDir root with
  | true => rfl
  | false =>
    have hnone : sortedUnique [] = [] := by
      rw [sortedUnique, List.mergeSort_nil]
      rfl
    rw [entityFiles, below_of_not_isDir hdir, List.filter_nil, List.mergeSort_nil]
    simp [pure_eq_ok, ok_bind, hnone]

theorem failsOnlyWith_entitiesOf (entry : Entry) : FailsOnlyWith IsUndecodable (entitiesOf entry) := by
  cases entry with
  | dir => exact failsOnlyWith_ok _
  | file content rules => exact failsOnlyWith_map.mpr (Files.failsOnlyWith_textOf content)

theorem mem_entitiesOf {entry : Entry} : (∃ row, entitiesOf entry = .ok row ∧ name ∈ row) ↔
    ∃ content rules text, entry = .file content rules ∧ View.textOf content = .ok text ∧
      IsExportedBy text name := by
  cases entry with
  | dir => simp [entitiesOf]
  | file content rules =>
    cases htext : View.textOf content <;> simp [entitiesOf, htext, Except.map, mem_exportedClasses]

theorem holds_undecodable_iff (h : view.files.OnDisk) {flaw : Text.Undecodable} :
    Holds view root parts (.error (.undecodable flaw)) ↔
      ∃ entry, (parts, entry) ∈ entityFiles view root ∧ entitiesOf entry = .error (.undecodable flaw) := by
  rw [holds_iff h (failsOnlyWith_error.mpr ⟨flaw, rfl⟩)]
  constructor
  · rintro ⟨content, rules, hmem, htext⟩
    exact ⟨_, hmem, by rw [entitiesOf, htext]; rfl⟩
  · rintro ⟨_ | ⟨content, rules⟩, hmem, hentry⟩
    · cases hentry
    · refine ⟨content, rules, hmem, ?_⟩
      cases htext : View.textOf content <;> simp_all [entitiesOf, Except.map]

/-- **If there are names, they are those that the files export.** -/
theorem listed_of_entitiesBelow (h : view.files.OnDisk) (hnames : entitiesBelow view root = .ok names) :
    Listed view root names := by
  have hshort : ¬ NameTooLong view root := by
    intro hlong
    rw [entitiesBelow, Files.askDir_of_nameTooLong hlong] at hnames
    cases hnames
  rw [entitiesBelow_eq h.storable hshort, map_eq_ok] at hnames
  obtain ⟨rows, hrows, rfl⟩ := hnames
  refine ⟨fun name => ?_, pairwise_sortedUnique _⟩
  rw [mem_sortedUnique, List.mem_flatten]
  constructor
  · rintro ⟨row, hrow, hname⟩
    obtain ⟨⟨parts, entry⟩, hmem, hentry⟩ := exists_of_mapM_eq_ok hrows hrow
    obtain ⟨content, rules, text, rfl, htext, hexported⟩ := mem_entitiesOf.mp ⟨row, hentry, hname⟩
    exact ⟨parts, text, (holds_iff h (failsOnlyWith_ok text)).mpr ⟨content, rules, hmem, htext⟩, hexported⟩
  · rintro ⟨parts, text, hholds, hexported⟩
    obtain ⟨content, rules, hmem, htext⟩ := (holds_iff h (failsOnlyWith_ok text)).mp hholds
    obtain ⟨row, hentry, hname⟩ := mem_entitiesOf.mpr ⟨content, rules, text, rfl, htext, hexported⟩
    exact ⟨row, (mem_of_mapM_eq_ok hrows).mpr ⟨_, hmem, hentry⟩, hname⟩

/-- **A look at the files fails** if the root cannot be looked up, or with the first file that is no text. -/
theorem entitiesBelow_eq_error_iff (h : view.files.OnDisk) :
    entitiesBelow view root = .error fault ↔ BreaksBelow view root fault := by
  by_cases hlong : NameTooLong view root
  · rw [entitiesBelow, Files.askDir_of_nameTooLong hlong]
    constructor
    · intro hfault
      exact .inl ⟨hlong, (Except.error.inj hfault).symm⟩
    · rintro (⟨-, rfl⟩ | ⟨parts, flaw, hholds, -⟩)
      · rfl
      · -- below such a root nothing is found
        obtain ⟨content, rules, hmem, -⟩ := (holds_iff h (failsOnlyWith_error.mpr ⟨flaw, rfl⟩)).mp hholds
        obtain ⟨hne, -, place, hplace⟩ := (Files.mem_below_iff h).mp (mem_entityFiles.mp hmem).2
        obtain ⟨_, hroot, -⟩ := Files.exists_dir_of_locate_beneath hne hplace
        rw [hlong.2] at hroot
        cases hroot
  · rw [entitiesBelow_eq h.storable hlong, map_eq_error, mapM_eq_error_iff_first (fun _ _ => lt_asymm)
      (pairwise_entityFiles h.sound root) fun _ _ => Iff.rfl]
    constructor
    · rintro ⟨⟨parts, entry⟩, ⟨hmem, hfault⟩, hfirst⟩
      obtain ⟨flaw, rfl⟩ := failsOnlyWith_entitiesOf entry fault hfault
      refine .inr ⟨parts, flaw, (holds_undecodable_iff h).mpr ⟨entry, hmem, hfault⟩, rfl, ?_⟩
      intro earlier hlt other hother
      obtain ⟨entry', hearlier⟩ := (holds_undecodable_iff h).mp hother
      exact hfirst (earlier, entry') hlt _ hearlier
    · rintro (⟨hlong', -⟩ | ⟨parts, flaw, hholds, rfl, hfirst⟩)
      · exact absurd hlong' hlong
      · obtain ⟨entry, hentry⟩ := (holds_undecodable_iff h).mp hholds
        refine ⟨(parts, entry), hentry, fun ⟨earlier, entry'⟩ hlt other hother => ?_⟩
        obtain ⟨flaw', rfl⟩ := failsOnlyWith_entitiesOf entry' other hother.2
        exact hfirst earlier hlt flaw' ((holds_undecodable_iff h).mpr ⟨entry', hother⟩)

/-! ## Calls -/

theorem names_of_known {index : EntityIndex} (h : index.known = some names) (view : View) :
    index.names view = .ok (names, index) := by
  rw [EntityIndex.names, h]

theorem names_of_unknown {index : EntityIndex} (h : index.known = none) (view : View) :
    index.names view = (entitiesBelow view index.root).map fun names =>
      (names, ⟨index.root, some names⟩) := by
  rw [EntityIndex.names, h, map_eq_bind]
  rfl

/-- The answers to calls, each with the tree as it is by then; after a fault the index is as before. -/
def answers (index : EntityIndex) : List View → List (Except Fault (List String))
  | [] => []
  | view :: views =>
    match index.names view with
    | .ok (names, index) => .ok names :: answers index views
    | .error fault => .error fault :: answers index views

/-- **Known names are the answer to all calls.** -/
theorem answers_of_known {index : EntityIndex} (h : index.known = some names) (views : List View) :
    answers index views = views.map fun _ => .ok names := by
  induction views with
  | nil => rfl
  | cons view views ih => rw [answers, names_of_known h, List.map_cons, ← ih]

/-- A course of calls: as long as something hides the names there are faults, and then the names that the tree
of the first call without a fault exports are the answer to this call and to all later ones. -/
inductive Course (root : Path) : List View → List (Except Fault (List String)) → Prop
  | nil : Course root [] []
  | fault {view : View} {fault : Fault} {views : List View} {later : List (Except Fault (List String))}
    (hbreaks : BreaksBelow view root fault) (hlater : Course root views later) :
    Course root (view :: views) (.error fault :: later)
  | found {view : View} {names : List String} (views : List View)
    (hwhole : ∀ fault, ¬ BreaksBelow view root fault) (hlisted : Listed view root names) :
    Course root (view :: views) (.ok names :: views.map fun _ => .ok names)

/-- **Every row of calls is such a course.** -/
theorem course_answers {views : List View} (hdisk : ∀ view ∈ views, view.files.OnDisk) (root : Path) :
    Course root views (answers ⟨root, none⟩ views) := by
  -- a fault leaves the index as it was, so the later calls are a row of the same kind
  induction views with
  | nil => exact .nil
  | cons view views ih =>
    obtain ⟨hview, hviews⟩ := List.forall_mem_cons.mp hdisk
    rw [answers, names_of_unknown rfl]
    cases hnames : entitiesBelow view root with
    | error fault => exact .fault ((entitiesBelow_eq_error_iff hview).mp hnames) (ih hviews)
    | ok names =>
      simp only [Except.map]
      rw [answers_of_known rfl]
      refine .found views (fun fault hbreaks => ?_) (listed_of_entitiesBelow hview hnames)
      rw [(entitiesBelow_eq_error_iff hview).mpr hbreaks] at hnames
      cases hnames

/-- **What calls of the index answer** while the tree changes: faults as long as something hides the names, and
then always the same names, those that are exported when they are first found. So all calls answer with the
names that the first tree exports exactly if nothing hides them there. -/
theorem answers_exact (project : Path) (modelDir : String) (first : View) (later : List View)
    (hdisk : ∀ view ∈ first :: later, view.files.OnDisk) :
    let index := EntityIndex.ofProject project modelDir
    Course index.root (first :: later) (answers index (first :: later)) ∧
    ((∃ names, Listed first index.root names ∧
        answers index (first :: later) = (first :: later).map fun _ => .ok names) ↔
      ∀ fault, ¬ BreaksBelow first index.root fault) := by
  intro index
  have hcourse := course_answers hdisk index.root
  refine ⟨hcourse, ?_⟩
  change (∃ names, Listed first index.root names ∧
    answers ⟨index.root, none⟩ (first :: later) = (first :: later).map fun _ => .ok names) ↔ _
  generalize answers ⟨index.root, none⟩ (first :: later) = given at hcourse
  cases hcourse with
  | @fault _ fault _ rest hbreaks _ =>
    refine iff_of_false ?_ fun hwhole => hwhole fault hbreaks
    rintro ⟨names, -, hgiven⟩
    cases hgiven
  | @found _ names _ hwhole hlisted => exact iff_of_true ⟨names, hlisted, rfl⟩ hwhole

/-! ## Domain models -/

def hereIndex : EntityIndex := .ofProject (Path.ofString "")

/-- A tree with files in the domain model. -/
def modelTree (files : List (String × Text.Bytes)) : View := ⟨⟨[
  (["server"], .dir),
  (["server", "src"], .dir),
  (["server", "src", "domain"], .dir),
  (["server", "src", "domain", "model"], .dir)] ++
  files.map fun file => (["server", "src", "domain", "model", file.1], .file file.2 none)⟩, []⟩

def userTree : View := modelTree [("user.entity.ts", Text.encode "export class User \x7b\x7d\n")]

/-- A domain model with another entity, and a file that is no text. -/
def mixedTree : View := modelTree
  [("bad.entity.ts", [0xff]), ("good.entity.ts", Text.encode "export class Good \x7b\x7d\n")]

theorem onDisk_userTree : userTree.files.OnDisk :=
  ⟨⟨by decide +kernel, by decide +kernel⟩, ⟨by decide +kernel, by decide +kernel⟩, by decide +kernel⟩

theorem onDisk_mixedTree : mixedTree.files.OnDisk :=
  ⟨⟨by decide +kernel, by decide +kernel⟩, ⟨by decide +kernel, by decide +kernel⟩, by decide +kernel⟩

theorem textOf_user : View.textOf (Text.encode "export class User \x7b\x7d\n") =
    .ok "export class User \x7b\x7d\n" := toOption_eq_some.mp (by decide +kernel)

theorem of_holds_userTree (hread : FailsOnlyWith IsUndecodable outcome)
    (h : Holds userTree hereIndex.root parts outcome) : outcome = .ok "export class User \x7b\x7d\n" := by
  have hbelow : userTree.below hereIndex.root =
      [(["user.entity.ts"], .file (Text.encode "export class User \x7b\x7d\n") none)] := rfl
  obtain ⟨content, rules, hmem, htext⟩ := (holds_iff onDisk_userTree hread).mp h
  have hentry := hbelow ▸ (mem_entityFiles.mp hmem).2
  obtain ⟨-, hfile⟩ := Prod.mk.inj (List.mem_singleton.mp hentry)
  obtain ⟨rfl, -⟩ := Entry.file.inj hfile
  exact htext.symm.trans textOf_user

/-- The entity of the first tree stays the answer. -/
theorem answers_exact_userTree :
    (∀ view ∈ [userTree, mixedTree], view.files.OnDisk) ∧
    ∃ names, answers hereIndex [userTree, mixedTree] = [.ok names, .ok names] ∧
      ∀ name, name ∈ names ↔ name = "User" := by
  have hdisk : ∀ view ∈ [userTree, mixedTree], view.files.OnDisk := by
    simp [onDisk_userTree, onDisk_mixedTree]
  obtain ⟨-, hall⟩ := answers_exact (Path.ofString "") defaultModelDir userTree [mixedTree] hdisk
  obtain ⟨names, hlisted, hnames⟩ := hall.mpr fun fault hbreaks => by
    rcases hbreaks with ⟨hlong, -⟩ | ⟨parts, flaw, hholds, -⟩
    · exact Files.not_nameTooLong_of_isDir rfl hlong
    · have htext := of_holds_userTree (failsOnlyWith_error.mpr ⟨flaw, rfl⟩) hholds
      cases htext
  refine ⟨hdisk, names, hnames, fun name => ?_⟩
  have hexports : exportedClasses "export class User \x7b\x7d\n" = ["User"] := by decide +kernel
  rw [hlisted.listed]
  constructor
  · rintro ⟨parts, text, hholds, hexported⟩
    obtain rfl := Except.ok.inj (of_holds_userTree (failsOnlyWith_ok text) hholds)
    rw [← mem_exportedClasses, hexports] at hexported
    exact List.mem_singleton.mp hexported
  · rintro rfl
    refine ⟨["user.entity.ts"], _, ⟨by decide +kernel, ⟨_, rfl, by decide +kernel⟩, textOf_user⟩, ?_⟩
    rw [← mem_exportedClasses, hexports]
    exact List.mem_singleton.mpr rfl

/-- **A file that is no text hides the entities in all others.** -/
theorem not_forall_answers_listed :
    ¬ ∀ (project : Path) (modelDir : String) (first : View) (later : List View),
      (∀ view ∈ first :: later, view.files.OnDisk) →
        let index := EntityIndex.ofProject project modelDir
        ∃ names, Listed first index.root names ∧
          answers index (first :: later) = (first :: later).map fun _ => .ok names := by
  intro hall
  obtain ⟨names, -, hnames⟩ := hall (Path.ofString "") defaultModelDir mixedTree [] (by simp [onDisk_mixedTree])
  have hends : Ends (entitiesBelow mixedTree hereIndex.root) := by
    cases hlook : entitiesBelow mixedTree hereIndex.root with
    | ok names => exact ends_ok names
    | error fault =>
      have hfault : answers hereIndex [mixedTree] = [.error fault] := by
        rw [answers, names_of_unknown rfl, hlook]
        rfl
      cases hnames.symm.trans hfault
  have hbad : (["bad.entity.ts"], .file [0xff] none) ∈ entityFiles mixedTree hereIndex.root := by
    refine mem_entityFiles.mpr ⟨⟨_, rfl, by decide +kernel⟩, ?_⟩
    exact List.mem_cons_self
  have hshort : ¬ NameTooLong mixedTree hereIndex.root := Files.not_nameTooLong_of_isDir rfl
  rw [entitiesBelow_eq onDisk_mixedTree.storable hshort, ends_map, ends_mapM] at hends
  exact absurd (ends_iff_toBool.mp (hends _ hbad)) (by decide +kernel)

end Lintel.Project
