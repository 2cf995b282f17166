import Lintel.Proofs.Files.Collapse
import Lintel.Proofs.Policy.Documents
import Mathlib.Data.List.Sort

/-!
# Policies of one category

A scan may be restricted to one category. Its name is read as a path from the root, so a name that is none,
such as `..` or `web/`, leads to a directory that is not that of a category, and its policies are taken for
those of the category.

* `IsPolicyIn`, `BreaksIn`: what stands in one directory; `ExactlyIn`: the row of its policies;
* `exactlyIn_of_policiesIn`, `policiesIn_eq_error_iff`: what a directory yields;
* `restricted_eq_filter_iff`: when the restricted scan has the policies of the category among all;
* **`scanDocuments_restricted`**: what the restricted scan yields, and when that is right;
  `not_forall_restricted_eq_filter`: it need not be.
-/

namespace Lintel.Policy

open Files (IsName NameTooLong Path View)

variable {view : View} {root dir : Path} {category id : String} {policy : Lintel.Policy} {fault : Fault}
  {found : List Lintel.Policy}

/-! ## The policies in a directory -/

/-- In the directory stands a directory with this description. -/
structure IsPolicyIn (view : View) (dir : Path) (policy : Lintel.Policy) : Prop where
  category : policy.category = dir.name
  id : IsName policy.id
  path : policy.path = dir.child policy.id
  described : IsDescribed view (policy.path.child "meta.json") policy.about

/-- In the directory stands a directory whose description is read with a fault. -/
structure BreaksIn (view : View) (dir : Path) (id : String) (fault : Fault) : Prop where
  named : IsName id
  breaks : BreaksReading view ((dir.child id).child "meta.json") fault

/-- The row has every policy in the directory, and nothing else, in the strict order of ids. -/
structure ExactlyIn (view : View) (dir : Path) (found : List Lintel.Policy) : Prop where
  listed : ∀ policy, policy ∈ found ↔ IsPolicyIn view dir policy
  sorted : found.Pairwise fun p q => p.id < q.id

/-- No directory in the directory has a description. -/
structure Bare (view : View) (dir : Path) : Prop where
  noPolicy : ∀ policy, ¬ IsPolicyIn view dir policy
  unbroken : ∀ id fault, ¬ BreaksIn view dir id fault

theorem policyIn_eq_some_iff : policyIn view dir id = .ok (some policy) ↔
    ∃ about, IsDescribed view ((dir.child id).child "meta.json") about ∧
      policy = ⟨id, dir.name, dir.child id, about⟩ := by
  rw [policyIn_eq, map_eq_ok]
  constructor
  · rintro ⟨option, hread, hpolicy⟩
    obtain ⟨about, rfl, rfl⟩ := Option.map_eq_some_iff.mp hpolicy
    exact ⟨about, readMeta_eq_some_iff.mp hread, rfl⟩
  · rintro ⟨about, hdescribed, rfl⟩
    exact ⟨some about, readMeta_eq_some_iff.mpr hdescribed, rfl⟩

theorem policyIn_eq_error_iff : policyIn view dir id = .error fault ↔
    BreaksReading view ((dir.child id).child "meta.json") fault := by
  rw [policyIn_eq, map_eq_error, readMeta_eq_error_iff]

theorem isPolicyIn_child (hname : IsName category) : IsPolicyIn view (root.child category) policy ↔
    IsPolicy view root policy ∧ policy.category = category := by
  have hdir : (root.child category).name = category := by simp [Path.name, Path.child]
  constructor
  · intro h
    obtain rfl := h.category.trans hdir
    exact ⟨⟨hname, h.id, h.path, h.described⟩, rfl⟩
  · rintro ⟨h, rfl⟩
    exact ⟨hdir.symm, h.id, h.path, h.described⟩

section Directory

variable (hsound : view.files.Sound) (hstorable : view.files.Storable)

include hsound hstorable

theorem mem_directoriesIn_of_isFile (hid : IsName id)
    (hfile : view.isFile ((dir.child id).child "meta.json") = true) : id ∈ directoriesIn view dir :=
  (mem_directoriesIn hsound hstorable).mpr ⟨hid, Files.isDir_of_isFile_child isName_metaJson hfile⟩

theorem isPolicyIn_iff : IsPolicyIn view dir policy ↔
    ∃ id ∈ directoriesIn view dir, policyIn view dir id = .ok (some policy) := by
  constructor
  · intro h
    have hdescribed := h.path ▸ h.described
    refine ⟨policy.id, mem_directoriesIn_of_isFile hsound hstorable h.id hdescribed.isFile, ?_⟩
    refine policyIn_eq_some_iff.mpr ⟨policy.about, hdescribed, ?_⟩
    rw [← h.category, ← h.path]
  · rintro ⟨id, hmem, hpolicy⟩
    obtain ⟨about, hdescribed, rfl⟩ := policyIn_eq_some_iff.mp hpolicy
    exact ⟨rfl, ((mem_directoriesIn hsound hstorable).mp hmem).1, rfl, hdescribed⟩

theorem breaksIn_iff : BreaksIn view dir id fault ↔
    id ∈ directoriesIn view dir ∧ policyIn view dir id = .error fault := by
  rw [policyIn_eq_error_iff]
  constructor
  · exact fun h => ⟨mem_directoriesIn_of_isFile hsound hstorable h.named h.breaks.isFile, h.breaks⟩
  · exact fun ⟨hmem, hbreaks⟩ => ⟨((mem_directoriesIn hsound hstorable).mp hmem).1, hbreaks⟩

/-- **The policies that a directory yields** are exactly those that stand in it. -/
theorem exactlyIn_of_policiesIn (h : ¬ NameTooLong view dir) (hfound : policiesIn view dir = .ok found) :
    ExactlyIn view dir found := by
  rw [policiesIn_of_not_nameTooLong hsound hstorable h, map_eq_ok] at hfound
  obtain ⟨options, hoptions, rfl⟩ := hfound
  constructor
  · intro policy
    rw [mem_reduceOption_of_mapM hoptions, isPolicyIn_iff hsound hstorable]
  · have hids : (options.reduceOption.map (·.id)).Sublist (directoriesIn view dir) := by
      refine sublist_reduceOption_of_mapM hoptions fun id _ policy hpolicy => ?_
      obtain ⟨about, -, rfl⟩ := policyIn_eq_some_iff.mp hpolicy
      rfl
    exact List.pairwise_map.mp ((pairwise_directoriesIn hsound dir).sublist hids)

/-- **A directory fails with the first description that is read with a fault.** -/
theorem policiesIn_eq_error_iff (h : ¬ NameTooLong view dir) :
    policiesIn view dir = .error fault ↔ ∃ id, BreaksIn view dir id fault ∧
      ∀ earlier, earlier < id → ∀ other, ¬ BreaksIn view dir earlier other := by
  rw [policiesIn_of_not_nameTooLong hsound hstorable h, map_eq_error]
  exact mapM_eq_error_iff_first (fun _ _ => lt_asymm) (pairwise_directoriesIn hsound dir)
    fun _ _ => breaksIn_iff hsound hstorable

theorem policiesIn_eq_nil_iff (h : ¬ NameTooLong view dir) :
    policiesIn view dir = .ok [] ↔ Bare view dir := by
  constructor
  · intro hnone
    refine ⟨fun policy hpolicy => ?_, fun id fault hbreaks => ?_⟩
    · have hmem := ((exactlyIn_of_policiesIn hsound hstorable h hnone).listed policy).mpr hpolicy
      exact absurd hmem List.not_mem_nil
    · obtain ⟨hmem, hfault⟩ := (breaksIn_iff hsound hstorable).mp hbreaks
      have hends : Ends ((directoriesIn view dir).mapM (policyIn view dir)) := by
        rw [← ends_map (g := List.reduceOption), ← policiesIn_of_not_nameTooLong hsound hstorable h, hnone]
        exact ends_ok []
      exact not_ends_error fault (hfault ▸ ends_mapM.mp hends id hmem)
  · intro hbare
    cases hfound : policiesIn view dir with
    | ok found =>
      have hexact := exactlyIn_of_policiesIn hsound hstorable h hfound
      have hnil : found = [] := List.eq_nil_iff_forall_not_mem.mpr fun policy hmem =>
        hbare.noPolicy policy ((hexact.listed policy).mp hmem)
      rw [hnil]
    | error fault =>
      obtain ⟨id, hbreaks, -⟩ := (policiesIn_eq_error_iff hsound hstorable h).mp hfound
      exact absurd hbreaks (hbare.unbroken id fault)

end Directory

/-! ## The restricted scan -/

def categoryPath (root : Path) (category : String) : Path := root.join (.ofString category)

theorem categoryPath_of_isName (h : IsName category) : categoryPath root category = root.child category := by
  have hparts : (Path.ofString category).parts = [category] := by
    rw [Files.parts_ofString, Files.componentsOf_of_isName h]
  have hrelative : (Path.ofString category).isAbsolute = false := by
    rw [Files.isAbsolute_ofString, decide_eq_false_iff_not]
    exact fun hslash => h.2.2.2 (List.mem_of_mem_head? hslash)
  simp [categoryPath, Path.join, Path.child, hrelative, hparts]

theorem scanDocuments_of_ne (hstorable : view.files.Storable) (hroot : view.isDir root = true)
    (hne : category ≠ "") :
    scanDocuments view root category = policiesIn view (categoryPath root category) := by
  have hcategories : categories view root category = [categoryPath root category] := by
    simp [categories, hne, categoryPath]
  rw [scanDocuments, Files.askDir_of_isDir hstorable hroot, ok_bind, if_pos rfl, hcategories, List.mapM_cons,
    List.mapM_nil]
  cases policiesIn view (categoryPath root category) with
  | error fault => rfl
  | ok found => simp [ok_bind, pure_eq_ok]

theorem scanDocuments_of_not_isDir (hstorable : view.files.Storable) (hroot : view.isDir root = false)
    (hshort : ¬ NameTooLong view root) (category : String) : scanDocuments view root category = .ok [] := by
  rw [scanDocuments, Files.askDir_of_not_nameTooLong hstorable hshort, hroot]
  rfl

section Restricted

variable (hsound : view.files.Sound) (hstorable : view.files.Storable)

include hsound hstorable

theorem policiesIn_eq_filter {all : List Lintel.Policy} (hall : scanDocuments view root = .ok all)
    (hroot : view.isDir root = true) (hname : IsName category)
    (hshort : ¬ NameTooLong view (root.child category)) :
    policiesIn view (root.child category) = .ok (all.filter (·.category = category)) := by
  have hrootShort := Files.not_nameTooLong_of_isDir hroot
  have hexact := exact_of_scanDocuments hsound hstorable hrootShort hall
  cases hfound : policiesIn view (root.child category) with
  | error fault =>
    -- the fault would be one of the whole scan
    obtain ⟨id, hbreaks, -⟩ := (policiesIn_eq_error_iff hsound hstorable hshort).mp hfound
    have hat : BreaksAt view root (category, id) fault := ⟨hname, hbreaks.named, hbreaks.breaks⟩
    obtain ⟨hmem, hfault⟩ := (breaksAt_iff hsound hstorable).mp hat
    have hends : Ends ((policyDirectories view root).mapM (policyAt view root)) := by
      rw [← ends_map (g := List.reduceOption), ← scanDocuments_eq hsound hstorable hrootShort, hall]
      exact ends_ok all
    exact absurd (hfault ▸ ends_mapM.mp hends _ hmem) (not_ends_error fault)
  | ok found =>
    have hin := exactlyIn_of_policiesIn hsound hstorable hshort hfound
    have hmem : ∀ policy, policy ∈ found ↔ policy ∈ all.filter (·.category = category) := by
      intro policy
      rw [hin.listed, isPolicyIn_child hname, List.mem_filter, hexact.listed, decide_eq_true_eq]
    have hsorted : (all.filter (·.category = category)).Pairwise fun p q => p.id < q.id := by
      rw [List.pairwise_filter]
      refine hexact.sorted.imp fun {p q} hbefore hp hq => ?_
      rw [decide_eq_true_eq] at hp hq
      rcases hbefore with hlt | ⟨-, hlt⟩
      · rw [hp, hq] at hlt
        exact absurd hlt (lt_irrefl category)
      · exact hlt
    have : Std.Irrefl fun p q : Lintel.Policy => p.id < q.id := ⟨fun p => lt_irrefl p.id⟩
    rw [hin.sorted.eq_of_mem_iff hsorted (fun policy => hmem policy)]

/-- **The restricted scan has the policies of the category among all** exactly if no name on the way is too
long, and the category is a name or leads to a directory without policies. -/
theorem restricted_eq_filter_iff {all : List Lintel.Policy} (hall : scanDocuments view root = .ok all)
    (hroot : view.isDir root = true) (hne : category ≠ "") :
    scanDocuments view root category = .ok (all.filter (·.category = category)) ↔
      ¬ NameTooLong view (categoryPath root category) ∧
        (IsName category ∨ Bare view (categoryPath root category)) := by
  rw [scanDocuments_of_ne hstorable hroot hne]
  by_cases hlong : NameTooLong view (categoryPath root category)
  · have hfault : policiesIn view (categoryPath root category) =
        .error (.file .longName (categoryPath root category).text) := by
      rw [policiesIn, Files.askDir_of_nameTooLong hlong, error_bind]
    simp [hfault, hlong]
  · rw [and_iff_right hlong]
    by_cases hname : IsName category
    · rw [categoryPath_of_isName hname] at hlong ⊢
      exact iff_of_true (policiesIn_eq_filter hsound hstorable hall hroot hname hlong) (.inl hname)
    · -- all policies stand in directories with names, so none is of this category
      have hnone : all.filter (·.category = category) = [] := by
        rw [List.filter_eq_nil_iff]
        intro policy hmem heq
        have hexact := exact_of_scanDocuments hsound hstorable (Files.not_nameTooLong_of_isDir hroot) hall
        exact hname (of_decide_eq_true heq ▸ ((hexact.listed policy).mp hmem).category)
      rw [hnone, policiesIn_eq_nil_iff hsound hstorable hlong, or_iff_right hname]

end Restricted

/-- **The restricted scan has exactly the policies of one directory**, the one that the name of the category
leads to from the root, and fails with the first description there that is read with a fault. These are the
policies of this category among all exactly if the category is a name, or the directory has no policies; a
name that is too long makes it fail as well. -/
theorem scanDocuments_restricted {view : View} (hsound : view.files.Sound)
    (hstorable : view.files.Storable) (root : Path) {category : String} (hne : category ≠ "") :
    let dir := categoryPath root category
    (IsName category → dir = root.child category) ∧
    (NameTooLong view root → scanDocuments view root category = .error (.file .longName root.text)) ∧
    (¬ NameTooLong view root → view.isDir root = false → scanDocuments view root category = .ok []) ∧
    (view.isDir root = true →
      (NameTooLong view dir → scanDocuments view root category = .error (.file .longName dir.text)) ∧
      (¬ NameTooLong view dir →
        (∀ found, scanDocuments view root category = .ok found → ExactlyIn view dir found) ∧
        ∀ fault, scanDocuments view root category = .error fault ↔ ∃ id, BreaksIn view dir id fault ∧
          ∀ earlier, earlier < id → ∀ other, ¬ BreaksIn view dir earlier other)) ∧
    ∀ all, scanDocuments view root = .ok all →
      (scanDocuments view root category = .ok (all.filter (·.category = category)) ↔
        view.isDir root = false ∨ (¬ NameTooLong view dir ∧ (IsName category ∨ Bare view dir))) := by
  intro dir
  have hshort {all : List Lintel.Policy} (hall : scanDocuments view root = .ok all) :
      ¬ NameTooLong view root := by
    intro hlong
    rw [scanDocuments, Files.askDir_of_nameTooLong hlong] at hall
    cases hall
  refine ⟨categoryPath_of_isName, fun hlong => ?_, fun hshort hroot => ?_, fun hroot => ⟨fun hlong => ?_, ?_⟩,
    fun all hall => ?_⟩
  · rw [scanDocuments, Files.askDir_of_nameTooLong hlong]
    rfl
  · exact scanDocuments_of_not_isDir hstorable hroot hshort category
  · rw [scanDocuments_of_ne hstorable hroot hne, policiesIn, Files.askDir_of_nameTooLong hlong]
    rfl
  · intro hlong
    rw [scanDocuments_of_ne hstorable hroot hne]
    exact ⟨fun found => exactlyIn_of_policiesIn hsound hstorable hlong,
      fun fault => policiesIn_eq_error_iff hsound hstorable hlong⟩
  · cases hroot : view.isDir root with
    | true => simpa using restricted_eq_filter_iff hsound hstorable hall hroot hne
    | false =>
      have hnone : all = [] :=
        Except.ok.inj (hall.symm.trans (scanDocuments_of_not_isDir hstorable hroot (hshort hall) ""))
      rw [hnone, scanDocuments_of_not_isDir hstorable hroot (hshort hall)]
      simp

theorem scanDocuments_restricted_mixedShelf :
    let root := Path.ofString "docs"
    mixedShelf.files.Sound ∧ mixedShelf.files.Storable ∧ "web" ≠ "" ∧
      ∃ found, scanDocuments mixedShelf root "web" = .ok found ∧
        ExactlyIn mixedShelf (root.child "web") found ∧
        policyOf root "web" "good" ⟨"Good", "é", []⟩ ∈ found ∧
        ∀ about, policyOf root "server" "zeta" about ∉ found := by
  intro root
  have hsound : mixedShelf.files.Sound := ⟨by decide +kernel, by decide +kernel⟩
  have hstorable : mixedShelf.files.Storable := ⟨by decide +kernel, by decide +kernel⟩
  obtain ⟨hdir, -, -, hscan, -⟩ := scanDocuments_restricted hsound hstorable root (by decide : "web" ≠ "")
  rw [hdir (by decide +kernel)] at hscan
  obtain ⟨hexact, herror⟩ := (hscan rfl).2 (Files.not_nameTooLong_of_isDir rfl)
  have hweb : mixedShelf.locate (root.child "web") = .ok (["docs", "web"], .dir) := rfl
  have hread : ∀ id ∈ ["partial", "bare", "good"],
      (policyIn mixedShelf (root.child "web") id).toBool = true := by decide +kernel
  cases hfound : scanDocuments mixedShelf root "web" with
  | error fault =>
    obtain ⟨id, hbreaks, -⟩ := (herror fault).mp hfound
    obtain ⟨hmem, hfault⟩ := (breaksIn_iff hsound hstorable).mp hbreaks
    have hid : id ∈ ["partial", "bare", "good"] := by
      simpa [mixedShelf, written] using mem_entries_of_mem_directoriesIn hsound hstorable hweb hmem
    exact absurd (ends_iff_toBool.mpr (hread id hid)) (hfault ▸ not_ends_error fault)
  | ok found =>
    have hlisted := (hexact found hfound).listed
    refine ⟨hsound, hstorable, by decide, found, rfl, hexact found hfound, ?_, fun about hmem => ?_⟩
    · exact (hlisted _).mpr ⟨by decide +kernel, by decide +kernel, rfl,
        readMeta_eq_some_iff.mp (toOption_eq_some.mp (by decide +kernel))⟩
    · exact absurd (show "server" = "web" from ((hlisted _).mp hmem).category) (by decide)

/-- An empty shelf with a described directory beside it. -/
def emptyShelf : View := ⟨⟨[
  (["docs"], .dir),
  (["draft"], .dir),
  (["draft", "meta.json"],
    written "\x7b\"label\": \"Draft\", \"description\": \"not a policy\"\x7d")]⟩, []⟩

/-- **The restricted scan may list policies that are not below the root**: the category `..` has those beside
an empty shelf. -/
theorem not_forall_restricted_eq_filter :
    ¬ ∀ (view : View) (root : Path) (category : String) (all : List Lintel.Policy), view.files.Sound →
      view.files.Storable → category ≠ "" → scanDocuments view root = .ok all →
        scanDocuments view root category = .ok (all.filter (·.category = category)) := by
  intro hall
  let root := Path.ofString "docs"
  have hsound : emptyShelf.files.Sound := ⟨by decide +kernel, by decide +kernel⟩
  have hstorable : emptyShelf.files.Storable := ⟨by decide +kernel, by decide +kernel⟩
  have hroot : emptyShelf.isDir root = true := rfl
  have hplace : emptyShelf.locate root = .ok (["docs"], .dir) := rfl
  have hempty : directoriesIn emptyShelf root = [] := by
    rw [List.eq_nil_iff_forall_not_mem]
    intro name hname
    simpa [emptyShelf, written] using mem_entries_of_mem_directoriesIn hsound hstorable hplace hname
  have hnone : scanDocuments emptyShelf root = .ok [] := by
    rw [scanDocuments_eq hsound hstorable (Files.not_nameTooLong_of_isDir hroot), policyDirectories, hempty]
    rfl
  have hfilter := hall emptyShelf root ".." [] hsound hstorable (by decide) hnone
  obtain ⟨-, hname | hbare⟩ :=
    (restricted_eq_filter_iff hsound hstorable hnone hroot (by decide)).mp hfilter
  · exact absurd hname (by decide +kernel)
  · let draft : Lintel.Policy :=
      ⟨"draft", "..", (categoryPath root "..").child "draft", ⟨"Draft", "not a policy", []⟩⟩
    exact hbare.noPolicy draft ⟨by decide +kernel, by decide +kernel, rfl,
      readMeta_eq_some_iff.mp (toOption_eq_some.mp (by decide +kernel))⟩

end Lintel.Policy
