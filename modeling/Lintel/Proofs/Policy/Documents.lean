import Lintel.Proofs.Policy.Description
import Lintel.Proofs.Policy.Exact

/-!
# The exact row of policies

The policies below a root are the directories two levels below it that hold a description, each one once, in
the order of their categories and ids (`ExactPolicies`). A file with a description that is read with a fault
makes the whole row fail.

* `mem_policyDirectories`, `pairwise_policyDirectories`: the directories that are looked at, in order;
* `scanDocuments_eq`: the row of policies is what these directories yield, one after another;
* **`scanDocuments_exact`**: when there is a row of policies, and that it is exact;
  `not_forall_scanDocuments_exact`: there need not be one.
-/

namespace Lintel.Policy

open Files (IsName NameTooLong Path View)

variable {view : View} {root path : Path} {category id name : String} {fault : Fault}

/-! ## Directories -/

theorem mem_directoriesIn_iff : name ∈ directoriesIn view path ↔ (name, .dir) ∈ entriesOf view path := by
  unfold directoriesIn
  rw [List.mem_filterMap]
  constructor
  · rintro ⟨⟨found, _ | ⟨content, rules⟩⟩, hmem, hfound⟩
    · exact Option.some.inj hfound ▸ hmem
    · cases hfound
  · exact fun hmem => ⟨_, hmem, rfl⟩

theorem directoriesIn_sublist (view : View) (path : Path) :
    (directoriesIn view path).Sublist ((entriesOf view path).map (·.1)) := by
  refine filterMap_sublist_map (fun e name hname => ?_) _
  obtain ⟨found, _ | ⟨content, rules⟩⟩ := e
  · exact Option.some.inj hname
  · cases hname

theorem pairwise_directoriesIn (hsound : view.files.Sound) (path : Path) :
    (directoriesIn view path).Pairwise (· < ·) :=
  (pairwise_entriesOf hsound path).sublist (directoriesIn_sublist view path)

theorem mem_directoriesIn (hsound : view.files.Sound) (hstorable : view.files.Storable) :
    name ∈ directoriesIn view path ↔ IsName name ∧ view.isDir (path.child name) = true := by
  rw [mem_directoriesIn_iff, mem_entriesOf hsound hstorable, Files.isDir_iff]

theorem directoriesIn_eq_nil (hsound : view.files.Sound) (hstorable : view.files.Storable)
    (h : view.isDir path = false) : directoriesIn view path = [] := by
  rw [List.eq_nil_iff_forall_not_mem]
  intro name hname
  obtain ⟨hisName, hdir⟩ := (mem_directoriesIn hsound hstorable).mp hname
  rw [Files.isDir_of_isDir_child hisName hdir] at h
  cases h

theorem mem_entries_of_mem_directoriesIn (hsound : view.files.Sound) (hstorable : view.files.Storable)
    {place : Files.Place} (hplace : view.locate path = .ok (place, .dir))
    (h : name ∈ directoriesIn view path) : (place ++ [name], .dir) ∈ view.files.entries := by
  obtain ⟨hname, found, hfound⟩ :=
    (mem_entriesOf hsound hstorable).mp (mem_directoriesIn_iff.mp h)
  obtain ⟨place', hplace', -, rfl, hentry⟩ := (Files.locate_child hname).mp hfound
  obtain ⟨rfl, -⟩ := Prod.mk.inj (Except.ok.inj (hplace.symm.trans hplace'))
  exact (Files.entry?_append_singleton hsound).mp hentry

/-- The directories two levels below a root, with the names of both levels, in order. -/
def policyDirectories (view : View) (root : Path) : List (String × String) :=
  (directoriesIn view root).flatMap fun category =>
    (directoriesIn view (root.child category)).map fun id => (category, id)

/-- One directory comes before another: by its category, or by its id in the same category. -/
def Before (a b : String × String) : Prop := a.1 < b.1 ∨ a.1 = b.1 ∧ a.2 < b.2

theorem Before.asymm {a b : String × String} (h : Before a b) : ¬ Before b a := by
  rintro (hba | ⟨heq, hba⟩) <;> rcases h with hab | ⟨heq', hab⟩
  · exact lt_asymm hba hab
  · exact absurd heq' hba.ne'
  · exact absurd heq hab.ne'
  · exact lt_asymm hba hab

/-- **The directories come in strict order.** -/
theorem pairwise_policyDirectories (hsound : view.files.Sound) (root : Path) :
    (policyDirectories view root).Pairwise Before := by
  unfold policyDirectories
  rw [List.pairwise_flatMap]
  constructor
  · intro category _
    rw [List.pairwise_map]
    exact (pairwise_directoriesIn hsound _).imp fun hlt => .inr ⟨rfl, hlt⟩
  · refine (pairwise_directoriesIn hsound root).imp fun {a b} hlt => ?_
    intro x hx y hy
    obtain ⟨_, -, rfl⟩ := List.mem_map.mp hx
    obtain ⟨_, -, rfl⟩ := List.mem_map.mp hy
    exact .inl hlt

/-- The file with the description of a directory. -/
def metaPath (root : Path) (category id : String) : Path :=
  ((root.child category).child id).child "meta.json"

theorem isName_metaJson : IsName "meta.json" := by decide

/-- **A directory with a description is looked at.** -/
theorem mem_policyDirectories (hsound : view.files.Sound) (hstorable : view.files.Storable)
    (hcategory : IsName category) (hid : IsName id)
    (hfile : view.isFile (metaPath root category id) = true) :
    (category, id) ∈ policyDirectories view root := by
  have hdirectory := Files.isDir_of_isFile_child isName_metaJson hfile
  have hparent := Files.isDir_of_isDir_child hid hdirectory
  refine List.mem_flatMap.mpr ⟨category, (mem_directoriesIn hsound hstorable).mpr ⟨hcategory, hparent⟩, ?_⟩
  exact List.mem_map.mpr ⟨id, (mem_directoriesIn hsound hstorable).mpr ⟨hid, hdirectory⟩, rfl⟩

theorem isName_of_mem_policyDirectories (hsound : view.files.Sound) (hstorable : view.files.Storable)
    (h : (category, id) ∈ policyDirectories view root) : IsName category ∧ IsName id := by
  obtain ⟨_, hcategory, h⟩ := List.mem_flatMap.mp h
  obtain ⟨_, hid, heq⟩ := List.mem_map.mp h
  obtain ⟨rfl, rfl⟩ := Prod.mk.inj heq
  exact ⟨((mem_directoriesIn hsound hstorable).mp hcategory).1,
    ((mem_directoriesIn hsound hstorable).mp hid).1⟩

/-! ## Policies -/

/-- The policy that a directory is, if it says this of itself. -/
def policyOf (root : Path) (category id : String) (about : PolicyMeta) : Lintel.Policy :=
  ⟨id, category, (root.child category).child id, about⟩

/-- What a directory yields. -/
def policyAt (view : View) (root : Path) (place : String × String) :
    Except Fault (Option Lintel.Policy) :=
  policyIn view (root.child place.1) place.2

theorem policyIn_eq (view : View) (dir : Path) (id : String) :
    policyIn view dir id = (readMeta view ((dir.child id).child "meta.json")).map
      (Option.map fun about => ⟨id, dir.name, dir.child id, about⟩) := by
  unfold policyIn
  cases hfile : view.isFile ((dir.child id).child "meta.json") with
  | false =>
    rw [readMeta_of_not_isFile hfile]
    simp [hfile]
    rfl
  | true =>
    simp only [hfile, if_true]
    exact (map_eq_bind _ _).symm

theorem policyAt_eq (view : View) (root : Path) (category id : String) :
    policyAt view root (category, id) =
      (readMeta view (metaPath root category id)).map (Option.map (policyOf root category id)) := by
  have hname : (root.child category).name = category := by simp [Path.name, Path.child]
  unfold policyAt
  rw [policyIn_eq, hname]
  rfl

theorem policyAt_eq_some_iff {policy : Lintel.Policy} :
    policyAt view root (category, id) = .ok (some policy) ↔
      ∃ about, IsDescribed view (metaPath root category id) about ∧
        policy = policyOf root category id about := by
  rw [policyAt_eq, map_eq_ok]
  constructor
  · rintro ⟨option, hread, hpolicy⟩
    obtain ⟨about, rfl, rfl⟩ := Option.map_eq_some_iff.mp hpolicy
    exact ⟨about, readMeta_eq_some_iff.mp hread, rfl⟩
  · rintro ⟨about, hdescribed, rfl⟩
    exact ⟨some about, readMeta_eq_some_iff.mpr hdescribed, rfl⟩

theorem policyAt_eq_error_iff :
    policyAt view root (category, id) = .error fault ↔
      BreaksReading view (metaPath root category id) fault := by
  rw [policyAt_eq, map_eq_error, readMeta_eq_error_iff]

/-! ## The row of policies -/

theorem policiesIn_of_not_nameTooLong (hsound : view.files.Sound) (hstorable : view.files.Storable)
    {dir : Path} (h : ¬ NameTooLong view dir) : policiesIn view dir =
      ((directoriesIn view dir).mapM (policyIn view dir)).map List.reduceOption := by
  rw [policiesIn, Files.askDir_of_not_nameTooLong hstorable h, ok_bind]
  cases hdir : view.isDir dir with
  | false =>
    rw [directoriesIn_eq_nil hsound hstorable hdir]
    rfl
  | true =>
    rw [if_pos rfl, map_eq_bind]
    rfl

theorem policiesIn_eq (hsound : view.files.Sound) (hstorable : view.files.Storable)
    (h : view.isDir (root.child category) = true) :
    policiesIn view (root.child category) =
      (((directoriesIn view (root.child category)).map fun id => (category, id)).mapM
        (policyAt view root)).map List.reduceOption := by
  rw [policiesIn_of_not_nameTooLong hsound hstorable (Files.not_nameTooLong_of_isDir h), List.mapM_map]
  rfl

/-- **The row of policies is what the directories yield, one after another.** -/
theorem scanDocuments_eq (hsound : view.files.Sound) (hstorable : view.files.Storable)
    (h : ¬ NameTooLong view root) : scanDocuments view root =
      ((policyDirectories view root).mapM (policyAt view root)).map List.reduceOption := by
  rw [scanDocuments, Files.askDir_of_not_nameTooLong hstorable h, ok_bind]
  cases hroot : view.isDir root with
  | false =>
    rw [policyDirectories, directoriesIn_eq_nil hsound hstorable hroot]
    rfl
  | true =>
    have hgroups : ∀ category ∈ directoriesIn view root,
        (policiesIn view ∘ root.child) category =
          (((directoriesIn view (root.child category)).map fun id => (category, id)).mapM
            (policyAt view root)).map List.reduceOption := fun category hcategory =>
      policiesIn_eq hsound hstorable ((mem_directoriesIn hsound hstorable).mp hcategory).2
    have hcategories : categories view root "" = (directoriesIn view root).map root.child := rfl
    rw [if_pos rfl, hcategories, List.mapM_map, policyDirectories, ← mapM_groups hgroups, map_eq_bind]
    rfl

/-- The policy stands below the root: two levels below it is a directory with this description. -/
structure IsPolicy (view : View) (root : Path) (policy : Lintel.Policy) : Prop where
  category : IsName policy.category
  id : IsName policy.id
  path : policy.path = (root.child policy.category).child policy.id
  described : IsDescribed view (policy.path.child "meta.json") policy.about

/-- Two levels below the root is a directory whose description is read with a fault. -/
structure BreaksAt (view : View) (root : Path) (place : String × String) (fault : Fault) : Prop where
  category : IsName place.1
  id : IsName place.2
  breaks : BreaksReading view (metaPath root place.1 place.2) fault

/-- The row has every policy below the root, and nothing else, in the strict order of categories and
ids. -/
structure ExactPolicies (view : View) (root : Path) (found : List Lintel.Policy) : Prop where
  listed : ∀ policy, policy ∈ found ↔ IsPolicy view root policy
  sorted : found.Pairwise fun p q => Before (p.category, p.id) (q.category, q.id)

section Exact

variable (hsound : view.files.Sound) (hstorable : view.files.Storable)

include hsound hstorable

theorem isPolicy_iff {policy : Lintel.Policy} : IsPolicy view root policy ↔
    ∃ place ∈ policyDirectories view root, policyAt view root place = .ok (some policy) := by
  constructor
  · intro h
    have hdescribed := h.path ▸ h.described
    refine ⟨(policy.category, policy.id),
      mem_policyDirectories hsound hstorable h.category h.id hdescribed.isFile, ?_⟩
    refine policyAt_eq_some_iff.mpr ⟨policy.about, hdescribed, ?_⟩
    rw [policyOf, ← h.path]
  · rintro ⟨⟨category, id⟩, hmem, hpolicy⟩
    obtain ⟨about, hdescribed, rfl⟩ := policyAt_eq_some_iff.mp hpolicy
    obtain ⟨hcategory, hid⟩ := isName_of_mem_policyDirectories hsound hstorable hmem
    exact ⟨hcategory, hid, rfl, hdescribed⟩

theorem breaksAt_iff {place : String × String} : BreaksAt view root place fault ↔
    place ∈ policyDirectories view root ∧ policyAt view root place = .error fault := by
  constructor
  · intro h
    exact ⟨mem_policyDirectories hsound hstorable h.category h.id h.breaks.isFile,
      policyAt_eq_error_iff.mpr h.breaks⟩
  · rintro ⟨hmem, hfault⟩
    obtain ⟨hcategory, hid⟩ := isName_of_mem_policyDirectories hsound hstorable hmem
    exact ⟨hcategory, hid, policyAt_eq_error_iff.mp hfault⟩

/-- **If there is a row of policies, it is exact.** -/
theorem exact_of_scanDocuments (h : ¬ NameTooLong view root) {found : List Lintel.Policy}
    (hfound : scanDocuments view root = .ok found) : ExactPolicies view root found := by
  rw [scanDocuments_eq hsound hstorable h, map_eq_ok] at hfound
  obtain ⟨options, hoptions, rfl⟩ := hfound
  constructor
  · intro policy
    rw [mem_reduceOption_of_mapM hoptions, isPolicy_iff hsound hstorable]
  · have hkeys : (options.reduceOption.map fun policy => (policy.category, policy.id)).Sublist
        (policyDirectories view root) := by
      refine sublist_reduceOption_of_mapM hoptions fun place _ policy hpolicy => ?_
      obtain ⟨about, -, rfl⟩ := policyAt_eq_some_iff.mp hpolicy
      rfl
    exact List.pairwise_map.mp ((pairwise_policyDirectories hsound root).sublist hkeys)

/-- **The row of policies fails with the first description that is read with a fault.** -/
theorem scanDocuments_eq_error_iff (h : ¬ NameTooLong view root) :
    scanDocuments view root = .error fault ↔ ∃ place, BreaksAt view root place fault ∧
      ∀ earlier, Before earlier place → ∀ other, ¬ BreaksAt view root earlier other := by
  rw [scanDocuments_eq hsound hstorable h, map_eq_error]
  exact mapM_eq_error_iff_first (fun _ _ => Before.asymm) (pairwise_policyDirectories hsound root)
    fun _ _ => breaksAt_iff hsound hstorable

end Exact

/-- **The row of policies is exact** if there is one; there is one if no description is read with a fault,
and otherwise the first such fault is what comes of it. Only if a name in the root is longer than a disk
allows, there is a fault anyway. -/
theorem scanDocuments_exact {view : View} (hsound : view.files.Sound) (hstorable : view.files.Storable)
    (root : Path) :
    (NameTooLong view root → scanDocuments view root = .error (.file .longName root.text)) ∧
    (¬ NameTooLong view root →
      (Ends (scanDocuments view root) ↔ ∀ place fault, ¬ BreaksAt view root place fault) ∧
      (∀ found, scanDocuments view root = .ok found → ExactPolicies view root found) ∧
      ∀ fault, scanDocuments view root = .error fault ↔ ∃ place, BreaksAt view root place fault ∧
        ∀ earlier, Before earlier place → ∀ other, ¬ BreaksAt view root earlier other) := by
  constructor
  · intro hlong
    rw [scanDocuments, Files.askDir_of_nameTooLong hlong]
    rfl
  · intro hshort
    refine ⟨?_, fun found => exact_of_scanDocuments hsound hstorable hshort,
      fun fault => scanDocuments_eq_error_iff hsound hstorable hshort⟩
    rw [scanDocuments_eq hsound hstorable hshort, ends_map, ends_mapM]
    constructor
    · intro hall place fault hbreaks
      obtain ⟨hmem, hfault⟩ := (breaksAt_iff hsound hstorable).mp hbreaks
      exact not_ends_error fault (hfault ▸ hall place hmem)
    · intro hnone place hmem
      cases hplace : policyAt view root place with
      | ok option => exact ends_ok option
      | error fault => exact absurd ((breaksAt_iff hsound hstorable).mpr ⟨hmem, hplace⟩) (hnone place fault)

/-! ## Two shelves of policies -/

/-- A file with a text. -/
def written (text : String) : Entry := .file (Text.encode text) none

/-- A shelf with policies and with other directories. -/
def mixedShelf : View := ⟨⟨[
  (["docs"], .dir),
  (["docs", "web"], .dir),
  (["docs", "web", "partial"], .dir),
  (["docs", "web", "partial", "meta.json"], written "\x7b\"label\": \"No description\"\x7d"),
  (["docs", "web", "bare"], .dir),
  (["docs", "web", "bare", "10-overview.md"], written "# Overview"),
  (["docs", "web", "good"], .dir),
  (["docs", "web", "good", "meta.json"],
    written "\x7b\"label\": \"Good\", \"description\": \"é\", \"since\": 1\x7d"),
  (["docs", "server"], .dir),
  (["docs", "server", "zeta"], .dir),
  (["docs", "server", "zeta", "meta.json"],
    written "\x7b\"label\": \"Z\", \"description\": \"\", \"dependencies\": [\"good\"]\x7d"),
  (["docs", "server", "spoilt"], .dir),
  (["docs", "server", "spoilt", "meta.json"], written "\x7bnot JSON")]⟩, []⟩

theorem of_mem_policyDirectories_mixedShelf (hsound : mixedShelf.files.Sound)
    (hstorable : mixedShelf.files.Storable) {place : String × String}
    (h : place ∈ policyDirectories mixedShelf (Path.ofString "docs")) :
    place ∈ [("server", "spoilt"), ("server", "zeta"), ("web", "bare"), ("web", "good"),
      ("web", "partial")] := by
  let root := Path.ofString "docs"
  have hroot : mixedShelf.locate root = .ok (["docs"], .dir) := rfl
  have hweb : mixedShelf.locate (root.child "web") = .ok (["docs", "web"], .dir) := rfl
  have hserver : mixedShelf.locate (root.child "server") = .ok (["docs", "server"], .dir) := rfl
  obtain ⟨category, hcategory, h⟩ := List.mem_flatMap.mp h
  obtain ⟨id, hid, rfl⟩ := List.mem_map.mp h
  have hcategories : category = "web" ∨ category = "server" := by
    simpa [mixedShelf, written] using mem_entries_of_mem_directoriesIn hsound hstorable hroot hcategory
  rcases hcategories with rfl | rfl
  · have hids : id = "partial" ∨ id = "bare" ∨ id = "good" := by
      simpa [mixedShelf, written] using mem_entries_of_mem_directoriesIn hsound hstorable hweb hid
    rcases hids with rfl | rfl | rfl <;> decide
  · have hids : id = "zeta" ∨ id = "spoilt" := by
      simpa [mixedShelf, written] using mem_entries_of_mem_directoriesIn hsound hstorable hserver hid
    rcases hids with rfl | rfl <;> decide

theorem scanDocuments_exact_mixedShelf :
    let root := Path.ofString "docs"
    mixedShelf.files.Sound ∧ mixedShelf.files.Storable ∧ ¬ NameTooLong mixedShelf root ∧
      ∃ found, scanDocuments mixedShelf root = .ok found ∧ ExactPolicies mixedShelf root found ∧
        policyOf root "web" "good" ⟨"Good", "é", []⟩ ∈ found ∧
        policyOf root "server" "zeta" ⟨"Z", "", ["good"]⟩ ∈ found ∧
        ∀ about, policyOf root "web" "partial" about ∉ found ∧
          policyOf root "server" "spoilt" about ∉ found := by
  intro root
  have hsound : mixedShelf.files.Sound := ⟨by decide +kernel, by decide +kernel⟩
  have hstorable : mixedShelf.files.Storable := ⟨by decide +kernel, by decide +kernel⟩
  have hshort : ¬ NameTooLong mixedShelf root := Files.not_nameTooLong_of_isDir rfl
  have hread : ∀ place ∈ [("server", "spoilt"), ("server", "zeta"), ("web", "bare"), ("web", "good"),
      ("web", "partial")], (policyAt mixedShelf root place).toBool = true := by decide +kernel
  obtain ⟨hends, hexact, -⟩ := (scanDocuments_exact hsound hstorable root).2 hshort
  obtain ⟨found, hfound⟩ := hends.mpr fun place fault hbreaks => by
    obtain ⟨hmem, hfault⟩ := (breaksAt_iff hsound hstorable).mp hbreaks
    have hplace := hread place (of_mem_policyDirectories_mixedShelf hsound hstorable hmem)
    exact not_ends_error fault (hfault ▸ ends_iff_toBool.mpr hplace)
  have hlisted := (hexact found hfound).listed
  have hundescribed : ∀ path about, (readMeta mixedShelf path).toOption = some none →
      ¬ IsDescribed mixedShelf path about := fun path about hnone hdescribed => by
    rw [toOption_eq_some, readMeta_eq_some_iff.mpr hdescribed] at hnone
    cases hnone
  refine ⟨hsound, hstorable, hshort, found, hfound, hexact found hfound, ?_, ?_, fun about => ⟨?_, ?_⟩⟩
  · exact (hlisted _).mpr ⟨by decide +kernel, by decide +kernel, rfl,
      readMeta_eq_some_iff.mp (toOption_eq_some.mp (by decide +kernel))⟩
  · exact (hlisted _).mpr ⟨by decide +kernel, by decide +kernel, rfl,
      readMeta_eq_some_iff.mp (toOption_eq_some.mp (by decide +kernel))⟩
  · exact fun hmem => hundescribed (metaPath root "web" "partial") about (by decide +kernel)
      ((hlisted _).mp hmem).described
  · exact fun hmem => hundescribed (metaPath root "server" "spoilt") about (by decide +kernel)
      ((hlisted _).mp hmem).described

/-- A shelf on which the description of one of two policies is no text. -/
def spoiltShelf : View := ⟨⟨[
  (["docs"], .dir),
  (["docs", "web"], .dir),
  (["docs", "web", "bad"], .dir),
  (["docs", "web", "bad", "meta.json"], .file [0xff] none),
  (["docs", "web", "good"], .dir),
  (["docs", "web", "good", "meta.json"],
    written "\x7b\"label\": \"Good\", \"description\": \"ok\"\x7d")]⟩, []⟩

/-- **There need not be a row of policies**: a description that is no text hides all the others. -/
theorem not_forall_scanDocuments_exact :
    ¬ ∀ (view : View) (root : Path), view.files.Sound → view.files.Storable →
      view.isDir root = true →
        ∃ found, scanDocuments view root = .ok found ∧ ExactPolicies view root found := by
  intro hall
  have hsound : spoiltShelf.files.Sound := ⟨by decide +kernel, by decide +kernel⟩
  have hstorable : spoiltShelf.files.Storable := ⟨by decide +kernel, by decide +kernel⟩
  obtain ⟨found, hfound, -⟩ := hall spoiltShelf (Path.ofString "docs") hsound hstorable rfl
  have hends : Ends (scanDocuments spoiltShelf (Path.ofString "docs")) := ⟨found, hfound⟩
  rw [scanDocuments_eq hsound hstorable (Files.not_nameTooLong_of_isDir rfl), ends_map, ends_mapM] at hends
  have hbad := hends ("web", "bad") (mem_policyDirectories hsound hstorable (by decide) (by decide) rfl)
  rw [ends_iff_toBool] at hbad
  exact absurd hbad (by decide +kernel)

end Lintel.Policy
