import Lintel.Proofs.Policy.Lookup
import Lintel.Proofs.Policy.Restricted

/-!
# Selection of documents

What is selected for a file are documents in the directory of the policy, in the order of their names. All
faults are for the file alone, whatever has become of the directory since the scan.

* `Covers`: the names of the files that a policy is for; `Lacks`: a document that a file is reviewed against
  is not there;
* **`ends_select`**: documents are selected for exactly the files that the policy is for and whose documents
  are all there;
* `IsDocument`: a document of a policy; `mem_documents`, `pairwise_documents`: the row of all of them;
* `AreDocuments`: a row of documents that are there; `areDocuments_of_select`: one is selected;
* `failsOnlyWith_select`: the other outcome is that the file is rejected;
* **`select_exact`**: both, and for which files documents are selected;
  `not_forall_test_rejected`: tests of the domain model may be among them.
-/

namespace Lintel.Policy

open Files (IsName Path View)
open Text (endsWith)

variable {view : View} {policy : Policy} {file name : String} {names : List String} {path : Path}
  {paths : List Path}

/-! ## When documents are selected -/

/-- The policy is for files of this name. -/
def Covers (policy : Policy) (name : String) : Prop :=
  if policy.id = "test-strategy" then
    endsWith ".ct.test.tsx" name = true ∨ endsWith ".ss.test.ts" name = true
  else if policy.id = "domain-model" then
    endsWith ".ts" name = true ∧ ∀ back ∈ besideDomainModel, endsWith back name = false
  else True

/-- One of the documents that a table names for a file is not there. -/
def Misses (view : View) (policy : Policy) (table : Except Fault (List String)) : Prop :=
  ∃ names, table = .ok names ∧ ∃ name ∈ names, view.isFile (policy.path.child name) = false

/-- A document for files of this name is not there, or the policy has none at all. -/
def Lacks (view : View) (policy : Policy) (name : String) : Prop :=
  if policy.id = "test-strategy" then policy.Misses view (testStrategyNames name)
  else if policy.id = "domain-model" then policy.Misses view (domainModelNames name)
  else policy.documents view = []

theorem endsWith_trans {a b : String} (h : endsWith b a = true) (hname : endsWith a name = true) :
    endsWith b name = true := by
  simp only [endsWith, List.isSuffixOf_iff_suffix] at h hname ⊢
  exact h.trans hname

theorem ends_testStrategyNames :
    Ends (testStrategyNames name) ↔
      endsWith ".ct.test.tsx" name = true ∨ endsWith ".ss.test.ts" name = true := by
  rw [testStrategyNames]
  split_ifs with hcomponent hsnapshot
  · exact iff_of_true (ends_ok _) (.inl hcomponent)
  · exact iff_of_true (ends_ok _) (.inr hsnapshot)
  · exact iff_of_false (not_ends_error _) (not_or.mpr ⟨hcomponent, hsnapshot⟩)

theorem ends_domainModelNames :
    Ends (domainModelNames name) ↔
      endsWith ".ts" name = true ∧ ∀ back ∈ besideDomainModel, endsWith back name = false := by
  have hbeside : besideDomainModel.any (endsWith · name) = true ↔
      ¬ ∀ back ∈ besideDomainModel, endsWith back name = false := by
    simp only [List.any_eq_true, not_forall, Bool.not_eq_false, exists_prop]
  rw [domainModelNames]
  split_ifs with h hrepository hscript
  · exact iff_of_false (not_ends_error _) fun hboth => hbeside.mp h hboth.2
  · have hrest := not_not.mp (hbeside.not.mp h)
    exact iff_of_true (ends_ok _) ⟨endsWith_trans (by decide) hrepository, hrest⟩
  · exact iff_of_true (ends_ok _) ⟨hscript, not_not.mp (hbeside.not.mp h)⟩
  · exact iff_of_false (not_ends_error _) fun hboth => hscript hboth.1

theorem ends_documentNamed : Ends (policy.documentNamed view file name) ↔
    view.isFile (policy.path.child name) = true := by
  rw [documentNamed, ← Files.askFile_eq_true_iff]
  cases view.askFile (policy.path.child name) with
  | error fault => exact iff_of_false (not_ends_error fault) (by simp)
  | ok there =>
    cases there with
    | true => exact iff_of_true (ends_ok _) rfl
    | false => exact iff_of_false (not_ends_error _) (by simp)

theorem ends_documentsNamed (file : String) {table : Except Fault (List String)} :
    Ends (table >>= fun names => names.mapM (policy.documentNamed view file)) ↔
      Ends table ∧ ¬ policy.Misses view table := by
  cases table with
  | error fault => simp [error_bind, not_ends_error]
  | ok names =>
    rw [ok_bind, ends_mapM, and_iff_right (ends_ok names)]
    simp [Misses, ends_documentNamed]

theorem select_of_ne (htest : policy.id ≠ "test-strategy") (hmodel : policy.id ≠ "domain-model") :
    policy.select view file =
      if (policy.documents view).isEmpty then
        .error (.fileRejected s!"Policy {policy.qualifiedId} has no documents" file)
      else .ok (policy.documents view) := by
  rw [select]
  split
  next hid => exact absurd hid htest
  next hid => exact absurd hid hmodel
  next => rfl

/-- **Documents are selected** for exactly the files that the policy is for and whose documents are all
there. -/
theorem ends_select : Ends (policy.select view file) ↔
    policy.Covers (Path.ofString file).name ∧ ¬ policy.Lacks view (Path.ofString file).name := by
  rw [Covers, Lacks]
  split_ifs with htest hmodel
  · rw [← ends_testStrategyNames, ← ends_documentsNamed file]
    simp only [select, htest]
  · rw [← ends_domainModelNames, ← ends_documentsNamed file]
    simp only [select, hmodel]
  · rw [select_of_ne htest hmodel, true_and]
    cases hdocuments : policy.documents view with
    | nil => exact iff_of_false (not_ends_error _) fun h => h rfl
    | cons path paths => exact iff_of_true (ends_ok _) (List.cons_ne_nil _ _)

/-! ## Documents -/

/-- The path is that of a document in the directory of the policy. -/
def IsDocument (view : View) (policy : Policy) (path : Path) : Prop :=
  ∃ name, IsName name ∧ endsWith documentSuffix name = true ∧ path = policy.path.child name ∧
    view.isFile path = true

/-- The row has documents of the policy, at least one, in the strict order of their names. -/
structure AreDocuments (view : View) (policy : Policy) (paths : List Path) : Prop where
  nonempty : paths ≠ []
  there : ∀ path ∈ paths, IsDocument view policy path
  sorted : paths.Pairwise fun p q => p.name < q.name

theorem name_child (path : Path) (name : String) : (path.child name).name = name := by
  simp [Path.name, Path.child]

def documentOf? (policy : Policy) : String × Entry → Option Path
  | (_, .dir) => none
  | (name, .file ..) => if endsWith documentSuffix name then some (policy.path.child name) else none

theorem documents_eq (view : View) (policy : Policy) :
    policy.documents view = (entriesOf view policy.path).filterMap policy.documentOf? := by
  refine congrArg (List.filterMap · _) (funext fun e => ?_)
  obtain ⟨name, _ | ⟨content, rules⟩⟩ := e <;> rfl

/-- **All documents are in the row**, and nothing else. -/
theorem mem_documents (hsound : view.files.Sound) (hstorable : view.files.Storable) :
    path ∈ policy.documents view ↔ IsDocument view policy path := by
  rw [documents_eq, List.mem_filterMap]
  constructor
  · rintro ⟨⟨name, _ | ⟨content, rules⟩⟩, hmem, hpath⟩
    · cases hpath
    · obtain ⟨hsuffix, hpath⟩ := Option.ite_none_right_eq_some.mp hpath
      obtain rfl := Option.some.inj hpath
      obtain ⟨hname, place, hplace⟩ := (mem_entriesOf hsound hstorable).mp hmem
      exact ⟨name, hname, hsuffix, rfl, Files.isFile_iff.mpr ⟨place, content, rules, hplace⟩⟩
  · rintro ⟨name, hname, hsuffix, rfl, hfile⟩
    obtain ⟨place, content, rules, hplace⟩ := Files.isFile_iff.mp hfile
    refine ⟨(name, .file content rules), (mem_entriesOf hsound hstorable).mpr ⟨hname, place, hplace⟩, ?_⟩
    exact if_pos hsuffix

theorem pairwise_documents (hsound : view.files.Sound) :
    (policy.documents view).Pairwise fun p q => p.name < q.name := by
  have hnames : ((policy.documents view).map Path.name).Sublist
      ((entriesOf view policy.path).map (·.1)) := by
    rw [documents_eq, List.map_filterMap]
    refine filterMap_sublist_map (fun e name hname => ?_) _
    obtain ⟨path, hpath, rfl⟩ := Option.map_eq_some_iff.mp hname
    obtain ⟨name, _ | ⟨content, rules⟩⟩ := e
    · cases hpath
    · obtain ⟨-, hpath⟩ := Option.ite_none_right_eq_some.mp hpath
      exact Option.some.inj hpath ▸ (name_child policy.path name).symm
  exact List.pairwise_map.mp ((pairwise_entriesOf hsound policy.path).sublist hnames)

/-! ## Documents that a table names -/

/-- The names are those of documents, at least one, in order, and a disk can hold them. -/
structure IsTable (names : List String) : Prop where
  nonempty : names ≠ []
  documents : ∀ name ∈ names, IsName name ∧ endsWith documentSuffix name = true
  short : ∀ name ∈ names, (Text.encode name).length ≤ Files.maxName
  sorted : names.Pairwise (· < ·)

theorem isTable_testStrategyNames (h : testStrategyNames name = .ok names) : IsTable names := by
  unfold testStrategyNames at h
  split_ifs at h <;> cases h <;>
    exact ⟨by decide, by decide +kernel, by decide +kernel, by decide +kernel⟩

theorem isTable_domainModelNames (h : domainModelNames name = .ok names) : IsTable names := by
  unfold domainModelNames at h
  split_ifs at h <;> cases h <;>
    exact ⟨by decide, by decide +kernel, by decide +kernel, by decide +kernel⟩

theorem documentNamed_eq_ok (h : policy.documentNamed view file name = .ok path) :
    policy.path.child name = path ∧ view.isFile path = true := by
  obtain ⟨there, hask, hthere⟩ := bind_eq_ok.mp h
  split_ifs at hthere with htrue
  · obtain rfl := Except.ok.inj hthere
    exact ⟨rfl, Files.askFile_eq_true_iff.mp (htrue ▸ hask)⟩

/-- **The documents of a table** are found in its order. -/
theorem IsTable.areDocuments (h : IsTable names)
    (hpaths : names.mapM (policy.documentNamed view file) = .ok paths) :
    AreDocuments view policy paths := by
  have hfound := mapM_eq_ok.mp hpaths
  have hchild : names.map policy.path.child = paths := by
    rw [← List.forall₂_eq_eq_eq, List.forall₂_map_left_iff]
    exact hfound.imp fun name path hpath => (documentNamed_eq_ok hpath).1
  refine ⟨?_, fun path hmem => ?_, ?_⟩
  · rw [← hchild]
    exact mt List.map_eq_nil_iff.mp h.nonempty
  · obtain ⟨name, hname, hpath⟩ := exists_of_mapM_eq_ok hpaths hmem
    obtain ⟨hisName, hsuffix⟩ := h.documents name hname
    obtain ⟨hpath, hfile⟩ := documentNamed_eq_ok hpath
    exact ⟨name, hisName, hsuffix, hpath.symm, hfile⟩
  · rw [← hchild, List.pairwise_map]
    simpa only [name_child] using h.sorted

/-! ## What is selected -/

/-- **A row of documents is selected.** -/
theorem areDocuments_of_select (hsound : view.files.Sound) (hstorable : view.files.Storable)
    (h : policy.select view file = .ok paths) : AreDocuments view policy paths := by
  by_cases htest : policy.id = "test-strategy"
  · simp only [select, htest] at h
    obtain ⟨names, hnames, hpaths⟩ := bind_eq_ok.mp h
    exact (isTable_testStrategyNames hnames).areDocuments hpaths
  · by_cases hmodel : policy.id = "domain-model"
    · simp only [select, hmodel] at h
      obtain ⟨names, hnames, hpaths⟩ := bind_eq_ok.mp h
      exact (isTable_domainModelNames hnames).areDocuments hpaths
    · rw [select_of_ne htest hmodel] at h
      split_ifs at h with hnone
      obtain rfl := Except.ok.inj h
      exact ⟨by simpa using hnone, fun path => (mem_documents hsound hstorable).mp,
        pairwise_documents hsound⟩

/-- The fault is that the file is rejected; it is called by its path, or by its name alone. -/
def Rejects (file : String) (fault : Fault) : Prop :=
  ∃ message, ∃ called ∈ [file, (Path.ofString file).name], fault = .fileRejected message called

theorem failsOnlyWith_testStrategyNames :
    FailsOnlyWith (Rejects file) (testStrategyNames (Path.ofString file).name) := by
  rw [testStrategyNames]
  split_ifs
  · exact failsOnlyWith_ok _
  · exact failsOnlyWith_ok _
  · exact failsOnlyWith_error.mpr ⟨_, _, by simp, rfl⟩

theorem failsOnlyWith_domainModelNames :
    FailsOnlyWith (Rejects file) (domainModelNames (Path.ofString file).name) := by
  rw [domainModelNames]
  split_ifs
  · exact failsOnlyWith_error.mpr ⟨_, _, by simp, rfl⟩
  · exact failsOnlyWith_ok _
  · exact failsOnlyWith_ok _
  · exact failsOnlyWith_error.mpr ⟨_, _, by simp, rfl⟩

section Faults

variable (hshort : ∀ part ∈ policy.path.parts, (Text.encode part).length ≤ Files.maxName)

include hshort

theorem failsOnlyWith_documentNamed (hname : (Text.encode name).length ≤ Files.maxName) :
    FailsOnlyWith (Rejects file) (policy.documentNamed view file name) := by
  have hparts : ∀ part ∈ (policy.path.child name).parts, (Text.encode part).length ≤ Files.maxName := by
    intro part hpart
    rcases List.mem_append.mp hpart with hpart | hpart
    · exact hshort part hpart
    · exact List.mem_singleton.mp hpart ▸ hname
  rw [documentNamed, Files.askFile_of_short hparts, ok_bind]
  split_ifs
  · exact failsOnlyWith_ok _
  · exact failsOnlyWith_error.mpr ⟨_, _, by simp, rfl⟩

theorem failsOnlyWith_documentsNamed {table : Except Fault (List String)}
    (htable : FailsOnlyWith (Rejects file) table) (hnames : ∀ names, table = .ok names → IsTable names) :
    FailsOnlyWith (Rejects file)
      (table >>= fun names => names.mapM (policy.documentNamed view file)) := by
  refine failsOnlyWith_bind.mpr ⟨htable, fun names heq => ?_⟩
  exact .mapM fun name hname => failsOnlyWith_documentNamed hshort ((hnames names heq).short name hname)

/-- **The only fault is that the file is rejected**, where the directory has a path that a disk allows. -/
theorem failsOnlyWith_select : FailsOnlyWith (Rejects file) (policy.select view file) := by
  by_cases htest : policy.id = "test-strategy"
  · simp only [select, htest]
    exact failsOnlyWith_documentsNamed hshort failsOnlyWith_testStrategyNames
      fun _ => isTable_testStrategyNames
  · by_cases hmodel : policy.id = "domain-model"
    · simp only [select, hmodel]
      exact failsOnlyWith_documentsNamed hshort failsOnlyWith_domainModelNames
        fun _ => isTable_domainModelNames
    · rw [select_of_ne htest hmodel]
      split_ifs
      · exact failsOnlyWith_error.mpr ⟨_, _, by simp, rfl⟩
      · exact failsOnlyWith_ok _

end Faults

/-- **The path of a policy that a scan has found** is one that a disk allows. -/
theorem short_of_mem_scanDocuments {root : Path} {category : String} {found : List Policy}
    (hscan : scanDocuments view root category = .ok found) (h : policy ∈ found) :
    ∀ part ∈ policy.path.parts, (Text.encode part).length ≤ Files.maxName := by
  obtain ⟨dir, row, hrow, hmem⟩ : ∃ dir row, policiesIn view dir = .ok row ∧ policy ∈ row := by
    obtain ⟨there, -, hscan⟩ := bind_eq_ok.mp hscan
    split_ifs at hscan
    · obtain ⟨rows, hrows, hflat⟩ := bind_eq_ok.mp hscan
      obtain ⟨row, hrow, hmem⟩ := List.mem_flatten.mp (Except.ok.inj hflat ▸ h)
      obtain ⟨dir, -, hdir⟩ := exists_of_mapM_eq_ok hrows hrow
      exact ⟨dir, row, hdir, hmem⟩
    · exact absurd (Except.ok.inj hscan ▸ h) List.not_mem_nil
  obtain ⟨id, hid⟩ : ∃ id, policyIn view dir id = .ok (some policy) := by
    obtain ⟨there, -, hrow⟩ := bind_eq_ok.mp hrow
    split_ifs at hrow
    · obtain ⟨options, hoptions, hreduced⟩ := bind_eq_ok.mp hrow
      obtain ⟨id, -, hid⟩ := (mem_reduceOption_of_mapM hoptions).mp (Except.ok.inj hreduced ▸ hmem)
      exact ⟨id, hid⟩
    · exact absurd (Except.ok.inj hrow ▸ hmem) List.not_mem_nil
  -- the description has been read, so the lookup of its path has gone through
  obtain ⟨about, hdescribed, rfl⟩ := policyIn_eq_some_iff.mp hid
  obtain ⟨place, content, rules, hplace⟩ := Files.isFile_iff.mp hdescribed.isFile
  intro part hpart
  exact Files.short_of_locateFrom hplace part (List.mem_append_left _ hpart)

/-! ## Tests of the domain model -/

theorem not_endsWith_of_endsWith {short long : String}
    (hlength : short.toList.length ≤ long.toList.length) (hother : endsWith short long = false)
    (hshort : endsWith short name = true) : endsWith long name = false := by
  by_contra hlong
  rw [← Bool.not_eq_true] at hother
  simp only [Bool.not_eq_false, endsWith, List.isSuffixOf_iff_suffix] at hlong hother hshort
  exact hother (List.suffix_of_suffix_length_le hshort hlong hlength)

def entityDocuments : List String :=
  ["10-domain-model-overview.md", "20-entity-design.md", "40-aggregate-pattern.md"]

theorem not_covers_domainModel (hid : policy.id = "domain-model")
    (h : endsWith ".test.tsx" name = true ∨ endsWith ".dummy.ts" name = true) : ¬ policy.Covers name := by
  simp only [Covers, hid]
  rintro ⟨hscript, hbeside⟩
  rcases h with htest | hdummy
  · have hother : endsWith ".test.tsx" name = false :=
      not_endsWith_of_endsWith (by decide) (by decide) hscript
    simp [hother] at htest
  · simp [hbeside ".dummy.ts" (by decide)] at hdummy

/-- **Tests are reviewed against the domain model as entities are**, but for those of two kinds. -/
theorem ends_select_of_test (hid : policy.id = "domain-model")
    (htest : endsWith ".test.ts" (Path.ofString file).name = true) : Ends (policy.select view file) ↔
      (endsWith ".small.test.ts" (Path.ofString file).name = false ∧
        endsWith ".medium.test.ts" (Path.ofString file).name = false) ∧
      ∀ document ∈ entityDocuments, view.isFile (policy.path.child document) = true := by
  generalize hfile : (Path.ofString file).name = name at htest ⊢
  have hscript : endsWith ".ts" name = true := endsWith_trans (by decide) htest
  have hdummy : endsWith ".dummy.ts" name = false :=
    not_endsWith_of_endsWith (by decide) (by decide) htest
  have hrepository : endsWith "repository.ts" name = false :=
    not_endsWith_of_endsWith (by decide) (by decide) htest
  have hcovers : policy.Covers name ↔
      endsWith ".small.test.ts" name = false ∧ endsWith ".medium.test.ts" name = false := by
    simp [Covers, hid, hscript, besideDomainModel, hdummy]
  rw [ends_select, hfile, hcovers]
  refine and_congr_right fun ⟨hsmall, hmedium⟩ => ?_
  have htable : domainModelNames name = .ok entityDocuments := by
    simp [domainModelNames, besideDomainModel, hsmall, hmedium, hdummy, hrepository, hscript, entityDocuments]
  simp [Lacks, hid, htable, Misses]

/-- **What is selected for a file**, whatever has become of the tree since the scan: documents that are there,
at least one, in the strict order of their names; or the file is rejected, and nothing else happens. Documents
are selected for the files that the policy is for, if those are there. Of the tests of the domain model, only
small and medium ones and component tests are rejected. -/
theorem select_exact {before later : View} (hsound : later.files.Sound) (hstorable : later.files.Storable)
    {root : Path} {category : String} {found : List Policy} {policy : Policy}
    (hscan : scanDocuments before root category = .ok found) (hmem : policy ∈ found) (file : String) :
    let name := (Path.ofString file).name
    (∀ paths, policy.select later file = .ok paths → AreDocuments later policy paths) ∧
    (∀ fault, policy.select later file = .error fault → Rejects file fault) ∧
    (Ends (policy.select later file) ↔ policy.Covers name ∧ ¬ policy.Lacks later name) ∧
    (policy.id = "domain-model" →
      (endsWith ".test.tsx" name = true ∨ endsWith ".dummy.ts" name = true →
        ¬ Ends (policy.select later file)) ∧
      (endsWith ".test.ts" name = true → (Ends (policy.select later file) ↔
        (endsWith ".small.test.ts" name = false ∧ endsWith ".medium.test.ts" name = false) ∧
        ∀ document ∈ entityDocuments, later.isFile (policy.path.child document) = true))) := by
  have hshort := short_of_mem_scanDocuments hscan hmem
  refine ⟨fun paths => areDocuments_of_select hsound hstorable, failsOnlyWith_select hshort, ends_select,
    fun hid => ⟨fun hname hends => ?_, ends_select_of_test hid⟩⟩
  exact not_covers_domainModel hid hname (ends_select.mp hends).1

/-! ## A shelf with the documents for entities -/

def modelShelf : View := ⟨⟨[
  (["docs"], .dir),
  (["docs", "server"], .dir),
  (["docs", "server", "domain-model"], .dir),
  (["docs", "server", "domain-model", "meta.json"],
    written "\x7b\"label\": \"Domain model\", \"description\": \"Entities\"\x7d"),
  (["docs", "server", "domain-model", "10-domain-model-overview.md"], written "# Overview"),
  (["docs", "server", "domain-model", "20-entity-design.md"], written "# Entities"),
  (["docs", "server", "domain-model", "40-aggregate-pattern.md"], written "# Aggregates")]⟩, []⟩

def modelPolicy : Policy :=
  policyOf (Path.ofString "docs") "server" "domain-model" ⟨"Domain model", "Entities", []⟩

theorem sound_modelShelf : modelShelf.files.Sound := ⟨by decide +kernel, by decide +kernel⟩

theorem storable_modelShelf : modelShelf.files.Storable := ⟨by decide +kernel, by decide +kernel⟩

theorem mem_scanDocuments_modelShelf :
    ∃ found, scanDocuments modelShelf (Path.ofString "docs") = .ok found ∧ modelPolicy ∈ found := by
  let root := Path.ofString "docs"
  have hreadable : Readable modelShelf root :=
    readable_of_isLegible storable_modelShelf rfl (by decide +kernel)
  obtain ⟨found, hfound⟩ := (ends_scanDocuments_iff sound_modelShelf storable_modelShelf).mpr hreadable
  have hexact := exact_of_scanDocuments sound_modelShelf storable_modelShelf hreadable.short hfound
  refine ⟨found, hfound, (hexact.listed _).mpr ⟨by decide, by decide, rfl, ?_⟩⟩
  exact readMeta_eq_some_iff.mp (toOption_eq_some.mp (by decide +kernel))

theorem select_exact_modelShelf :
    modelShelf.files.Sound ∧ modelShelf.files.Storable ∧
    (∃ found, scanDocuments modelShelf (Path.ofString "docs") = .ok found ∧ modelPolicy ∈ found) ∧
    (∃ paths, modelPolicy.select modelShelf "/repo/user.entity.ts" = .ok paths ∧
      AreDocuments modelShelf modelPolicy paths) ∧
    ∃ fault, modelPolicy.select modelShelf "/repo/user.dummy.ts" = .error fault ∧
      Rejects "/repo/user.dummy.ts" fault := by
  obtain ⟨found, hscan, hmem⟩ := mem_scanDocuments_modelShelf
  obtain ⟨hdocuments, -, -, -⟩ :=
    select_exact sound_modelShelf storable_modelShelf hscan hmem "/repo/user.entity.ts"
  obtain ⟨-, hrejects, -, hmodel⟩ :=
    select_exact sound_modelShelf storable_modelShelf hscan hmem "/repo/user.dummy.ts"
  have hentity : Ends (modelPolicy.select modelShelf "/repo/user.entity.ts") :=
    ends_iff_toBool.mpr (by decide +kernel)
  have hdummy : ¬ Ends (modelPolicy.select modelShelf "/repo/user.dummy.ts") :=
    (hmodel rfl).1 (.inr (by decide +kernel))
  refine ⟨sound_modelShelf, storable_modelShelf, ⟨found, hscan, hmem⟩, ?_, ?_⟩
  · obtain ⟨paths, hpaths⟩ := hentity
    exact ⟨paths, hpaths, hdocuments paths hpaths⟩
  · cases hselect : modelPolicy.select modelShelf "/repo/user.dummy.ts" with
    | ok paths => exact absurd ⟨paths, hselect⟩ hdummy
    | error fault => exact ⟨fault, rfl, hrejects fault hselect⟩

/-- **A test of the domain model need not be rejected.** -/
theorem not_forall_test_rejected :
    ¬ ∀ (before later : View) (root : Path) (found : List Policy) (policy : Policy) (file : String),
      later.files.Sound → later.files.Storable → scanDocuments before root = .ok found →
        policy ∈ found → policy.id = "domain-model" →
          endsWith ".test.ts" (Path.ofString file).name = true →
            ∃ fault, policy.select later file = .error fault ∧ Rejects file fault := by
  intro hall
  obtain ⟨found, hscan, hmem⟩ := mem_scanDocuments_modelShelf
  have htest : endsWith ".test.ts" (Path.ofString "/repo/user.test.ts").name = true := by decide +kernel
  obtain ⟨fault, hfault, -⟩ := hall modelShelf modelShelf (Path.ofString "docs") found modelPolicy
    "/repo/user.test.ts" sound_modelShelf storable_modelShelf hscan hmem rfl htest
  have hends : Ends (modelPolicy.select modelShelf "/repo/user.test.ts") :=
    (ends_select_of_test rfl htest).mpr ⟨by decide +kernel, by decide +kernel⟩
  exact not_ends_error fault (hfault ▸ hends)

end Lintel.Policy
