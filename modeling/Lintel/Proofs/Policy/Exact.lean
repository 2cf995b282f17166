import Lintel.Proofs.Files.Entries
import Lintel.Proofs.Policy.Catalog

/-!
# The exact catalog

The catalog of a root lists a rule file exactly if it stands two directories below the root, once, and in the
order of names (`Exact`).

* `mem_entriesOf`, `mem_openDirectories`, `mem_rulesIn`: what a directory contributes, by what stands at the
  paths below it;
* `exact_workspacesIn`: the catalog below a directory is exact;
* **`catalog_exact`**: when there is a catalog, and that it is exact; `not_forall_catalog_eq_nil`: a root at
  which nothing stands need not have one.
-/

namespace Lintel.Policy

open Files (IsName NameTooLong Path View)

variable {view : View} {root path : Path} {suffixes : List String} {name : String} {entry : Entry}

/-! ## What a directory contributes -/

/-- A directory of this name may hold rules. -/
def IsOpen (name : String) : Prop := Text.startsWith "." name = false ∧ Text.startsWith "_" name = false

instance : DecidablePred IsOpen := fun _ => inferInstanceAs (Decidable (_ ∧ _))

/-- The name ends in one of the suffixes, and is that of no gathering and no declaration file. -/
structure NamesRule (suffixes : List String) (name : String) : Prop where
  suffix : ∃ suffix ∈ suffixes, Text.endsWith suffix name = true
  noGathering : name ∉ gatheringFiles
  noDeclaration : ∀ suffix ∈ declarationSuffixes, Text.endsWith suffix name = false

/-- The description of the rule in the file at a path, empty if the file cannot be read as text. -/
def describedAt (view : View) (path : Path) : String :=
  match view.readText path with
  | .ok text => description text
  | .error _ => ""

theorem isRuleFile_iff : isRuleFile suffixes name = true ↔ NamesRule suffixes name := by
  have hparts : isRuleFile suffixes name = true ↔ (name ∉ gatheringFiles ∧
      (∀ suffix ∈ declarationSuffixes, Text.endsWith suffix name = false)) ∧
        ∃ suffix ∈ suffixes, Text.endsWith suffix name = true := by
    simp [isRuleFile]
  rw [hparts]
  exact ⟨fun h => ⟨h.2, h.1.1, h.1.2⟩, fun h => ⟨⟨h.noGathering, h.noDeclaration⟩, h.suffix⟩⟩

theorem pairwise_entriesOf (hsound : view.files.Sound) (path : Path) :
    ((entriesOf view path).map (·.1)).Pairwise (· < ·) := by
  unfold entriesOf View.list
  split_ifs
  · exact List.Pairwise.nil
  · cases view.locate path with
    | error refusal => exact List.Pairwise.nil
    | ok found =>
      obtain ⟨place, _ | ⟨content, rules⟩⟩ := found
      · exact hsound.pairwise_list place
      · exact List.Pairwise.nil

theorem pairwise_openDirectories (hsound : view.files.Sound) (path : Path) :
    (openDirectories view path).Pairwise (· < ·) :=
  (pairwise_entriesOf hsound path).sublist (openDirectories_sublist view path)

theorem pairwise_rulesIn (hsound : view.files.Sound) (path : Path) :
    ((rulesIn view suffixes path).map (·.file)).Pairwise (· < ·) :=
  (pairwise_entriesOf hsound path).sublist (map_file_rulesIn_sublist view suffixes path)

section Entries

variable (hsound : view.files.Sound) (hstorable : view.files.Storable)

include hsound hstorable

/-- **The entries of a directory are what is found at the paths below it.** -/
theorem mem_entriesOf : (name, entry) ∈ entriesOf view path ↔
    IsName name ∧ ∃ place, view.locate (path.child name) = .ok (place, entry) := by
  constructor
  · intro h
    have hname : IsName name := isName_entriesOf hsound path name (List.mem_map_of_mem h)
    refine ⟨hname, ?_⟩
    unfold entriesOf View.list at h
    split_ifs at h
    · exact absurd h List.not_mem_nil
    · cases hpath : view.locate path with
      | error refusal => simp [hpath] at h
      | ok at_ =>
        obtain ⟨place, _ | ⟨content, rules⟩⟩ := at_
        · simp only [hpath] at h
          have hmem := Files.mem_list.mp h
          have hshort := hstorable.short _ hmem name (by simp)
          exact ⟨place ++ [name], (Files.locate_child hname).mpr
            ⟨place, hpath, hshort, rfl, (Files.entry?_append_singleton hsound).mpr hmem⟩⟩
        · simp [hpath] at h
  · rintro ⟨hname, found, hfound⟩
    obtain ⟨place, hpath, -, rfl, hentry⟩ := (Files.locate_child hname).mp hfound
    have hmem := Files.mem_list.mpr ((Files.entry?_append_singleton hsound).mp hentry)
    unfold entriesOf View.list
    rw [Files.not_hasNul_of_locate hstorable hpath, hpath]
    exact hmem

theorem mem_openDirectories : name ∈ openDirectories view path ↔
    IsName name ∧ IsOpen name ∧ view.isDir (path.child name) = true := by
  have hkept : name ∈ openDirectories view path ↔ (name, .dir) ∈ entriesOf view path ∧ IsOpen name := by
    unfold openDirectories IsOpen
    rw [List.mem_filterMap]
    constructor
    · rintro ⟨⟨found, _ | ⟨content, rules⟩⟩, hmem, hfound⟩
      · simp only [Option.ite_none_left_eq_some, Option.some.injEq, Bool.or_eq_true, not_or,
          Bool.not_eq_true] at hfound
        obtain ⟨hopen, rfl⟩ := hfound
        exact ⟨hmem, hopen⟩
      · cases hfound
    · rintro ⟨hmem, hopen⟩
      exact ⟨_, hmem, by simp [hopen.1, hopen.2]⟩
  rw [hkept, mem_entriesOf hsound hstorable, Files.isDir_iff]
  exact ⟨fun ⟨⟨hname, hdir⟩, hopen⟩ => ⟨hname, hopen, hdir⟩,
    fun ⟨hname, hopen, hdir⟩ => ⟨⟨hname, hdir⟩, hopen⟩⟩

omit hsound in
theorem descriptionOf_eq {place : Files.Place} {content : Text.Bytes} {rules : Option RuleModule}
    (h : view.locate path = .ok (place, .file content rules)) :
    descriptionOf (.file content rules) = describedAt view path := by
  unfold describedAt
  rw [Files.readText_of_locate hstorable h]
  rfl

/-- **The rules of a directory are the files below it that are named as rules are.** -/
theorem mem_rulesIn {r : CatalogRule} : r ∈ rulesIn view suffixes path ↔
    IsName r.file ∧ NamesRule suffixes r.file ∧ view.isFile (path.child r.file) = true ∧
      r = ⟨ruleStem r.file, r.file, describedAt view (path.child r.file)⟩ := by
  unfold rulesIn
  rw [List.mem_filterMap]
  constructor
  · rintro ⟨⟨name, _ | ⟨content, rules⟩⟩, hmem, hrule⟩
    · cases hrule
    · obtain ⟨hname, place, hplace⟩ := (mem_entriesOf hsound hstorable).mp hmem
      simp only [Option.ite_none_right_eq_some, Option.some.injEq] at hrule
      obtain ⟨hfile, rfl⟩ := hrule
      refine ⟨hname, isRuleFile_iff.mp hfile, Files.isFile_iff.mpr ⟨_, _, _, hplace⟩, ?_⟩
      rw [descriptionOf_eq hstorable hplace]
  · rintro ⟨hname, hnames, hfile, hrule⟩
    obtain ⟨place, content, rules, hplace⟩ := Files.isFile_iff.mp hfile
    refine ⟨(r.file, .file content rules),
      (mem_entriesOf hsound hstorable).mpr ⟨hname, place, hplace⟩, ?_⟩
    dsimp only
    rw [if_pos (isRuleFile_iff.mpr hnames), descriptionOf_eq hstorable hplace, ← hrule]

end Entries

/-! ## Exact catalogs -/

/-- A rule file stands in a layer of a workspace below the root. -/
structure IsRule (view : View) (root : Path) (suffixes : List String) (entry : Listing) : Prop where
  workspace : IsName entry.workspace ∧ IsOpen entry.workspace
  layer : IsName entry.layer ∧ IsOpen entry.layer
  file : IsName entry.file ∧ NamesRule suffixes entry.file
  stands : view.isFile (((root.child entry.workspace).child entry.layer).child entry.file) = true

/-- The catalog lists every rule file below the root once, and nothing else, in the order of names. -/
structure Exact (view : View) (root : Path) (suffixes : List String) (found : List CatalogWorkspace) :
    Prop where
  listed : ∀ entry, entry ∈ found.flatMap CatalogWorkspace.listings ↔ IsRule view root suffixes entry
  once : (found.flatMap CatalogWorkspace.listings).Nodup
  described : ∀ w ∈ found, ∀ l ∈ w.layers, ∀ r ∈ l.rules,
    r = ⟨ruleStem r.file, r.file, describedAt view (((root.child w.name).child l.name).child r.file)⟩
  full : ∀ w ∈ found, w.layers ≠ [] ∧ ∀ l ∈ w.layers, l.rules ≠ []
  workspaces : (found.map (·.name)).Pairwise (· < ·)
  layers : ∀ w ∈ found, (w.layers.map (·.name)).Pairwise (· < ·)
  rules : ∀ w ∈ found, ∀ l ∈ w.layers, (l.rules.map (·.file)).Pairwise (· < ·)

/-! ## Groups with names

Workspaces and layers are made from names, and those without rules are left out. -/

section Groups

variable {α : Type} {group : String → α} (nameOf : α → String)
  (h : ∀ name, nameOf (group name) = name) (keep : α → Bool) (names : List String)

include h

theorem mem_groups {a : α} : a ∈ (names.map group).filter keep ↔
    nameOf a ∈ names ∧ a = group (nameOf a) ∧ keep a = true := by
  rw [List.mem_filter, List.mem_map]
  constructor
  · rintro ⟨⟨name, hname, rfl⟩, hkeep⟩
    exact ⟨(h name).symm ▸ hname, by rw [h name], hkeep⟩
  · rintro ⟨hname, hgroup, hkeep⟩
    exact ⟨⟨nameOf a, hname, hgroup.symm⟩, hkeep⟩

theorem map_groups_sublist : (((names.map group).filter keep).map nameOf).Sublist names := by
  have hnames : (names.map group).map nameOf = names := by
    rw [List.map_map]
    exact List.map_id'' h names
  have hpart : (((names.map group).filter keep).map nameOf).Sublist ((names.map group).map nameOf) :=
    List.filter_sublist.map nameOf
  rwa [hnames] at hpart

end Groups

/-! ## The catalog below a root -/

theorem mem_layersIn_iff {l : CatalogLayer} : l ∈ layersIn view suffixes path ↔
    l.name ∈ openDirectories view path ∧ l.rules = rulesIn view suffixes (path.child l.name) ∧
      l.rules ≠ [] := by
  unfold layersIn
  rw [mem_groups CatalogLayer.name fun _ => rfl]
  obtain ⟨name, rules⟩ := l
  simp

theorem mem_workspacesIn_iff {w : CatalogWorkspace} : w ∈ workspacesIn view suffixes root ↔
    w.name ∈ openDirectories view root ∧ w.layers = layersIn view suffixes (root.child w.name) ∧
      w.layers ≠ [] := by
  unfold workspacesIn
  rw [mem_groups CatalogWorkspace.name fun _ => rfl]
  obtain ⟨name, layers⟩ := w
  simp

theorem mem_listings_workspacesIn {entry : Listing} :
    entry ∈ (workspacesIn view suffixes root).flatMap CatalogWorkspace.listings ↔
      entry.workspace ∈ openDirectories view root ∧
        entry.layer ∈ openDirectories view (root.child entry.workspace) ∧
          ∃ r ∈ rulesIn view suffixes ((root.child entry.workspace).child entry.layer),
            r.file = entry.file := by
  rw [List.mem_flatMap]
  constructor
  · rintro ⟨w, hw, hentry⟩
    obtain ⟨l, hl, r, hr, rfl⟩ := mem_listings.mp hentry
    obtain ⟨hname, hlayers⟩ := mem_workspacesIn hw
    rw [hlayers] at hl
    obtain ⟨hlayer, hrules⟩ := mem_layersIn hl
    rw [hrules] at hr
    exact ⟨hname, hlayer, r, hr, rfl⟩
  · rintro ⟨hworkspace, hlayer, r, hr, hfile⟩
    let l : CatalogLayer :=
      ⟨entry.layer, rulesIn view suffixes ((root.child entry.workspace).child entry.layer)⟩
    let w : CatalogWorkspace := ⟨entry.workspace, layersIn view suffixes (root.child entry.workspace)⟩
    have hl : l ∈ w.layers := mem_layersIn_iff.mpr ⟨hlayer, rfl, List.ne_nil_of_mem hr⟩
    have hw : w ∈ workspacesIn view suffixes root :=
      mem_workspacesIn_iff.mpr ⟨hworkspace, rfl, List.ne_nil_of_mem hl⟩
    refine ⟨w, hw, mem_listings.mpr ⟨l, hl, r, hr, ?_⟩⟩
    rw [hfile]

theorem pairwise_map_name_layersIn (hsound : view.files.Sound) (path : Path) :
    ((layersIn view suffixes path).map (·.name)).Pairwise (· < ·) :=
  (pairwise_openDirectories hsound path).sublist (map_groups_sublist _ (fun _ => rfl) _ _)

theorem pairwise_map_name_workspacesIn (hsound : view.files.Sound) (root : Path) :
    ((workspacesIn view suffixes root).map (·.name)).Pairwise (· < ·) :=
  (pairwise_openDirectories hsound root).sublist (map_groups_sublist _ (fun _ => rfl) _ _)

theorem nodup_of_pairwise_lt {names : List String} (h : names.Pairwise (· < ·)) : names.Nodup :=
  h.imp ne_of_lt

theorem nodup_listings_workspacesIn (hsound : view.files.Sound) (root : Path) :
    ((workspacesIn view suffixes root).flatMap CatalogWorkspace.listings).Nodup := by
  refine nodup_flatMap_of_key CatalogWorkspace.name Listing.workspace
    (nodup_of_pairwise_lt (pairwise_map_name_workspacesIn hsound root)) (fun w hw => ?_)
    fun w _ entry hentry => workspace_of_mem_listings hentry
  have hlayers : (w.layers.map (·.name)).Nodup := by
    rw [(mem_workspacesIn hw).2]
    exact nodup_of_pairwise_lt (pairwise_map_name_layersIn hsound _)
  refine nodup_flatMap_of_key CatalogLayer.name Listing.layer hlayers (fun l hl => ?_)
    fun l _ entry hentry => ?_
  · refine List.Nodup.of_map Listing.file ?_
    rw [(mem_workspacesIn hw).2] at hl
    rw [List.map_map, (mem_layersIn hl).2]
    exact nodup_of_pairwise_lt (pairwise_rulesIn hsound _)
  · obtain ⟨r, -, rfl⟩ := List.mem_map.mp hentry
    rfl

/-- **The catalog below a root is exact.** -/
theorem exact_workspacesIn (hsound : view.files.Sound) (hstorable : view.files.Storable) (root : Path)
    (suffixes : List String) : Exact view root suffixes (workspacesIn view suffixes root) where
  listed entry := by
    rw [mem_listings_workspacesIn, mem_openDirectories hsound hstorable, mem_openDirectories hsound hstorable]
    constructor
    · rintro ⟨⟨hworkspace, hopen, -⟩, ⟨hlayer, hopen', -⟩, r, hr, hfile⟩
      obtain ⟨hname, hrule, hstands, -⟩ := (mem_rulesIn hsound hstorable).mp hr
      rw [hfile] at hname hrule hstands
      exact ⟨⟨hworkspace, hopen⟩, ⟨hlayer, hopen'⟩, ⟨hname, hrule⟩, hstands⟩
    · intro h
      -- the directories stand because the file does
      have hlayer := Files.isDir_of_isFile_child h.file.1 h.stands
      have hworkspace := Files.isDir_of_isDir_child h.layer.1 hlayer
      let directory := (root.child entry.workspace).child entry.layer
      let r : CatalogRule :=
        ⟨ruleStem entry.file, entry.file, describedAt view (directory.child entry.file)⟩
      have hr : r ∈ rulesIn view suffixes directory :=
        (mem_rulesIn hsound hstorable).mpr ⟨h.file.1, h.file.2, h.stands, rfl⟩
      exact ⟨⟨h.workspace.1, h.workspace.2, hworkspace⟩, ⟨h.layer.1, h.layer.2, hlayer⟩, r, hr, rfl⟩
  once := nodup_listings_workspacesIn hsound root
  described w hw l hl r hr := by
    rw [(mem_workspacesIn hw).2] at hl
    rw [(mem_layersIn hl).2] at hr
    exact ((mem_rulesIn hsound hstorable).mp hr).2.2.2
  full w hw := by
    obtain ⟨-, hlayers, hfull⟩ := mem_workspacesIn_iff.mp hw
    refine ⟨hfull, fun l hl => ?_⟩
    rw [hlayers] at hl
    exact (mem_layersIn_iff.mp hl).2.2
  workspaces := pairwise_map_name_workspacesIn hsound root
  layers w hw := by
    rw [(mem_workspacesIn hw).2]
    exact pairwise_map_name_layersIn hsound _
  rules w hw l hl := by
    rw [(mem_workspacesIn hw).2] at hl
    rw [(mem_layersIn hl).2]
    exact pairwise_rulesIn hsound _

theorem Exact.eq_nil {found : List CatalogWorkspace} (h : Exact view root suffixes found)
    (hroot : view.isDir root = false) : found = [] := by
  by_contra hne
  obtain ⟨w, hw⟩ := List.exists_mem_of_ne_nil found hne
  obtain ⟨hlayers, hrules⟩ := h.full w hw
  obtain ⟨l, hl⟩ := List.exists_mem_of_ne_nil w.layers hlayers
  obtain ⟨r, hr⟩ := List.exists_mem_of_ne_nil l.rules (hrules l hl)
  have hlisted : Listing.mk w.name l.name r.file ∈ found.flatMap CatalogWorkspace.listings :=
    List.mem_flatMap.mpr ⟨w, hw, mem_listings.mpr ⟨l, hl, r, hr, rfl⟩⟩
  have hrule := (h.listed _).mp hlisted
  have hlayer := Files.isDir_of_isFile_child hrule.file.1 hrule.stands
  have hworkspace := Files.isDir_of_isDir_child hrule.layer.1 hlayer
  rw [Files.isDir_of_isDir_child hrule.workspace.1 hworkspace] at hroot
  cases hroot

/-! ## When there is a catalog -/

theorem exact_catalog (hsound : view.files.Sound) (hstorable : view.files.Storable)
    {found : List CatalogWorkspace} (h : catalog view root suffixes = .ok found) :
    Exact view root suffixes found := by
  have hexact := exact_workspacesIn hsound hstorable root suffixes
  have hasked : view.askDir root = .ok (view.isDir root) :=
    Files.askDir_of_not_nameTooLong hstorable (ends_catalog_iff.mp ⟨found, h⟩)
  rw [catalog, hasked, ok_bind] at h
  cases hdir : view.isDir root with
  | true =>
    rw [hdir] at h
    exact Except.ok.inj h ▸ hexact
  | false =>
    rw [hdir] at h
    rw [← Except.ok.inj h, ← hexact.eq_nil hdir]
    exact hexact

/-- **The catalog of a root is exact**, and it is empty if no directory stands there; only if a name in the
root is longer than a disk allows, there is an error and no catalog. -/
theorem catalog_exact {view : View} (hsound : view.files.Sound) (hstorable : view.files.Storable)
    (root : Path) (suffixes : List String) :
    (NameTooLong view root → catalog view root suffixes = .error (.file .longName root.text)) ∧
    (¬ NameTooLong view root → ∃ found, catalog view root suffixes = .ok found ∧
      Exact view root suffixes found ∧ (view.isDir root = false → found = [])) := by
  refine ⟨fun hlong => catalog_eq_error_iff.mpr ⟨hlong, rfl⟩, fun hshort => ?_⟩
  obtain ⟨found, hfound⟩ := ends_catalog_iff.mpr hshort
  have hexact := exact_catalog hsound hstorable hfound
  exact ⟨found, hfound, hexact, hexact.eq_nil⟩

/-! ## A mixed tree and a missing root -/

/-- A tree with rules, with other files, and with directories of several kinds. -/
def mixedTree : View := ⟨⟨[
  (["rules"], .dir),
  (["rules", "readme.py"], .file [] none),
  (["rules", "shared"], .dir),
  (["rules", "shared", "empty"], .dir),
  (["rules", "server"], .dir),
  (["rules", "server", ".cache"], .dir),
  (["rules", "server", ".cache", "kept.py"], .file [] none),
  (["rules", "server", "model"], .dir),
  (["rules", "server", "model", "types.pyi"], .file [] none),
  (["rules", "server", "model", "nested.py"], .dir),
  (["rules", "server", "model", "short-name.py"],
    .file (Text.encode "# @what Keep names short\n") none),
  (["rules", "server", "model", "broken.py"], .file [0xff] none),
  (["rules", "server", "model", "__init__.py"], .file [] none)]⟩, []⟩

theorem catalog_exact_mixedTree :
    let root := Path.ofString "rules"
    mixedTree.files.Sound ∧ mixedTree.files.Storable ∧ ¬ NameTooLong mixedTree root ∧
      ∃ found, catalog mixedTree root ruleSuffixes = .ok found ∧
        Exact mixedTree root ruleSuffixes found ∧
        ⟨"server", "model", "broken.py"⟩ ∈ found.flatMap CatalogWorkspace.listings ∧
        ⟨"server", ".cache", "kept.py"⟩ ∉ found.flatMap CatalogWorkspace.listings ∧
        describedAt mixedTree (.ofString "rules/server/model/broken.py") = "" := by
  intro root
  have hsound : mixedTree.files.Sound := ⟨by decide +kernel, by decide +kernel⟩
  have hstorable : mixedTree.files.Storable := ⟨by decide +kernel, by decide +kernel⟩
  have hfound : (mixedTree.locate root).toBool = true := by decide +kernel
  have hshort : ¬ NameTooLong mixedTree root := by
    rintro ⟨-, hlong⟩
    rw [hlong] at hfound
    cases hfound
  obtain ⟨found, hcatalog, hexact, -⟩ :=
    (catalog_exact hsound hstorable root ruleSuffixes).2 hshort
  refine ⟨hsound, hstorable, hshort, found, hcatalog, hexact, ?_, fun hkept => ?_, by decide +kernel⟩
  · refine (hexact.listed _).mpr ⟨by decide +kernel, by decide +kernel, ?_, by decide +kernel⟩
    exact ⟨by decide +kernel, isRuleFile_iff.mp (by decide +kernel)⟩
  · have hopen := ((hexact.listed _).mp hkept).layer.2
    revert hopen
    decide +kernel

/-- **A root at which nothing stands need not have the empty catalog.** -/
theorem not_forall_catalog_eq_nil :
    ¬ ∀ (view : View) (root : Path) (suffixes : List String), view.files.Sound →
      view.files.Storable → view.isDir root = false → catalog view root suffixes = .ok [] := by
  intro hall
  have hnowhere : View.isDir ⟨.empty, []⟩ Files.endlessRoot = false := by
    rw [View.isDir, (Files.nameTooLong_endlessRoot _).2]
  have hempty := hall ⟨.empty, []⟩ Files.endlessRoot ruleSuffixes Files.Sound.empty
    ⟨fun _ h => absurd h List.not_mem_nil, fun _ h => absurd h List.not_mem_nil⟩ hnowhere
  rw [catalog, Files.askDir_of_nameTooLong (Files.nameTooLong_endlessRoot _)] at hempty
  cases hempty

end Lintel.Policy
