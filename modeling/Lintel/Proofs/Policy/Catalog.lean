import Lintel.Policy.Loader
import Lintel.Proofs.Files.Entries

/-!
# The names of the catalog

Below a sound tree the catalog names everything once, so a file of it is known by its workspace, its layer
and its name (`Listing`), and no two files have the same id of that kind.

* **`Listing.id_inj`**: workspace, layer and name of a rule file are known from its id;
* `catalog_eq_error_iff`, `eq_of_catalog`: when there is no catalog, and what it is made of;
* `wellNamed_catalog`: the catalog of a sound tree names everything once;
* **`nodup_listed`**, `proper_of_mem_listed`: no file is listed twice, and all are rule files;
* `ruleFiles_eq`: the files that are loaded are those that are listed.
-/

namespace Lintel.Policy

open Files (IsName NameTooLong Path View)

/-! ## Listed files -/

/-- A file of the catalog. -/
structure Listing where
  workspace : String
  layer : String
  file : String
  deriving DecidableEq, Repr

namespace Listing

/-- The path of the file from the root. -/
def path (entry : Listing) : Path := ⟨.none, [entry.workspace, entry.layer, entry.file]⟩

/-- The id that the file gives to its rule. -/
def id (entry : Listing) : String := s!"{entry.workspace}/{entry.layer}/{ruleStem entry.file}"

/-- The components of the path are names, and the last is that of a rule file. -/
structure Proper (entry : Listing) : Prop where
  workspace : IsName entry.workspace
  layer : IsName entry.layer
  file : IsName entry.file
  suffix : Text.endsWith ".py" entry.file = true

theorem toList_ruleStem {name : String} (h : Text.endsWith ".py" name = true) :
    name.toList = (ruleStem name).toList ++ ".py".toList := by
  obtain ⟨stem, hstem⟩ := List.isSuffixOf_iff_suffix.mp h
  unfold ruleStem
  rw [← hstem]
  simp

theorem append_slash_inj {front back rest more : List Char} (hfront : '/' ∉ front)
    (hback : '/' ∉ back) (h : front ++ '/' :: rest = back ++ '/' :: more) :
    front = back ∧ rest = more := by
  rcases List.append_eq_append_iff.mp h with ⟨between, rfl, hrest⟩ | ⟨between, rfl, hrest⟩ <;>
    cases between <;> simp_all

theorem toList_id (entry : Listing) : entry.id.toList =
    entry.workspace.toList ++ '/' :: (entry.layer.toList ++ '/' :: (ruleStem entry.file).toList) := by
  unfold id
  simp [toString]

/-- **The id of a rule file tells its workspace, its layer and its name.** -/
theorem id_inj {first second : Listing} (hfirst : first.Proper) (hsecond : second.Proper)
    (h : first.id = second.id) : first = second := by
  have hchars := congrArg String.toList h
  rw [toList_id, toList_id] at hchars
  obtain ⟨hworkspace, hrest⟩ :=
    append_slash_inj hfirst.workspace.2.2.2 hsecond.workspace.2.2.2 hchars
  obtain ⟨hlayer, hstem⟩ := append_slash_inj hfirst.layer.2.2.2 hsecond.layer.2.2.2 hrest
  have hfile : first.file.toList = second.file.toList := by
    rw [toList_ruleStem hfirst.suffix, toList_ruleStem hsecond.suffix, hstem]
  rw [String.toList_inj] at hworkspace hlayer hfile
  cases first
  cases second
  simp_all

end Listing

/-- The files that a workspace lists. -/
def CatalogWorkspace.listings (w : CatalogWorkspace) : List Listing :=
  w.layers.flatMap fun l => l.rules.map fun r => ⟨w.name, l.name, r.file⟩

/-- The files that are listed for a workspace, or for all of them. -/
def listed (workspaces : List CatalogWorkspace) (key : Option String) : List Listing :=
  (workspaces.filter fun w => key.all (· == w.name)).flatMap CatalogWorkspace.listings

/-- The catalog has every name once, and its rules are those of rule files. -/
structure WellNamed (found : List CatalogWorkspace) : Prop where
  workspaces : (found.map (·.name)).Nodup
  layers : ∀ w ∈ found, (w.layers.map (·.name)).Nodup
  files : ∀ w ∈ found, ∀ l ∈ w.layers, (l.rules.map (·.file)).Nodup
  proper : ∀ w ∈ found, ∀ l ∈ w.layers, ∀ r ∈ l.rules,
    Listing.Proper ⟨w.name, l.name, r.file⟩

variable {view : View} {root path : Path} {suffixes : List String} {workspaces : List CatalogWorkspace}

/-! ## The catalog -/

theorem filterMap_sublist_map {α β : Type} {f : α → Option β} {g : α → β}
    (h : ∀ a b, f a = some b → g a = b) (as : List α) : (as.filterMap f).Sublist (as.map g) := by
  induction as with
  | nil => exact List.Sublist.slnil
  | cons a as ih =>
    rw [List.filterMap_cons, List.map_cons]
    cases hf : f a with
    | none => exact ih.cons _
    | some b => exact h a b hf ▸ ih.cons_cons _

theorem openDirectories_sublist (view : View) (path : Path) :
    (openDirectories view path).Sublist ((entriesOf view path).map (·.1)) := by
  refine filterMap_sublist_map (fun e name hname => ?_) _
  obtain ⟨found, _ | ⟨content, rules⟩⟩ := e
  · simp only [Option.ite_none_left_eq_some, Option.some.injEq] at hname
    exact hname.2
  · cases hname

theorem map_file_rulesIn_sublist (view : View) (suffixes : List String) (path : Path) :
    ((rulesIn view suffixes path).map (·.file)).Sublist ((entriesOf view path).map (·.1)) := by
  unfold rulesIn
  rw [List.map_filterMap]
  refine filterMap_sublist_map (fun e name hname => ?_) _
  obtain ⟨found, _ | ⟨content, rules⟩⟩ := e
  · cases hname
  · obtain ⟨rule, hrule, rfl⟩ := Option.map_eq_some_iff.mp hname
    simp only [Option.ite_none_right_eq_some, Option.some.injEq] at hrule
    rw [← hrule.2]

theorem rulesIn_eq {r : CatalogRule} (h : r ∈ rulesIn view suffixes path) :
    isRuleFile suffixes r.file = true ∧ r.id = ruleStem r.file := by
  obtain ⟨⟨name, _ | ⟨content, rules⟩⟩, -, hrule⟩ := List.mem_filterMap.mp h
  · cases hrule
  · simp only [Option.ite_none_right_eq_some, Option.some.injEq] at hrule
    obtain ⟨hfile, rfl⟩ := hrule
    exact ⟨hfile, rfl⟩

theorem mem_layersIn {l : CatalogLayer} (h : l ∈ layersIn view suffixes path) :
    l.name ∈ openDirectories view path ∧ l.rules = rulesIn view suffixes (path.child l.name) := by
  obtain ⟨name, hname, rfl⟩ := List.mem_map.mp (List.mem_filter.mp h).1
  exact ⟨hname, rfl⟩

theorem mem_workspacesIn {w : CatalogWorkspace} (h : w ∈ workspacesIn view suffixes path) :
    w.name ∈ openDirectories view path ∧ w.layers = layersIn view suffixes (path.child w.name) := by
  obtain ⟨name, hname, rfl⟩ := List.mem_map.mp (List.mem_filter.mp h).1
  exact ⟨hname, rfl⟩

theorem layersIn_singleton {layer file : String} {content : Text.Bytes} {rules : Option RuleModule}
    (hlayer : entriesOf view path = [(layer, .dir)])
    (hfile : entriesOf view (path.child layer) = [(file, .file content rules)])
    (hopen : (Text.startsWith "." layer || Text.startsWith "_" layer) = false)
    (hrule : isRuleFile suffixes file = true) :
    layersIn view suffixes path =
      [⟨layer, [⟨ruleStem file, file, descriptionOf (.file content rules)⟩]⟩] := by
  simp [layersIn, openDirectories, rulesIn, hlayer, hfile, hrule, Bool.or_eq_false_iff.mp hopen]

/-- There is no catalog exactly if it cannot be told what stands at the root. -/
theorem catalog_eq_error_iff {fault : Fault} : catalog view root suffixes = .error fault ↔
    NameTooLong view root ∧ fault = .file .longName root.text := by
  rw [← Files.askDir_eq_error_iff, catalog]
  cases view.askDir root with
  | error cause => simp [error_bind]
  | ok there => cases there <;> simp [ok_bind, pure_eq_ok]

theorem ends_catalog_iff : Ends (catalog view root suffixes) ↔ ¬ NameTooLong view root := by
  rw [ends_iff_forall_ne]
  simp only [ne_eq, catalog_eq_error_iff]
  exact ⟨fun h hlong => h _ ⟨hlong, rfl⟩, fun h fault hfault => h hfault.1⟩

/-- A catalog has the workspaces in the root, or none if this is no directory. -/
theorem eq_of_catalog (h : catalog view root suffixes = .ok workspaces) :
    workspaces = workspacesIn view suffixes root ∨ workspaces = [] := by
  obtain ⟨there, -, hfound⟩ := bind_eq_ok.mp h
  cases there with
  | true => exact .inl (Except.ok.inj hfound).symm
  | false => exact .inr (Except.ok.inj hfound).symm

theorem mem_of_catalog {w : CatalogWorkspace} (h : catalog view root suffixes = .ok workspaces)
    (hw : w ∈ workspaces) : w ∈ workspacesIn view suffixes root := by
  rcases eq_of_catalog h with rfl | rfl
  · exact hw
  · cases hw

section Sound

variable (hsound : view.files.Sound)

include hsound

theorem nodup_entriesOf (path : Path) : ((entriesOf view path).map (·.1)).Nodup := by
  unfold entriesOf View.list
  split_ifs
  · exact List.nodup_nil
  · cases view.locate path with
    | error refusal => exact List.nodup_nil
    | ok found =>
      obtain ⟨place, _ | ⟨content, rules⟩⟩ := found
      · exact hsound.nodup_list place
      · exact List.nodup_nil

theorem isName_entriesOf (path : Path) : ∀ name ∈ (entriesOf view path).map (·.1), IsName name := by
  unfold entriesOf View.list
  split_ifs
  · simp
  · cases view.locate path with
    | error refusal => simp
    | ok found =>
      obtain ⟨place, _ | ⟨content, rules⟩⟩ := found
      · exact fun _ => hsound.isName_list
      · simp

theorem nodup_openDirectories (path : Path) : (openDirectories view path).Nodup :=
  (openDirectories_sublist view path).nodup (nodup_entriesOf hsound path)

theorem isName_openDirectories (path : Path) : ∀ name ∈ openDirectories view path, IsName name :=
  fun name hname => isName_entriesOf hsound path name ((openDirectories_sublist view path).subset hname)

theorem nodup_map_name_layersIn (path : Path) :
    ((layersIn view suffixes path).map (·.name)).Nodup := by
  refine (List.filter_sublist.map _).nodup ?_
  rw [List.map_map]
  exact (nodup_openDirectories hsound path).map fun _ _ h => h

theorem wellNamed_workspacesIn (path : Path) : WellNamed (workspacesIn view ruleSuffixes path) where
  workspaces := by
    refine (List.filter_sublist.map _).nodup ?_
    rw [List.map_map]
    exact (nodup_openDirectories hsound path).map fun _ _ h => h
  layers w hw := by
    rw [(mem_workspacesIn hw).2]
    exact nodup_map_name_layersIn hsound _
  files w hw l hl := by
    rw [(mem_workspacesIn hw).2] at hl
    rw [(mem_layersIn hl).2]
    exact (map_file_rulesIn_sublist view _ _).nodup (nodup_entriesOf hsound _)
  proper w hw l hl r hr := by
    obtain ⟨hname, hlayers⟩ := mem_workspacesIn hw
    rw [hlayers] at hl
    obtain ⟨hlayer, hrules⟩ := mem_layersIn hl
    rw [hrules] at hr
    have hfile := (map_file_rulesIn_sublist view _ _).subset (List.mem_map_of_mem hr)
    have hsuffix := (Bool.and_eq_true_iff.mp (rulesIn_eq hr).1).2
    exact ⟨isName_openDirectories hsound _ _ hname, isName_openDirectories hsound _ _ hlayer,
      isName_entriesOf hsound _ _ hfile, by simpa [ruleSuffixes] using hsuffix⟩

/-- **The catalog of a sound tree names everything once.** -/
theorem wellNamed_catalog (h : catalog view root = .ok workspaces) : WellNamed workspaces := by
  rcases eq_of_catalog h with rfl | rfl
  · exact wellNamed_workspacesIn hsound root
  · exact ⟨List.nodup_nil, by simp, by simp, by simp⟩

end Sound

/-! ## What is listed -/

theorem nodup_flatMap_of_key {α β γ : Type} (key : α → γ) (keyOf : β → γ) {f : α → List β}
    {as : List α} (hkeys : (as.map key).Nodup) (heach : ∀ a ∈ as, (f a).Nodup)
    (hkey : ∀ a ∈ as, ∀ b ∈ f a, keyOf b = key a) : (as.flatMap f).Nodup := by
  rw [List.nodup_flatMap]
  refine ⟨heach, (List.pairwise_map.mp hkeys).imp_of_mem fun {a a'} ha ha' hne => ?_⟩
  intro b hb hb'
  exact hne ((hkey a ha b hb).symm.trans (hkey a' ha' b hb'))

theorem mem_listings {w : CatalogWorkspace} {entry : Listing} :
    entry ∈ w.listings ↔ ∃ l ∈ w.layers, ∃ r ∈ l.rules, ⟨w.name, l.name, r.file⟩ = entry := by
  simp [CatalogWorkspace.listings]

theorem workspace_of_mem_listings {w : CatalogWorkspace} {entry : Listing} (h : entry ∈ w.listings) :
    entry.workspace = w.name := by
  obtain ⟨l, -, r, -, rfl⟩ := mem_listings.mp h
  rfl

theorem mem_listed {key : Option String} {entry : Listing} (h : entry ∈ listed workspaces key) :
    ∃ w ∈ workspaces, entry ∈ w.listings := by
  obtain ⟨w, hw, hentry⟩ := List.mem_flatMap.mp h
  exact ⟨w, (List.mem_filter.mp hw).1, hentry⟩

/-- **No file is listed twice.** -/
theorem nodup_listed (hnamed : WellNamed workspaces) (key : Option String) :
    (listed workspaces key).Nodup := by
  refine nodup_flatMap_of_key CatalogWorkspace.name Listing.workspace ?_ ?_ ?_
  · exact (List.filter_sublist.map _).nodup hnamed.workspaces
  · intro w hw
    have hlists := (List.mem_filter.mp hw).1
    refine nodup_flatMap_of_key CatalogLayer.name Listing.layer (hnamed.layers w hlists) ?_ ?_
    · intro l hl
      refine List.Nodup.of_map Listing.file ?_
      rw [List.map_map]
      exact hnamed.files w hlists l hl
    · intro l _ entry hentry
      obtain ⟨r, -, rfl⟩ := List.mem_map.mp hentry
      rfl
  · exact fun w _ entry hentry => workspace_of_mem_listings hentry

/-- What is listed are rule files. -/
theorem proper_of_mem_listed (hnamed : WellNamed workspaces) {key : Option String} {entry : Listing}
    (h : entry ∈ listed workspaces key) : entry.Proper := by
  obtain ⟨w, hw, hentry⟩ := mem_listed h
  obtain ⟨l, hl, r, hr, rfl⟩ := mem_listings.mp hentry
  exact hnamed.proper w hw l hl r hr

/-- The file as it is loaded. -/
def Listing.toFile (root : Path) (entry : Listing) : RuleFile where
  path := root.join entry.path
  id := entry.id
  policyPath := entry.path.text

theorem filesOfLayer_eq {w : CatalogWorkspace} {l : CatalogLayer}
    (h : ∀ r ∈ l.rules, r.id = ruleStem r.file) :
    filesOfLayer root w.name l =
      (l.rules.map fun r => Listing.mk w.name l.name r.file).map (Listing.toFile root) := by
  unfold filesOfLayer
  rw [List.map_map]
  refine List.map_congr_left fun r hr => ?_
  simp [Listing.toFile, Listing.path, Listing.id, Path.child, Path.join, Path.text, Path.isAbsolute,
    h r hr, toString, String.append_assoc]

/-- **The files that are loaded are those that are listed.** -/
theorem ruleFiles_eq (h : catalog view root = .ok workspaces) (key : Option String) :
    ruleFiles view root key = .ok ((listed workspaces key).map (Listing.toFile root)) := by
  rw [ruleFiles, h, ok_bind, pure_eq_ok, Except.ok.injEq]
  unfold listed CatalogWorkspace.listings
  rw [List.map_flatMap]
  refine List.flatMap_congr fun w hw => ?_
  rw [List.map_flatMap]
  refine List.flatMap_congr fun l hl => ?_
  rw [(mem_workspacesIn (mem_of_catalog h (List.mem_filter.mp hw).1)).2] at hl
  refine filesOfLayer_eq fun r hr => ?_
  rw [(mem_layersIn hl).2] at hr
  exact (rulesIn_eq hr).2

end Lintel.Policy
