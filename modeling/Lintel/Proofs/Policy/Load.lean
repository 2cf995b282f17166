import Lintel.Proofs.Policy.Catalog
import Lintel.Proofs.Policy.History

/-!
# What a load accounts for

Each listed file comes to one rule or to one fault (`Listing.Comes`), unless its module ends the program
(`Listing.Exits`), and a load gathers both in the order of the listing (`Accounted`). Without such a module it
fails only where two rules have one id.

* `Listing.comes_or_exits`, `Listing.Comes.unique`: what a file comes to is what loading it gives;
* `exists_accounted`, `Accounted.unique`, `Accounted.append`: every list of files is accounted for, in one
  way only and part by part;
* `loadFiles_of_fault`, `loadFiles_of_fresh`, `loadFiles_of_taken`: what a load does with its first file;
* `loadFiles_of_nodup`, `exists_clash`: a load without two rules of one id, and with them;
* `nodup_of_not_sets`: ids that come from the places of files are different;
* **`RuleStore.load_accounts`**: the first load for a workspace, or for all of them;
  `not_forall_ends_load`: it may fail although nothing is there to be loaded.
-/

namespace Lintel.Policy

open Files (NameTooLong Path View)

variable {modules : Path → RuleModule} {view : View} {bytecode : Bytecode} {root : Path}
  {workspaces : List CatalogWorkspace} {entry first second : Listing} {entries more : List Listing}
  {loaded other : LoadedRules} {rule : Rule} {id : String} {key : Option String} {fault : Fault}

/-! ## One file -/

theorem isExit_rejection (path : String) (fault : Fault) :
    (rejection path fault).isExit = fault.isExit := by
  cases fault <;> rfl

namespace Listing

/-- The module of the file. -/
def moduleIn (entry : Listing) (modules : Path → RuleModule) (root : Path) : RuleModule :=
  modules (root.join entry.path)

/-- The text of the path of the file. -/
def place (entry : Listing) (root : Path) : String := (root.join entry.path).text

/-- What a file comes to: the rule of its module, with its own id or else that of the file, or a fault. -/
inductive Comes (modules : Path → RuleModule) (root : Path) (entry : Listing) :
    Except Fault Rule → Prop
  | rule (own : Rule) (exports : (entry.moduleIn modules root).exported = .ok (some own)) :
    Comes modules root entry (.ok { own with
      id := if own.id = "" then entry.id else own.id
      metadata := Metadata.ofDoc ((entry.moduleIn modules root).doc.getD "")
      policyPath := entry.path.text })
  | nothing (exports : (entry.moduleIn modules root).exported = .ok none) :
    Comes modules root entry (.error (.ruleRejected
      (entry.place root ++ " does not export a policy_check rule") (entry.place root)))
  | broken (fault : Fault) (exports : (entry.moduleIn modules root).exported = .error fault)
    (goesOn : fault.isExit = false) :
    Comes modules root entry (.error (rejection (entry.place root) fault))

/-- The module of the file ends the program. -/
def Exits (modules : Path → RuleModule) (root : Path) (entry : Listing) (fault : Fault) : Prop :=
  (entry.moduleIn modules root).exported = .error fault ∧ fault.isExit = true

/-- The file has a rule with this id. -/
def Bears (modules : Path → RuleModule) (root : Path) (entry : Listing) (id : String) : Prop :=
  ∃ rule, entry.Comes modules root (.ok rule) ∧ rule.id = id

/-- The module of the file sets this id for its rule. -/
def Sets (modules : Path → RuleModule) (root : Path) (entry : Listing) (id : String) : Prop :=
  id ≠ "" ∧ ∃ own, (entry.moduleIn modules root).exported = .ok (some own) ∧ own.id = id

/-- The module decides which of the three it is, unless it ends the program. -/
theorem comes_or_exits (modules : Path → RuleModule) (root : Path) (entry : Listing) :
    (∃ outcome, entry.Comes modules root outcome) ∨ ∃ fault, entry.Exits modules root fault := by
  match hexports : (entry.moduleIn modules root).exported with
  | .error fault =>
    cases hexit : fault.isExit with
    | false => exact .inl ⟨_, .broken fault hexports hexit⟩
    | true => exact .inr ⟨fault, hexports, hexit⟩
  | .ok none => exact .inl ⟨_, .nothing hexports⟩
  | .ok (some own) => exact .inl ⟨_, .rule own hexports⟩

theorem loadFile_of_comes {outcome : Except Fault Rule} (h : entry.Comes modules root outcome) :
    loadFile modules (entry.toFile root) = outcome := by
  have hmodule : modules (entry.toFile root).path = entry.moduleIn modules root := rfl
  unfold loadFile
  cases h with
  | rule own hexports =>
    simp only [hmodule, hexports]
    simp [Rule.bind, toFile]
  | nothing hexports =>
    simp only [hmodule, hexports]
    rfl
  | broken fault hexports =>
    simp only [hmodule, hexports]
    rfl

theorem loadFile_of_exits (h : entry.Exits modules root fault) :
    loadFile modules (entry.toFile root) = .error fault := by
  obtain ⟨hexports, hexit⟩ := h
  have hmodule : modules (entry.toFile root).path = entry.moduleIn modules root := rfl
  unfold loadFile
  simp only [hmodule, hexports]
  cases fault <;> cases hexit
  rfl

theorem Comes.unique {outcome other : Except Fault Rule} (h : entry.Comes modules root outcome)
    (hother : entry.Comes modules root other) : outcome = other :=
  (loadFile_of_comes h).symm.trans (loadFile_of_comes hother)

theorem Comes.not_exits {outcome : Except Fault Rule} (h : entry.Comes modules root outcome) :
    ¬ entry.Exits modules root fault := by
  rintro ⟨hexits, hexit⟩
  cases h with
  | rule own hexports => cases hexports.symm.trans hexits
  | nothing hexports => cases hexports.symm.trans hexits
  | broken cause hexports hgoesOn =>
    obtain rfl := Except.error.inj (hexports.symm.trans hexits)
    rw [hexit] at hgoesOn
    cases hgoesOn

/-- **A file comes to the rule that loading it gives.** -/
theorem comes_ok_iff : entry.Comes modules root (.ok rule) ↔
    loadFile modules (entry.toFile root) = .ok rule := by
  refine ⟨loadFile_of_comes, fun h => ?_⟩
  rcases comes_or_exits modules root entry with ⟨outcome, houtcome⟩ | ⟨fault, hexits⟩
  · rw [loadFile_of_comes houtcome] at h
    exact h ▸ houtcome
  · rw [loadFile_of_exits hexits] at h
    cases h

theorem Comes.goesOn (h : entry.Comes modules root (.error fault)) : fault.isExit = false := by
  cases h with
  | nothing hexports => rfl
  | broken cause hexports hgoesOn => rw [isExit_rejection, hgoesOn]

theorem eq_id_of_not_sets (h : entry.Bears modules root id) (hnot : ¬ entry.Sets modules root id) :
    id = entry.id := by
  obtain ⟨rule, hcomes, rfl⟩ := h
  cases hcomes with
  | rule own hexports =>
    by_cases hempty : own.id = ""
    · exact if_pos hempty
    · refine absurd ⟨?_, own, hexports, ?_⟩ hnot
      · rwa [if_neg hempty]
      · rw [if_neg hempty]

end Listing

/-! ## All files -/

/-- Each of the files is accounted for once, by its rule or by its fault, in their order. -/
inductive Accounted (modules : Path → RuleModule) (root : Path) : List Listing → LoadedRules → Prop
  | nil : Accounted modules root [] {}
  | rule {entry : Listing} {entries : List Listing} {rule : Rule} {loaded : LoadedRules}
    (comes : entry.Comes modules root (.ok rule)) (rest : Accounted modules root entries loaded) :
    Accounted modules root (entry :: entries) { loaded with rules := rule :: loaded.rules }
  | fault {entry : Listing} {entries : List Listing} {fault : Fault} {loaded : LoadedRules}
    (comes : entry.Comes modules root (.error fault)) (rest : Accounted modules root entries loaded) :
    Accounted modules root (entry :: entries) { loaded with faults := fault :: loaded.faults }

/-- The ids of the rules that were loaded. -/
def LoadedRules.ids (loaded : LoadedRules) : List String := loaded.rules.map (·.id)

/-- Two of the files, the second after the first, have rules with one id. -/
structure Clash (modules : Path → RuleModule) (root : Path) (entries : List Listing) (id : String)
    (first second : Listing) : Prop where
  order : [first, second].Sublist entries
  first : first.Bears modules root id
  second : second.Bears modules root id

/-- None of the files has a module that ends the program. -/
def NoneExits (modules : Path → RuleModule) (root : Path) (entries : List Listing) : Prop :=
  ∀ entry ∈ entries, ∀ fault, ¬ entry.Exits modules root fault

theorem exists_accounted (h : NoneExits modules root entries) :
    ∃ loaded, Accounted modules root entries loaded := by
  induction entries with
  | nil => exact ⟨_, .nil⟩
  | cons entry entries ih =>
    obtain ⟨hentry, hentries⟩ := List.forall_mem_cons.mp h
    obtain ⟨loaded, hloaded⟩ := ih hentries
    rcases entry.comes_or_exits modules root with ⟨fault | rule, hcomes⟩ | ⟨fault, hexits⟩
    · exact ⟨_, .fault hcomes hloaded⟩
    · exact ⟨_, .rule hcomes hloaded⟩
    · exact absurd hexits (hentry fault)

theorem Accounted.noneExits (h : Accounted modules root entries loaded) :
    NoneExits modules root entries := by
  induction h with
  | nil => exact fun _ hmem => absurd hmem List.not_mem_nil
  | rule hcomes _ ih => exact List.forall_mem_cons.mpr ⟨fun _ => hcomes.not_exits, ih⟩
  | fault hcomes _ ih => exact List.forall_mem_cons.mpr ⟨fun _ => hcomes.not_exits, ih⟩

theorem exists_first_exits (h : ¬ NoneExits modules root entries) :
    ∃ front entry back fault, entries = front ++ entry :: back ∧ NoneExits modules root front ∧
      entry.Exits modules root fault := by
  induction entries with
  | nil => exact absurd (fun _ hmem => absurd hmem List.not_mem_nil) h
  | cons entry entries ih =>
    by_cases hentry : ∃ fault, entry.Exits modules root fault
    · obtain ⟨fault, hexits⟩ := hentry
      exact ⟨[], entry, entries, fault, rfl, fun _ hmem => absurd hmem List.not_mem_nil, hexits⟩
    · have hgoesOn : ∀ fault, ¬ entry.Exits modules root fault := not_exists.mp hentry
      obtain ⟨front, first, back, fault, rfl, hfront, hexits⟩ :=
        ih fun hrest => h (List.forall_mem_cons.mpr ⟨hgoesOn, hrest⟩)
      exact ⟨entry :: front, first, back, fault, rfl, List.forall_mem_cons.mpr ⟨hgoesOn, hfront⟩, hexits⟩

theorem Accounted.unique (h : Accounted modules root entries loaded)
    (hother : Accounted modules root entries other) : loaded = other := by
  induction h generalizing other with
  | nil => cases hother; rfl
  | rule hcomes _ ih =>
    cases hother with
    | rule hcomes' hrest => cases hcomes.unique hcomes'; rw [ih hrest]
    | fault hcomes' _ => cases hcomes.unique hcomes'
  | fault hcomes _ ih =>
    cases hother with
    | rule hcomes' _ => cases hcomes.unique hcomes'
    | fault hcomes' hrest => cases hcomes.unique hcomes'; rw [ih hrest]

/-- What is accounted for part by part. -/
theorem Accounted.append (h : Accounted modules root entries loaded)
    (hmore : Accounted modules root more other) :
    Accounted modules root (entries ++ more)
      ⟨loaded.rules ++ other.rules, loaded.faults ++ other.faults⟩ := by
  induction h with
  | nil => exact hmore
  | rule hcomes _ ih => exact .rule hcomes ih
  | fault hcomes _ ih => exact .fault hcomes ih

section LoadFiles

variable {seen : List (String × String)}

/-- A file with a fault goes to the faults. -/
theorem loadFiles_of_fault {fault : Fault} (h : entry.Comes modules root (.error fault)) :
    loadFiles modules seen ((entry :: entries).map (Listing.toFile root)) =
      (loadFiles modules seen (entries.map (Listing.toFile root))).map fun rest =>
        { rest with faults := fault :: rest.faults } := by
  rw [List.map_cons, loadFiles, Listing.loadFile_of_comes h, map_eq_bind]
  simp only [h.goesOn, Bool.false_eq_true, if_false]
  rfl

theorem loadFiles_of_exits (h : entry.Exits modules root fault) :
    loadFiles modules seen ((entry :: entries).map (Listing.toFile root)) = .error fault := by
  rw [List.map_cons, loadFiles, Listing.loadFile_of_exits h]
  exact if_pos h.2

/-- A rule with a new id goes to the rules. -/
theorem loadFiles_of_fresh (h : entry.Comes modules root (.ok rule))
    (hfresh : ∀ p ∈ seen, p.1 ≠ rule.id) :
    loadFiles modules seen ((entry :: entries).map (Listing.toFile root)) =
      (loadFiles modules ((rule.id, entry.place root) :: seen) (entries.map (Listing.toFile root))).map
        fun rest => { rest with rules := rule :: rest.rules } := by
  have hnone : seen.find? (·.1 == rule.id) = none := by
    rw [List.find?_eq_none]
    exact fun p hp heq => hfresh p hp (eq_of_beq heq)
  rw [List.map_cons, loadFiles, Listing.loadFile_of_comes h, map_eq_bind]
  simp only [hnone]
  rfl

/-- A rule whose id was seen ends the load. -/
theorem loadFiles_of_taken (entries : List Listing) (h : entry.Comes modules root (.ok rule))
    (htaken : ¬ ∀ p ∈ seen, p.1 ≠ rule.id) :
    ∃ place, (rule.id, place) ∈ seen ∧
      loadFiles modules seen ((entry :: entries).map (Listing.toFile root)) =
        .error (duplicateFault rule.id (entry.place root) place) := by
  cases hfind : seen.find? (·.1 == rule.id) with
  | none =>
    rw [List.find?_eq_none] at hfind
    exact absurd (fun p hp heq => hfind p hp (by simp [heq])) htaken
  | some found =>
    obtain ⟨id, place⟩ := found
    obtain rfl : id = rule.id := by simpa using List.find?_some hfind
    refine ⟨place, List.mem_of_find?_eq_some hfind, ?_⟩
    rw [List.map_cons, loadFiles, Listing.loadFile_of_comes h]
    simp only [hfind]
    rfl

theorem loadFiles_append_of_nodup (h : Accounted modules root entries loaded) (hnodup : loaded.ids.Nodup)
    (hfresh : ∀ p ∈ seen, p.1 ∉ loaded.ids) (more : List Listing) :
    ∃ seen', loadFiles modules seen ((entries ++ more).map (Listing.toFile root)) =
      (loadFiles modules seen' (more.map (Listing.toFile root))).map fun rest =>
        ⟨loaded.rules ++ rest.rules, loaded.faults ++ rest.faults⟩ := by
  induction h generalizing seen with
  | nil =>
    refine ⟨seen, ?_⟩
    cases hrest : loadFiles modules seen (more.map (Listing.toFile root)) <;> simp [hrest, Except.map]
  | @rule entry entries rule loaded hcomes _ ih =>
    obtain ⟨hnew, hnodup⟩ := List.nodup_cons.mp hnodup
    have hrest : ∀ p ∈ (rule.id, entry.place root) :: seen, p.1 ∉ loaded.ids :=
      List.forall_mem_cons.mpr ⟨hnew, fun p hp hmem => hfresh p hp (List.mem_cons_of_mem _ hmem)⟩
    obtain ⟨seen', hseen'⟩ := ih hnodup hrest
    refine ⟨seen', ?_⟩
    rw [List.cons_append, loadFiles_of_fresh hcomes, hseen']
    · cases loadFiles modules seen' (more.map (Listing.toFile root)) <;> rfl
    · exact fun p hp heq => hfresh p hp (heq ▸ List.mem_cons_self)
  | fault hcomes _ ih =>
    obtain ⟨seen', hseen'⟩ := ih hnodup hfresh
    refine ⟨seen', ?_⟩
    rw [List.cons_append, loadFiles_of_fault hcomes, hseen']
    cases loadFiles modules seen' (more.map (Listing.toFile root)) <;> rfl

theorem loadFiles_append_of_not_nodup (seen : List (String × String))
    (h : Accounted modules root entries loaded)
    (hnot : ¬ (loaded.ids.Nodup ∧ ∀ p ∈ seen, p.1 ∉ loaded.ids)) (more : List Listing) :
    ∃ id second place, loadFiles modules seen ((entries ++ more).map (Listing.toFile root)) =
        .error (duplicateFault id (second.place root) place) ∧
      second ∈ entries ∧ second.Bears modules root id ∧ ((id, place) ∈ seen ∨
        ∃ first, Clash modules root entries id first second ∧ place = first.place root) := by
  induction h generalizing seen with
  | nil => simp [LoadedRules.ids] at hnot
  | @rule entry entries rule loaded hcomes _ ih =>
    by_cases hfresh : ∀ p ∈ seen, p.1 ≠ rule.id
    · -- the rule is fresh, so two later files clash, or one of them clashes with it
      have hrest : ¬ (loaded.ids.Nodup ∧
          ∀ p ∈ (rule.id, entry.place root) :: seen, p.1 ∉ loaded.ids) := by
        rintro ⟨hnodup, hseen⟩
        obtain ⟨hnew, hseen⟩ := List.forall_mem_cons.mp hseen
        refine hnot ⟨List.nodup_cons.mpr ⟨hnew, hnodup⟩, fun p hp hmem => ?_⟩
        rcases List.mem_cons.mp hmem with heq | hmem
        · exact hfresh p hp heq
        · exact hseen p hp hmem
      obtain ⟨id, second, place, hfails, hsecond, hbears, hplace⟩ := ih _ hrest
      refine ⟨id, second, place, ?_, List.mem_cons_of_mem _ hsecond, hbears, ?_⟩
      · rw [List.cons_append, loadFiles_of_fresh hcomes hfresh, hfails]
        rfl
      · rcases hplace with hmem | ⟨first, hclash, rfl⟩
        · rcases List.mem_cons.mp hmem with heq | hmem
          · obtain ⟨rfl, rfl⟩ := Prod.mk.inj heq
            refine .inr ⟨entry, ⟨?_, ⟨rule, hcomes, rfl⟩, hbears⟩, rfl⟩
            exact (List.singleton_sublist.mpr hsecond).cons_cons entry
          · exact .inl hmem
        · exact .inr ⟨first, ⟨hclash.order.cons _, hclash.first, hclash.second⟩, rfl⟩
    · obtain ⟨place, hplace, hfails⟩ := loadFiles_of_taken (entries ++ more) hcomes hfresh
      exact ⟨rule.id, entry, place, hfails, List.mem_cons_self, ⟨rule, hcomes, rfl⟩, .inl hplace⟩
  | @fault entry entries fault loaded hcomes _ ih =>
    obtain ⟨id, second, place, hfails, hsecond, hbears, hplace⟩ := ih _ hnot
    refine ⟨id, second, place, ?_, List.mem_cons_of_mem _ hsecond, hbears, hplace.imp_right ?_⟩
    · rw [List.cons_append, loadFiles_of_fault hcomes, hfails]
      rfl
    · rintro ⟨first, hclash, rfl⟩
      exact ⟨first, ⟨hclash.order.cons _, hclash.first, hclash.second⟩, rfl⟩

theorem loadFiles_of_nodup (h : Accounted modules root entries loaded) (hnodup : loaded.ids.Nodup) :
    loadFiles modules [] (entries.map (Listing.toFile root)) = .ok loaded := by
  obtain ⟨seen', hloads⟩ := loadFiles_append_of_nodup h hnodup (fun p hp => absurd hp List.not_mem_nil) []
  rw [List.append_nil] at hloads
  rw [hloads]
  simp [loadFiles, Except.map]

/-- **A load fails with the second of two files whose rules have one id**, whatever files follow. -/
theorem exists_clash (h : Accounted modules root entries loaded) (hnot : ¬ loaded.ids.Nodup)
    (more : List Listing) :
    ∃ id first second, Clash modules root entries id first second ∧
      loadFiles modules [] ((entries ++ more).map (Listing.toFile root)) =
        .error (duplicateFault id (second.place root) (first.place root)) := by
  obtain ⟨id, second, place, hfails, -, -, hplace⟩ :=
    loadFiles_append_of_not_nodup [] h (fun hall => hnot hall.1) more
  rcases hplace with hmem | ⟨first, hclash, rfl⟩
  · cases hmem
  · exact ⟨id, first, second, hclash, hfails⟩

/-- **A module that ends the program ends the load**, if no id comes twice before it. -/
theorem loadFiles_append_of_exits (h : Accounted modules root entries loaded) (hnodup : loaded.ids.Nodup)
    (hexits : entry.Exits modules root fault) (more : List Listing) :
    loadFiles modules [] ((entries ++ entry :: more).map (Listing.toFile root)) = .error fault := by
  obtain ⟨seen', hloads⟩ :=
    loadFiles_append_of_nodup h hnodup (fun p hp => absurd hp List.not_mem_nil) (entry :: more)
  rw [hloads, loadFiles_of_exits hexits]
  rfl

end LoadFiles

theorem Accounted.ids_sublist (h : Accounted modules root entries loaded)
    (hnone : ∀ entry ∈ entries, ∀ id, ¬ entry.Sets modules root id) :
    loaded.ids.Sublist (entries.map Listing.id) := by
  induction h with
  | nil => exact List.Sublist.slnil
  | @rule entry entries rule loaded hcomes _ ih =>
    obtain ⟨hentry, hnone⟩ := List.forall_mem_cons.mp hnone
    have hid : rule.id = entry.id := Listing.eq_id_of_not_sets ⟨rule, hcomes, rfl⟩ (hentry _)
    show (rule.id :: loaded.ids).Sublist (entry.id :: entries.map Listing.id)
    rw [hid]
    exact (ih hnone).cons_cons _
  | fault _ _ ih => exact (ih fun entry hentry => hnone entry (List.mem_cons_of_mem _ hentry)).cons _

/-- **Ids that come from the places of files are different.** -/
theorem nodup_of_not_sets (hnamed : WellNamed workspaces)
    (h : Accounted modules root (listed workspaces key) loaded)
    (hnone : ∀ entry ∈ listed workspaces key, ∀ id, ¬ entry.Sets modules root id) : loaded.ids.Nodup := by
  refine (h.ids_sublist hnone).nodup ((nodup_listed hnamed key).map_on ?_)
  intro first hfirst second hsecond heq
  exact Listing.id_inj (proper_of_mem_listed hnamed hfirst) (proper_of_mem_listed hnamed hsecond) heq

/-! ## Two workspaces that share an id -/

/-- The file of a module whose rule finds nothing. -/
def quietFile (id : String) : Entry :=
  .file [] (some ⟨none, .ok (some ⟨id, none, fun _ _ => .done, .error, {}, ""⟩)⟩)

/-- Two workspaces with a rule each; the second one sets the id that the first one has from its place. -/
def sharedId : View where
  files := (Files.empty.put ["server", "use-case", "a.py"] (quietFile "")).put
    ["web", "use-case", "b.py"] (quietFile "server/use-case/a")

theorem sound_sharedId : sharedId.files.Sound :=
  (Files.Sound.empty.put (by decide +kernel)).put (by decide +kernel)

theorem catalog_sharedId : catalog sharedId (.ofPlace []) = .ok
    [⟨"server", [⟨"use-case", [⟨ruleStem "a.py", "a.py", descriptionOf (quietFile "")⟩]⟩]⟩,
      ⟨"web", [⟨"use-case",
        [⟨ruleStem "b.py", "b.py", descriptionOf (quietFile "server/use-case/a")⟩]⟩]⟩] := by
  have hroot : entriesOf sharedId (.ofPlace []) = [("server", .dir), ("web", .dir)] :=
    List.mergeSort_of_pairwise (by decide)
  have hserver : entriesOf sharedId (.ofPlace ["server"]) = [("use-case", .dir)] :=
    List.mergeSort_singleton _
  have hfirst : entriesOf sharedId (.ofPlace ["server", "use-case"]) = [("a.py", quietFile "")] :=
    List.mergeSort_singleton _
  have hweb : entriesOf sharedId (.ofPlace ["web"]) = [("use-case", .dir)] :=
    List.mergeSort_singleton _
  have hsecond : entriesOf sharedId (.ofPlace ["web", "use-case"]) =
      [("b.py", quietFile "server/use-case/a")] :=
    List.mergeSort_singleton _
  have hfound : workspacesIn sharedId ruleSuffixes (.ofPlace []) =
      [⟨"server", layersIn sharedId ruleSuffixes (.ofPlace ["server"])⟩,
        ⟨"web", layersIn sharedId ruleSuffixes (.ofPlace ["web"])⟩].filter (!·.layers.isEmpty) := by
    rw [workspacesIn, openDirectories, hroot]
    rfl
  rw [layersIn_singleton hserver hfirst rfl rfl, layersIn_singleton hweb hsecond rfl rfl] at hfound
  exact congrArg Except.ok hfound

theorem listed_sharedId {workspaces : List CatalogWorkspace}
    (h : catalog sharedId (.ofPlace []) = .ok workspaces) :
    listed workspaces none = [⟨"server", "use-case", "a.py"⟩, ⟨"web", "use-case", "b.py"⟩] := by
  rw [← Except.ok.inj (catalog_sharedId.symm.trans h)]
  rfl

theorem exported_sharedId :
    (Listing.moduleIn ⟨"server", "use-case", "a.py"⟩ (moduleAt sharedId {}) (.ofPlace [])).exported =
        .ok (some ⟨"", none, fun _ _ => .done, .error, {}, ""⟩) ∧
      (Listing.moduleIn ⟨"web", "use-case", "b.py"⟩ (moduleAt sharedId {}) (.ofPlace [])).exported =
        .ok (some ⟨"server/use-case/a", none, fun _ _ => .done, .error, {}, ""⟩) := ⟨rfl, rfl⟩

theorem accounted_sharedId {workspaces : List CatalogWorkspace}
    (h : catalog sharedId (.ofPlace []) = .ok workspaces) :
    ∃ loaded, Accounted (moduleAt sharedId {}) (.ofPlace []) (listed workspaces none) loaded ∧
      ¬ loaded.ids.Nodup := by
  rw [listed_sharedId h]
  refine ⟨_, .rule (.rule _ exported_sharedId.1) (.rule (.rule _ exported_sharedId.2) .nil), ?_⟩
  decide +kernel

/-! ## The first load -/

namespace RuleStore

theorem computed_of_catalog (h : catalog view root = .ok workspaces) (bytecode : Bytecode)
    (key : Option String) : computed view bytecode root key =
      loadFiles (moduleAt view bytecode) [] ((listed workspaces key).map (Listing.toFile root)) := by
  rw [computed, ruleFiles_eq h]
  rfl

theorem computed_of_nameTooLong (h : NameTooLong view root) (bytecode : Bytecode) (key : Option String) :
    computed view bytecode root key = .error (.file .longName root.text) := by
  have hfails : catalog view root = .error (.file .longName root.text) := catalog_eq_error_iff.mpr ⟨h, rfl⟩
  rw [computed, ruleFiles, hfails]
  rfl

theorem load_of_computed_eq_error (h : computed view bytecode root key = .error fault) :
    load ⟨root, []⟩ view key bytecode = .error fault := by
  have hload : load ⟨root, []⟩ view key bytecode = (computed view bytecode root key).map _ :=
    load_of_not_kept rfl
  rw [hload, h]
  rfl

theorem load_of_computed_eq_ok (h : computed view bytecode root key = .ok loaded) :
    load ⟨root, []⟩ view key bytecode = .ok (loaded, ⟨root, [(key, loaded)]⟩) := by
  have hload : load ⟨root, []⟩ view key bytecode = (computed view bytecode root key).map _ :=
    load_of_not_kept rfl
  rw [hload, h]
  rfl

/-- **The first load for a workspace, or for all of them, accounts for every file that is listed**: each one
comes to its rule or to its fault, unless two rules have one id. Then, and only then, the load fails, with
the second of the two; where no module sets an id of its own, it does not. This is so if there is a catalog
and no module ends the program; one that does ends the load, unless two rules before it have one id. -/
theorem load_accounts (hsound : view.files.Sound) (root : Path) (key : Option String)
    (bytecode : Bytecode) :
    let modules := moduleAt view bytecode
    let first := load ⟨root, []⟩ view key bytecode
    (NameTooLong view root → first = .error (.file .longName root.text)) ∧
    (¬ NameTooLong view root → ∃ workspaces, catalog view root = .ok workspaces ∧
      let entries := listed workspaces key
      (NoneExits modules root entries → ∃ loaded, Accounted modules root entries loaded ∧
        (loaded.ids.Nodup → first = .ok (loaded, ⟨root, [(key, loaded)]⟩)) ∧
        (¬ loaded.ids.Nodup → ∃ id one other, Clash modules root entries id one other ∧
          first = .error (duplicateFault id (other.place root) (one.place root))) ∧
        ((∀ entry ∈ entries, ∀ id, ¬ entry.Sets modules root id) → loaded.ids.Nodup)) ∧
      (¬ NoneExits modules root entries → ∃ front entry back fault loaded,
        entries = front ++ entry :: back ∧ entry.Exits modules root fault ∧
        Accounted modules root front loaded ∧
        (loaded.ids.Nodup → first = .error fault) ∧
        (¬ loaded.ids.Nodup → ∃ id one other, Clash modules root front id one other ∧
          first = .error (duplicateFault id (other.place root) (one.place root))))) := by
  intro modules first
  refine ⟨fun hlong => load_of_computed_eq_error (computed_of_nameTooLong hlong bytecode key),
    fun hshort => ?_⟩
  obtain ⟨workspaces, hworkspaces⟩ := ends_catalog_iff.mpr hshort
  have hcomputed := computed_of_catalog hworkspaces bytecode key
  refine ⟨workspaces, hworkspaces, fun hnone => ?_, fun hexits => ?_⟩
  · obtain ⟨loaded, hloaded⟩ := exists_accounted hnone
    refine ⟨loaded, hloaded, fun hnodup => ?_, fun hnot => ?_,
      nodup_of_not_sets (wellNamed_catalog hsound hworkspaces) hloaded⟩
    · exact load_of_computed_eq_ok (hcomputed.trans (loadFiles_of_nodup hloaded hnodup))
    · obtain ⟨id, one, other, hclash, hfails⟩ := exists_clash hloaded hnot []
      rw [List.append_nil] at hfails
      exact ⟨id, one, other, hclash, load_of_computed_eq_error (hcomputed.trans hfails)⟩
  · obtain ⟨front, entry, back, fault, hentries, hfront, hexits⟩ := exists_first_exits hexits
    obtain ⟨loaded, hloaded⟩ := exists_accounted hfront
    rw [hentries] at hcomputed
    refine ⟨front, entry, back, fault, loaded, hentries, hexits, hloaded, fun hnodup => ?_, fun hnot => ?_⟩
    · exact load_of_computed_eq_error (hcomputed.trans (loadFiles_append_of_exits hloaded hnodup hexits back))
    · obtain ⟨id, one, other, hclash, hfails⟩ := exists_clash hloaded hnot (entry :: back)
      exact ⟨id, one, other, hclash, load_of_computed_eq_error (hcomputed.trans hfails)⟩

/-- Loading both workspaces together fails. -/
theorem load_accounts_sharedId :
    sharedId.files.Sound ∧ ∃ id place other, load ⟨.ofPlace [], []⟩ sharedId none =
      .error (duplicateFault id place other) := by
  refine ⟨sound_sharedId, ?_⟩
  have hshort : ¬ NameTooLong sharedId (.ofPlace []) := ends_catalog_iff.mp ⟨_, catalog_sharedId⟩
  obtain ⟨workspaces, hworkspaces, hloads, -⟩ :=
    (load_accounts sound_sharedId (.ofPlace []) none {}).2 hshort
  obtain ⟨loaded, haccounted, htwice⟩ := accounted_sharedId hworkspaces
  obtain ⟨loaded', haccounted', -, hfails, -⟩ := hloads haccounted.noneExits
  obtain ⟨id, one, other, -, hload⟩ := hfails (haccounted.unique haccounted' ▸ htwice)
  exact ⟨id, _, _, hload⟩

/-- **A load may fail although there is nothing to be loaded.** -/
theorem not_forall_ends_load :
    ¬ ∀ (root : Path) (key : Option String), Ends (load ⟨root, []⟩ ⟨.empty, []⟩ key) := by
  intro hall
  obtain ⟨loaded, hloaded⟩ := hall Files.endlessRoot none
  rw [load_of_computed_eq_error
    (computed_of_nameTooLong (Files.nameTooLong_endlessRoot _) {} none)] at hloaded
  cases hloaded

end RuleStore

end Lintel.Policy
