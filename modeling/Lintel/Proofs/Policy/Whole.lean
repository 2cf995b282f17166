import Lintel.Proofs.Policy.Load

/-!
# Loading all workspaces and loading them one by one

While the files do not change, what is loaded before is of no account for an answer, and the answer for all
workspaces is put together from the answers for each of them, in the order of the catalog. They differ only
where rules of two workspaces have one id, and then a module sets that id.

* `Scene.Current`, `Scene.answer_run_loads`: after any loads, an answer is what the files give;
* `listed_none`, `listed_some`: the listing of all workspaces and that of one;
* `Accounted.flatMap`, `Accounted.ids_mono`: what is accounted for, part by part;
* `RuleStore.computed_eq_ok`: when the files give rules;
* **`Scene.load_all_eq_each`**: the answer for all workspaces and the answers for each.
-/

namespace Lintel.Policy

open Files (NameTooLong Path Place View)

variable {modules : Path → RuleModule} {view : View} {bytecode : Bytecode} {root : Path}
  {workspaces : List CatalogWorkspace} {entries more : List Listing} {loaded other : LoadedRules}
  {key : Option String} {id : String} {first second : Listing}

/-! ## Unchanged files -/

namespace Scene

/-- What the store keeps is what the files still give. -/
def Current (scene : Scene) : Prop :=
  ∀ key rules, scene.store.kept key = some rules →
    RuleStore.computed scene.view scene.bytecode scene.store.root key = .ok rules

theorem answer_of_current {scene : Scene} (h : scene.Current) (key : Option String) :
    scene.answer key = RuleStore.computed scene.view scene.bytecode scene.store.root key := by
  unfold answer
  rw [RuleStore.answer_eq]
  cases hkept : scene.store.kept key with
  | none => rfl
  | some rules => exact (h key rules hkept).symm

theorem Current.step_load {scene : Scene} (h : scene.Current) (loaded : Option String)
    (leaves : Place → Bool) : (scene.step (.load loaded leaves)).Current := by
  intro key rules hkept
  rw [root_step]
  show RuleStore.computed scene.view (scene.bytecode.leave scene.view leaves) scene.store.root key = _
  rw [RuleStore.computed_congr (moduleAt_leave _ _ _)]
  by_cases heq : loaded = key
  · subst heq
    change (scene.store.after scene.view scene.bytecode loaded).kept loaded = some rules at hkept
    rw [RuleStore.kept_after_self, toOption_eq_some] at hkept
    rw [← answer_of_current h]
    exact hkept
  · exact h key rules ((RuleStore.kept_after_of_ne heq).symm.trans hkept)

/-- The loads of some keys, one after the other, with the compiled forms that they leave. -/
def loads (keys : List (Option String × (Place → Bool))) : List Event :=
  keys.map fun e => .load e.1 e.2

theorem current_run_loads (view : View) (root : Path) (bytecode : Bytecode)
    (keys : List (Option String × (Place → Bool))) :
    let now := (start view root bytecode).run (loads keys)
    now.Current ∧ now.view = view ∧ moduleAt view now.bytecode = moduleAt view bytecode := by
  induction keys using List.reverseRecOn with
  | nil => exact ⟨fun _ _ h => (nomatch h), rfl, rfl⟩
  | append_singleton keys e ih =>
    obtain ⟨hcurrent, hview, hmodules⟩ := ih
    rw [loads, List.map_append, List.map_singleton, run_concat]
    refine ⟨hcurrent.step_load e.1 e.2, hview, ?_⟩
    show moduleAt view (Bytecode.leave _ (run _ (loads keys)).view e.2) = _
    rw [hview, moduleAt_leave, ← hmodules]
    rfl

/-- **After loads alone, an answer is what the files give.** -/
theorem answer_run_loads (view : View) (root : Path) (bytecode : Bytecode)
    (keys : List (Option String × (Place → Bool))) (key : Option String) :
    ((start view root bytecode).run (loads keys)).answer key =
      RuleStore.computed view bytecode root key := by
  obtain ⟨hcurrent, hview, hmodules⟩ := current_run_loads view root bytecode keys
  rw [answer_of_current hcurrent, hview, root_run, RuleStore.computed_congr hmodules]
  rfl

end Scene

/-! ## Parts of the listing -/

theorem listed_none (workspaces : List CatalogWorkspace) :
    listed workspaces none = workspaces.flatMap CatalogWorkspace.listings := by
  unfold listed
  simp

/-- The files of a workspace are those of the listing of all that lie in it. -/
theorem listed_some (workspaces : List CatalogWorkspace) (name : String) :
    listed workspaces (some name) =
      (listed workspaces none).filter fun entry => name == entry.workspace := by
  rw [listed_none, List.filter_flatMap]
  unfold listed
  induction workspaces with
  | nil => rfl
  | cons w rest ih =>
    rw [List.flatMap_cons, ← ih, List.filter_cons]
    by_cases hname : name = w.name
    · have hall : (w.listings.filter fun entry => name == entry.workspace) = w.listings :=
        List.filter_eq_self.mpr fun entry hentry => by
          simp [workspace_of_mem_listings hentry, hname]
      rw [hall, Option.all_some, beq_iff_eq.mpr hname, if_pos rfl, List.flatMap_cons]
    · have hnone : (w.listings.filter fun entry => name == entry.workspace) = [] :=
        List.filter_eq_nil_iff.mpr fun entry hentry => by
          simp [workspace_of_mem_listings hentry, hname]
      rw [hnone, Option.all_some, beq_eq_false_iff_ne.mpr hname, if_neg Bool.false_ne_true,
        List.nil_append]

theorem listed_some_sublist (workspaces : List CatalogWorkspace) (name : String) :
    (listed workspaces (some name)).Sublist (listed workspaces none) := by
  rw [listed_some]
  exact List.filter_sublist

theorem filter_key_eq_singleton {α : Type} {key : α → String} {as : List α} {a : α}
    (hkeys : (as.map key).Nodup) (ha : a ∈ as) : (as.filter fun b => key a == key b) = [a] := by
  induction as with
  | nil => cases ha
  | cons b as ih =>
    obtain ⟨hnew, hkeys⟩ := List.nodup_cons.mp hkeys
    rcases List.mem_cons.mp ha with rfl | ha
    · have hrest : (as.filter fun b => key a == key b) = [] :=
        List.filter_eq_nil_iff.mpr fun b hb heq =>
          hnew (eq_of_beq heq ▸ List.mem_map_of_mem hb)
      rw [List.filter_cons, beq_self_eq_true, if_pos rfl, hrest]
    · have hne : (key a == key b) = false :=
        beq_eq_false_iff_ne.mpr fun heq => hnew (heq ▸ List.mem_map_of_mem ha)
      rw [List.filter_cons, hne, if_neg Bool.false_ne_true, ih hkeys ha]

/-! ## Parts of what is accounted for -/

/-- Parts are accounted for one after the other. -/
theorem Accounted.flatMap {α : Type} {f : α → List Listing} {as : List α} {parts : List LoadedRules}
    (h : List.Forall₂ (fun a part => Accounted modules root (f a) part) as parts) :
    Accounted modules root (as.flatMap f) ⟨parts.flatMap (·.rules), parts.flatMap (·.faults)⟩ := by
  induction h with
  | nil => exact .nil
  | cons hpart _ ih => exact hpart.append ih

/-- The ids of a part are among the ids of the whole, in their order. -/
theorem Accounted.ids_mono (h : Accounted modules root entries loaded) (hpart : more.Sublist entries)
    (hmore : Accounted modules root more other) : other.ids.Sublist loaded.ids := by
  induction hpart generalizing loaded other with
  | slnil =>
    cases h
    cases hmore
    exact List.Sublist.slnil
  | cons entry _ ih =>
    cases h with
    | rule _ hrest => exact (ih hrest hmore).cons _
    | fault _ hrest =>
      have hids := ih hrest hmore
      exact hids
  | cons_cons entry _ ih =>
    cases h with
    | rule hcomes hrest =>
      cases hmore with
      | rule hother hmore =>
        cases hcomes.unique hother
        exact (ih hrest hmore).cons_cons _
      | fault hother _ => cases hcomes.unique hother
    | fault hcomes hrest =>
      cases hmore with
      | rule hother _ => cases hcomes.unique hother
      | fault _ hmore =>
        have hids := ih hrest hmore
        exact hids

theorem Clash.not_nodup (h : Clash modules root entries id first second)
    (hloaded : Accounted modules root entries loaded) : ¬ loaded.ids.Nodup := by
  obtain ⟨rule, hfirst, rfl⟩ := h.first
  obtain ⟨other, hsecond, heq⟩ := h.second
  have hboth := hloaded.ids_mono h.order (.rule hfirst (.rule hsecond .nil))
  intro hnodup
  have hdifferent := hboth.nodup hnodup
  simp [LoadedRules.ids, heq] at hdifferent

namespace RuleStore

section Files

variable (hworkspaces : catalog view root = .ok workspaces)

include hworkspaces

/-- What the files give is their account, and no id comes twice in it. -/
theorem computed_eq_ok : computed view bytecode root key = .ok loaded ↔
    Accounted (moduleAt view bytecode) root (listed workspaces key) loaded ∧ loaded.ids.Nodup := by
  rw [computed_of_catalog hworkspaces]
  constructor
  · intro h
    by_cases hnone : NoneExits (moduleAt view bytecode) root (listed workspaces key)
    · obtain ⟨account, haccount⟩ := exists_accounted hnone
      by_cases hnodup : account.ids.Nodup
      · rw [loadFiles_of_nodup haccount hnodup] at h
        exact Except.ok.inj h ▸ ⟨haccount, hnodup⟩
      · obtain ⟨id, first, second, -, hfails⟩ := exists_clash haccount hnodup []
        rw [List.append_nil, h] at hfails
        cases hfails
    · obtain ⟨front, entry, back, fault, hentries, hfront, hexits⟩ := exists_first_exits hnone
      obtain ⟨account, haccount⟩ := exists_accounted hfront
      rw [hentries] at h
      by_cases hnodup : account.ids.Nodup
      · rw [loadFiles_append_of_exits haccount hnodup hexits] at h
        cases h
      · obtain ⟨id, first, second, -, hfails⟩ := exists_clash haccount hnodup (entry :: back)
        rw [h] at hfails
        cases hfails
  · rintro ⟨hloaded, hnodup⟩
    exact loadFiles_of_nodup hloaded hnodup

theorem ends_computed_some (h : Ends (computed view bytecode root none)) (name : String) :
    Ends (computed view bytecode root (some name)) := by
  obtain ⟨loaded, hloaded⟩ := h
  obtain ⟨haccount, hnodup⟩ := (computed_eq_ok hworkspaces).mp hloaded
  have hpart := listed_some_sublist workspaces name
  obtain ⟨part, haccount'⟩ : ∃ part, Accounted (moduleAt view bytecode) root
      (listed workspaces (some name)) part :=
    exists_accounted fun entry hentry => haccount.noneExits entry (hpart.subset hentry)
  have hids := haccount.ids_mono hpart haccount'
  exact ⟨part, (computed_eq_ok hworkspaces).mpr ⟨haccount', hids.nodup hnodup⟩⟩

theorem noneExits_of_each
    (heach : ∀ name ∈ workspaces.map (·.name), Ends (computed view bytecode root (some name))) :
    NoneExits (moduleAt view bytecode) root (listed workspaces none) := by
  intro entry hentry
  obtain ⟨w, hw, hlisted⟩ := mem_listed hentry
  obtain ⟨part, hpart⟩ := heach w.name (List.mem_map_of_mem hw)
  refine ((computed_eq_ok hworkspaces).mp hpart).1.noneExits entry ?_
  rw [listed_some]
  exact List.mem_filter.mpr ⟨hentry, by simp [workspace_of_mem_listings hlisted]⟩

variable (hsound : view.files.Sound)

include hsound

theorem listed_none_eq :
    listed workspaces none =
      (workspaces.map (·.name)).flatMap fun name => listed workspaces (some name) := by
  rw [listed_none, List.flatMap_map]
  refine List.flatMap_congr fun w hw => ?_
  unfold listed
  simp only [Option.all_some]
  rw [filter_key_eq_singleton (wellNamed_catalog hsound hworkspaces).workspaces hw,
    List.flatMap_singleton]

theorem exists_parts (h : computed view bytecode root none = .ok loaded) :
    ∃ parts, List.Forall₂ (fun name part => computed view bytecode root (some name) = .ok part)
        (workspaces.map (·.name)) parts ∧
      loaded.rules = parts.flatMap (·.rules) ∧ loaded.faults = parts.flatMap (·.faults) := by
  obtain ⟨parts, hparts⟩ : Ends ((workspaces.map (·.name)).mapM fun name =>
      computed view bytecode root (some name)) :=
    ends_mapM.mpr fun name _ => ends_computed_some hworkspaces ⟨loaded, h⟩ name
  have hparts := mapM_eq_ok.mp hparts
  have hwhole := Accounted.flatMap
    (hparts.imp fun _ _ hpart => ((computed_eq_ok hworkspaces).mp hpart).1)
  rw [← listed_none_eq hworkspaces hsound] at hwhole
  have hloaded := ((computed_eq_ok hworkspaces).mp h).1.unique hwhole
  exact ⟨parts, hparts, by rw [hloaded], by rw [hloaded]⟩

theorem exists_shared (hnot : ¬ Ends (computed view bytecode root none))
    (heach : ∀ name ∈ workspaces.map (·.name), Ends (computed view bytecode root (some name))) :
    ∃ id first second, first ∈ listed workspaces none ∧ second ∈ listed workspaces none ∧
      first.workspace ≠ second.workspace ∧ first.Bears (moduleAt view bytecode) root id ∧
      second.Bears (moduleAt view bytecode) root id ∧
      (first.Sets (moduleAt view bytecode) root id ∨ second.Sets (moduleAt view bytecode) root id) := by
  obtain ⟨account, haccount⟩ := exists_accounted (noneExits_of_each hworkspaces heach)
  have htwice : ¬ account.ids.Nodup := fun hnodup =>
    hnot ⟨account, (computed_eq_ok hworkspaces).mpr ⟨haccount, hnodup⟩⟩
  obtain ⟨id, first, second, hclash, -⟩ := exists_clash haccount htwice []
  have hfirst : first ∈ listed workspaces none := hclash.order.subset List.mem_cons_self
  have hsecond : second ∈ listed workspaces none := hclash.order.subset (by simp)
  have hne : first.workspace ≠ second.workspace := by
    intro heq
    -- both files would be listed in one workspace, which could not be loaded then
    obtain ⟨w, hw, hlisted⟩ := mem_listed hfirst
    have hname := workspace_of_mem_listings hlisted
    obtain ⟨part, hpart⟩ := heach w.name (List.mem_map_of_mem hw)
    obtain ⟨hpart, hnodup⟩ := (computed_eq_ok hworkspaces).mp hpart
    have horder : [first, second].Sublist (listed workspaces (some w.name)) := by
      have hboth : ([first, second].filter fun entry => w.name == entry.workspace) =
          [first, second] := by
        simp [hname, ← heq]
      rw [listed_some, ← hboth]
      exact hclash.order.filter _
    exact Clash.not_nodup ⟨horder, hclash.first, hclash.second⟩ hpart hnodup
  refine ⟨id, first, second, hfirst, hsecond, hne, hclash.first, hclash.second, ?_⟩
  by_contra hnone
  obtain ⟨hnone₁, hnone₂⟩ := not_or.mp hnone
  have hid : first.id = second.id := by
    rw [← Listing.eq_id_of_not_sets hclash.first hnone₁,
      ← Listing.eq_id_of_not_sets hclash.second hnone₂]
  have hnamed := wellNamed_catalog hsound hworkspaces
  have hsame := Listing.id_inj (proper_of_mem_listed hnamed hfirst) (proper_of_mem_listed hnamed hsecond) hid
  exact hne (congrArg Listing.workspace hsame)

end Files

end RuleStore

/-- **While the files do not change, loading all workspaces comes to loading them one by one**, whatever was
loaded before each of the loads. Without a catalog, all loads fail in the same way. -/
theorem Scene.load_all_eq_each (hsound : view.files.Sound) (root : Path) (bytecode : Bytecode)
    (before : Option String → List (Option String × (Place → Bool))) :
    let modules := moduleAt view bytecode
    let answer := fun key => ((start view root bytecode).run (loads (before key))).answer key
    (NameTooLong view root → ∀ key, answer key = .error (.file .longName root.text)) ∧
    (¬ NameTooLong view root → ∃ workspaces, catalog view root = .ok workspaces ∧
      (∀ loaded, answer none = .ok loaded →
        ∃ parts, List.Forall₂ (fun name part => answer (some name) = .ok part)
            (workspaces.map (·.name)) parts ∧
          loaded.rules = parts.flatMap (·.rules) ∧ loaded.faults = parts.flatMap (·.faults)) ∧
      (∀ name, ¬ Ends (answer (some name)) → ¬ Ends (answer none)) ∧
      (¬ Ends (answer none) →
        (∀ name ∈ workspaces.map (·.name), Ends (answer (some name))) →
        ∃ id first second, first ∈ listed workspaces none ∧ second ∈ listed workspaces none ∧
          first.workspace ≠ second.workspace ∧ first.Bears modules root id ∧
          second.Bears modules root id ∧
          (first.Sets modules root id ∨ second.Sets modules root id))) := by
  simp only [answer_run_loads]
  refine ⟨fun hlong key => RuleStore.computed_of_nameTooLong hlong bytecode key, fun hshort => ?_⟩
  obtain ⟨workspaces, hworkspaces⟩ := ends_catalog_iff.mpr hshort
  exact ⟨workspaces, hworkspaces, fun _ h => RuleStore.exists_parts hworkspaces hsound h,
    fun name hnot hall => hnot (RuleStore.ends_computed_some hworkspaces hall name),
    fun hnot heach => RuleStore.exists_shared hworkspaces hsound hnot heach⟩

/-- Each of the two workspaces can be loaded, but not both of them together. -/
theorem Scene.load_all_eq_each_sharedId :
    sharedId.files.Sound ∧ ∃ id, ∃ first second : Listing, first.workspace ≠ second.workspace ∧
      first.Bears (moduleAt sharedId {}) (.ofPlace []) id ∧
      second.Bears (moduleAt sharedId {}) (.ofPlace []) id := by
  have hshort : ¬ NameTooLong sharedId (.ofPlace []) := ends_catalog_iff.mp ⟨_, catalog_sharedId⟩
  obtain ⟨workspaces, hworkspaces, -, -, hshared⟩ :=
    (load_all_eq_each sound_sharedId (.ofPlace []) {} fun _ => []).2 hshort
  obtain ⟨whole, hwhole, htwice⟩ := accounted_sharedId hworkspaces
  have hnone : ¬ Ends (RuleStore.computed sharedId {} (.ofPlace []) none) := by
    rintro ⟨loaded, hloaded⟩
    obtain ⟨haccount, hnodup⟩ := (RuleStore.computed_eq_ok hworkspaces).mp hloaded
    exact htwice (hwhole.unique haccount ▸ hnodup)
  have heach : ∀ name, Ends (RuleStore.computed sharedId {} (.ofPlace []) (some name)) := by
    intro name
    -- one workspace has one file, and one id does not come twice
    obtain ⟨part, hpart⟩ : ∃ part, Accounted (moduleAt sharedId {}) (.ofPlace [])
        (listed workspaces (some name)) part :=
      exists_accounted fun entry hentry =>
        hwhole.noneExits entry ((listed_some_sublist workspaces name).subset hentry)
    refine ⟨part, (RuleStore.computed_eq_ok hworkspaces).mpr ⟨hpart, ?_⟩⟩
    by_contra hnot
    obtain ⟨id, first, second, hclash, -⟩ := exists_clash hpart hnot []
    have htwo := hclash.order.length_le
    rw [listed_some, listed_sharedId hworkspaces] at htwo
    by_cases hserver : name = "server" <;> by_cases hweb : name = "web" <;> simp_all
  simp only [answer_run_loads] at hshared
  obtain ⟨id, first, second, -, -, hne, hfirst, hsecond, -⟩ := hshared hnone fun name _ => heach name
  exact ⟨sound_sharedId, id, first, second, hne, hfirst, hsecond⟩

end Lintel.Policy
