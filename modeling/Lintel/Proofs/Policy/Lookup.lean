import Lintel.Proofs.Policy.Documents
import Mathlib.Data.List.Basic

/-!
# Policies by their ids

A policy is looked up by its id, with its category or without. A name has no slash and a qualified id has one,
so no id is taken for one of the other kind, and no two policies share a qualified id. Of the policies that
share an id, the one in the first category is found.

* `ne_qualifiedId_of_isName`, `qualifiedId_inj`: the two kinds of ids;
* `find?_eq_some_iff_first`: what is found in a row that is in order;
* `find?_qualifiedId`, `find?_eq_some_iff_isFirstOf`: which policy of the row an id finds;
* `ends_scanDocuments_iff`: when there is a row of policies (`Readable`); `readable_of_isLegible`: one case;
* **`lookup_exact`**: which policy is found for each kind of id, and when none is.
-/

namespace Lintel.Policy

open Files (IsName NameTooLong Path View)

variable {view : View} {root path : Path} {policy other : Lintel.Policy} {id text : String}
  {found : List Lintel.Policy} {fault : Fault}

/-! ## Ids -/

theorem toList_qualifiedId (policy : Lintel.Policy) :
    policy.qualifiedId.toList = policy.category.toList ++ '/' :: policy.id.toList := by
  simp [qualifiedId]

/-- A name is no qualified id. -/
theorem ne_qualifiedId_of_isName (h : IsName id) : id ≠ policy.qualifiedId := by
  rintro rfl
  exact h.2.2.2 (by simp [toList_qualifiedId])

/-- **A qualified id tells the category and the id.** -/
theorem qualifiedId_inj (hcategory : IsName policy.category) (hid : IsName policy.id) :
    policy.qualifiedId = other.qualifiedId ↔
      policy.category = other.category ∧ policy.id = other.id := by
  rw [← String.toList_inj, toList_qualifiedId, toList_qualifiedId,
    List.append_cons_inj_of_notMem hcategory.2.2.2 hid.2.2.2, String.toList_inj, String.toList_inj]
  simp

theorem IsPolicy.eq_of_ids (h : IsPolicy view root policy) (hother : IsPolicy view root other)
    (hcategory : policy.category = other.category) (hid : policy.id = other.id) : policy = other := by
  have hpath : policy.path = other.path := by rw [h.path, hother.path, hcategory, hid]
  have habout : policy.about = other.about := by
    have hread := readMeta_eq_some_iff.mpr h.described
    rw [hpath, readMeta_eq_some_iff.mpr hother.described] at hread
    exact (Option.some.inj (Except.ok.inj hread)).symm
  cases policy
  cases other
  simp_all

theorem IsPolicy.mem_directoriesIn (hsound : view.files.Sound) (hstorable : view.files.Storable)
    (h : IsPolicy view root policy) : policy.category ∈ directoriesIn view root := by
  have hplace := mem_policyDirectories hsound hstorable h.category h.id (h.path ▸ h.described).isFile
  obtain ⟨category, hcategory, hplace⟩ := List.mem_flatMap.mp hplace
  obtain ⟨id, -, heq⟩ := List.mem_map.mp hplace
  exact (Prod.mk.inj heq).1 ▸ hcategory

/-! ## What is found in a row -/

/-- **In a row that is in order**, what is found is what comes before all else that could be. -/
theorem find?_eq_some_iff_first {α : Type} {R : α → α → Prop} {xs : List α} {p : α → Bool} {x : α}
    (hasymm : ∀ a b, R a b → ¬ R b a) (h : xs.Pairwise R) :
    xs.find? p = some x ↔ x ∈ xs ∧ p x = true ∧ ∀ y ∈ xs, p y = true → y = x ∨ R x y := by
  rw [List.find?_eq_some_iff_append]
  constructor
  · rintro ⟨hx, before, after, rfl, hbefore⟩
    refine ⟨by simp, hx, fun y hy hpy => ?_⟩
    rcases List.mem_append.mp hy with hy | hy
    · have hnot := hbefore y hy
      rw [hpy] at hnot
      cases hnot
    · rcases List.mem_cons.mp hy with rfl | hy
      · exact .inl rfl
      · exact .inr ((List.pairwise_cons.mp (List.pairwise_append.mp h).2.1).1 y hy)
  · rintro ⟨hmem, hx, hfirst⟩
    obtain ⟨before, after, rfl, hnot⟩ := List.eq_append_cons_of_mem hmem
    refine ⟨hx, before, after, rfl, fun y hy => ?_⟩
    rw [Bool.not_eq_true', Bool.eq_false_iff]
    intro hpy
    rcases hfirst y (List.mem_append_left _ hy) hpy with rfl | hlater
    · exact hnot hy
    · exact hasymm x y hlater ((List.pairwise_append.mp h).2.2 y hy x List.mem_cons_self)

/-- A policy answers to its qualified id and to its bare one. -/
def AnswersTo (text : String) (policy : Lintel.Policy) : Bool :=
  text == policy.qualifiedId || text == policy.id

theorem answersTo_iff :
    AnswersTo text policy = true ↔ text = policy.qualifiedId ∨ text = policy.id := by
  simp [AnswersTo]

theorem answersTo_iff_of_isName (hid : IsName id) : AnswersTo id policy = true ↔ policy.id = id := by
  rw [answersTo_iff, or_iff_right (ne_qualifiedId_of_isName hid), eq_comm]

theorem eq_of_answersTo_qualifiedId (h : IsPolicy view root policy) (hother : IsPolicy view root other)
    (hanswers : AnswersTo policy.qualifiedId other = true) : other = policy := by
  rcases answersTo_iff.mp hanswers with hqualified | hid
  · obtain ⟨hcategory, hid⟩ := (qualifiedId_inj h.category h.id).mp hqualified
    exact (h.eq_of_ids hother hcategory hid).symm
  · exact absurd hid.symm (ne_qualifiedId_of_isName hother.id)

/-- Of the policies with this id, this one is in the first category. -/
structure IsFirstOf (found : List Lintel.Policy) (id : String) (policy : Lintel.Policy) : Prop where
  listed : policy ∈ found
  named : policy.id = id
  first : ∀ other ∈ found, other.id = id → other = policy ∨ policy.category < other.category

/-- **A qualified id finds its policy.** -/
theorem find?_qualifiedId (hexact : ExactPolicies view root found) (hmem : policy ∈ found) :
    found.find? (AnswersTo policy.qualifiedId) = some policy := by
  rw [find?_eq_some_iff_first (fun _ _ => Before.asymm) hexact.sorted]
  refine ⟨hmem, answersTo_iff.mpr (.inl rfl), fun other hother hanswers => .inl ?_⟩
  exact eq_of_answersTo_qualifiedId ((hexact.listed policy).mp hmem) ((hexact.listed other).mp hother)
    hanswers

/-- **A bare id finds the policy in the first category.** -/
theorem find?_eq_some_iff_isFirstOf (hexact : ExactPolicies view root found) (hid : IsName id) :
    found.find? (AnswersTo id) = some policy ↔ IsFirstOf found id policy := by
  rw [find?_eq_some_iff_first (fun _ _ => Before.asymm) hexact.sorted]
  simp only [answersTo_iff_of_isName hid]
  have hbefore {other : Lintel.Policy} (hpolicy : policy.id = id) (hother : other.id = id) :
      Before (policy.category, policy.id) (other.category, other.id) ↔
        policy.category < other.category := by
    simp [Before, hpolicy, hother]
  constructor
  · rintro ⟨hmem, hpolicy, hfirst⟩
    exact ⟨hmem, hpolicy, fun other hother hsame =>
      (hfirst other hother hsame).imp_right (hbefore hpolicy hsame).mp⟩
  · intro h
    exact ⟨h.listed, h.named, fun other hother hsame =>
      (h.first other hother hsame).imp_right (hbefore h.named hsame).mpr⟩

/-! ## Descriptions that can be read -/

/-- The descriptions below the root can be read, and so can the names in the root. -/
structure Readable (view : View) (root : Path) : Prop where
  short : ¬ NameTooLong view root
  unbroken : ∀ place fault, ¬ BreaksAt view root place fault

/-- **There is a row of policies** exactly if the descriptions can be read. -/
theorem ends_scanDocuments_iff (hsound : view.files.Sound) (hstorable : view.files.Storable) :
    Ends (scanDocuments view root) ↔ Readable view root := by
  by_cases hlong : NameTooLong view root
  · rw [scanDocuments, Files.askDir_of_nameTooLong hlong, error_bind]
    exact iff_of_false (not_ends_error _) fun hreadable => hreadable.short hlong
  · rw [scanDocuments_eq hsound hstorable hlong, ends_map, ends_mapM]
    simp only [ends_iff_forall_ne]
    constructor
    · refine fun hall => ⟨hlong, fun place fault hbreaks => ?_⟩
      obtain ⟨hmem, hfault⟩ := (breaksAt_iff hsound hstorable).mp hbreaks
      exact hall place hmem fault hfault
    · exact fun hreadable place hmem fault hfault =>
        hreadable.unbroken place fault ((breaksAt_iff hsound hstorable).mpr ⟨hmem, hfault⟩)

/-- What stands there is no file, or a text in which no number is too long. -/
def isLegible : Entry → Bool
  | .dir => true
  | .file content _ =>
    match View.textOf content with
    | .error _ => false
    | .ok text =>
      match Json.parse text.toList with
      | .error (.longInteger _) => false
      | _ => true

theorem not_breaksReading_of_isLegible (hstorable : view.files.Storable)
    (h : ∀ e ∈ view.files.entries, isLegible e.2 = true) : ¬ BreaksReading view path fault := by
  intro hbreaks
  obtain ⟨place, content, rules, hplace⟩ := Files.isFile_iff.mp hbreaks.isFile
  have hlegible := h _ (Files.mem_entries_of_entry?_file (Files.entry?_of_locateFrom hplace))
  have hread := Files.readText_of_locate hstorable hplace
  rcases hbreaks with ⟨flaw, htext, -⟩ | ⟨text, digits, htext, hparse, -⟩ <;>
    rw [hread] at htext
  · simp [isLegible, htext] at hlegible
  · simp [isLegible, htext, hparse] at hlegible

/-- A row of policies is there where all files are legible. -/
theorem readable_of_isLegible (hstorable : view.files.Storable) (hroot : view.isDir root = true)
    (h : ∀ e ∈ view.files.entries, isLegible e.2 = true) : Readable view root :=
  ⟨Files.not_nameTooLong_of_isDir hroot, fun _ _ hbreaks =>
    not_breaksReading_of_isLegible hstorable h hbreaks.breaks⟩

/-! ## Lookups -/

theorem find?_eq_map (view : View) (root : Path) (text : String) :
    find? view root text = (scanDocuments view root).map fun found => found.find? (AnswersTo text) :=
  (map_eq_bind _ _).symm

/-- **What a lookup finds** where the descriptions can be read: for a qualified id of a policy this very policy,
for a bare id the policy in the first category that has one of this id, and nothing exactly if no policy has
the id of either kind. Where they cannot be read, no lookup has an answer. -/
theorem lookup_exact {view : View} (hsound : view.files.Sound) (hstorable : view.files.Storable)
    (root : Path) :
    (∀ text, Ends (find? view root text) ↔ Readable view root) ∧
    (Readable view root →
      ∃ found, scanDocuments view root = .ok found ∧ ExactPolicies view root found ∧
        (∀ policy ∈ found, find? view root policy.qualifiedId = .ok (some policy)) ∧
        (∀ policy ∈ found, ∃ first, IsFirstOf found policy.id first ∧
          find? view root policy.id = .ok (some first)) ∧
        ∀ text, find? view root text = .ok none ↔
          ∀ policy ∈ found, text ≠ policy.qualifiedId ∧ text ≠ policy.id) := by
  constructor
  · intro text
    rw [find?_eq_map, ends_map, ends_scanDocuments_iff hsound hstorable]
  · intro hreadable
    obtain ⟨found, hfound⟩ := (ends_scanDocuments_iff hsound hstorable).mpr hreadable
    have hexact := exact_of_scanDocuments hsound hstorable hreadable.short hfound
    have hlookup (text : String) : find? view root text = .ok (found.find? (AnswersTo text)) := by
      rw [find?_eq_map, hfound]
      rfl
    refine ⟨found, hfound, hexact, fun policy hmem => ?_, fun policy hmem => ?_, fun text => ?_⟩
    · rw [hlookup, find?_qualifiedId hexact hmem]
    · have hid := ((hexact.listed policy).mp hmem).id
      obtain ⟨first, hfirst⟩ : ∃ first, found.find? (AnswersTo policy.id) = some first := by
        rw [← Option.isSome_iff_exists, List.find?_isSome]
        exact ⟨policy, hmem, (answersTo_iff_of_isName hid).mpr rfl⟩
      exact ⟨first, (find?_eq_some_iff_isFirstOf hexact hid).mp hfirst, by rw [hlookup, hfirst]⟩
    · simp only [hlookup, Except.ok.injEq, List.find?_eq_none, answersTo_iff, not_or, ne_eq]

/-! ## A shelf on which categories share ids -/

/-- A shelf with one id in two categories, and one that is the name of a category too. -/
def twinShelf : View := ⟨⟨[
  (["docs"], .dir),
  (["docs", "web"], .dir),
  (["docs", "web", "testing"], .dir),
  (["docs", "web", "testing", "meta.json"],
    written "\x7b\"label\": \"Pages\", \"description\": \"\"\x7d"),
  (["docs", "web", "web"], .dir),
  (["docs", "web", "web", "meta.json"],
    written "\x7b\"label\": \"Web\", \"description\": \"\"\x7d"),
  (["docs", "server"], .dir),
  (["docs", "server", "testing"], .dir),
  (["docs", "server", "testing", "meta.json"],
    written "\x7b\"label\": \"Routes\", \"description\": \"\"\x7d")]⟩, []⟩

theorem lookup_exact_twinShelf :
    let root := Path.ofString "docs"
    twinShelf.files.Sound ∧ twinShelf.files.Storable ∧ Readable twinShelf root ∧
      find? twinShelf root "web/testing" =
        .ok (some (policyOf root "web" "testing" ⟨"Pages", "", []⟩)) ∧
      find? twinShelf root "testing" =
        .ok (some (policyOf root "server" "testing" ⟨"Routes", "", []⟩)) ∧
      find? twinShelf root "server/web" = .ok none := by
  intro root
  have hsound : twinShelf.files.Sound := ⟨by decide +kernel, by decide +kernel⟩
  have hstorable : twinShelf.files.Storable := ⟨by decide +kernel, by decide +kernel⟩
  have hreadable : Readable twinShelf root := readable_of_isLegible hstorable rfl (by decide +kernel)
  obtain ⟨-, hlookup⟩ := lookup_exact hsound hstorable root
  obtain ⟨found, -, hexact, hqualified, hbare, hnone⟩ := hlookup hreadable
  have hpages : policyOf root "web" "testing" ⟨"Pages", "", []⟩ ∈ found :=
    (hexact.listed _).mpr ⟨by decide, by decide, rfl,
      readMeta_eq_some_iff.mp (toOption_eq_some.mp (by decide +kernel))⟩
  have hroutes : policyOf root "server" "testing" ⟨"Routes", "", []⟩ ∈ found :=
    (hexact.listed _).mpr ⟨by decide, by decide, rfl,
      readMeta_eq_some_iff.mp (toOption_eq_some.mp (by decide +kernel))⟩
  refine ⟨hsound, hstorable, hreadable, hqualified _ hpages, ?_, (hnone _).mpr fun policy hmem => ?_⟩
  · obtain ⟨first, hfirst, hfind⟩ := hbare _ hroutes
    rcases hfirst.first _ hroutes rfl with rfl | hbefore
    · exact hfind
    · -- no category comes before that of the server
      have hplace : twinShelf.locate root = .ok (["docs"], .dir) := rfl
      have hcategory : first.category = "web" ∨ first.category = "server" := by
        simpa [twinShelf, written] using mem_entries_of_mem_directoriesIn hsound hstorable hplace
          (((hexact.listed first).mp hfirst.listed).mem_directoriesIn hsound hstorable)
      rcases hcategory with heq | heq <;> rw [heq] at hbefore <;> exact absurd hbefore (by decide)
  · have hpolicy := (hexact.listed policy).mp hmem
    refine ⟨fun hqualified => ?_, fun hid => absurd (hid ▸ hpolicy.id) (by decide)⟩
    obtain ⟨hcategory, hid⟩ := (qualifiedId_inj hpolicy.category hpolicy.id).mp
      (show policy.qualifiedId = (policyOf root "server" "web" ⟨"", "", []⟩).qualifiedId from
        hqualified.symm)
    have hfile := hpolicy.described.isFile
    rw [hpolicy.path, hcategory, hid] at hfile
    exact absurd hfile (by decide +kernel)

end Lintel.Policy
