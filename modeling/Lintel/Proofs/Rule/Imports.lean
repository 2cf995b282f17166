import Lintel.Proofs.Check.Order
import Lintel.Proofs.Files.Collapse
import Mathlib.Data.List.DropRight

/-!
# Imports of domain models

A path leads into a directory if what it resolves to does (`LiesInDomain`): a dot stands for nothing, and two
dots take back the name in front of them (`Resolves`). The rule does not resolve paths but looks at what they
start with, so a path that leaves the directory again passes.

* `resolves_iff`: segments resolve to one row of segments;
* `isDomainImport_iff`: the reader of paths looks at the segments as they stand;
* `visitExternalImport_eq`: what the rule reports at a node;
* **`Check.check_imports_exact`**: what it reports in a file, and when these are the imports from outside;
  `Check.not_forall_check_eq_outside`: an import that leaves the domain.
-/

namespace Lintel

open Files (View)
open Project (EntityIndex)
open Syntax (Cursor Node NodeKind Source)

namespace Rule

variable {source : Source} {path : String} {segments done result front back more : List String}

/-! ## Dots in paths -/

/-- The segments of a path: what stands between its slashes. -/
def segmentsOf (path : String) : List String := (path.toList.splitOn '/').map String.ofList

/-- The segment names something: it is not empty, no dot, and not two dots. -/
def Names (segment : String) : Prop := segment ∉ ["", ".", ".."]

instance : DecidablePred Names := fun _ => inferInstanceAs (Decidable (_ ∉ _))

/-- There is no dot, and two dots have no name in front of them. -/
structure Resolved (segments : List String) : Prop where
  noDot : "." ∉ segments
  goesUp : ∀ front back, segments = front ++ ".." :: back → ∀ segment ∈ front, ¬ Names segment

/-- A dot stands for nothing, and two dots take back the last name in front of them, with the empty segments
between; without such a name they stay. -/
inductive Resolves : List String → List String → Prop
  | done {segments : List String} (resolved : Resolved segments) : Resolves segments segments
  | dot {front back result : List String} (rest : Resolves (front ++ back) result) :
    Resolves (front ++ "." :: back) result
  | up {front back empties result : List String} {name : String} (names : Names name)
    (empty : ∀ segment ∈ empties, segment = "") (rest : Resolves (front ++ back) result) :
    Resolves (front ++ name :: (empties ++ ".." :: back)) result

/-- The segments after two dots: the last name is taken back, if there is one. -/
def goUp (done : List String) : List String :=
  if ∃ segment ∈ done, Names segment then (done.rdropWhile (· = "")).dropLast else done ++ [".."]

def resolveStep (done : List String) (segment : String) : List String :=
  if segment = "." then done else if segment = ".." then goUp done else done ++ [segment]

def resolve (segments : List String) : List String := segments.foldl resolveStep []

theorem resolve_concat (segments : List String) (segment : String) :
    resolve (segments ++ [segment]) = resolveStep (resolve segments) segment := by
  simp [resolve]

theorem resolve_append (front back : List String) :
    resolve (front ++ back) = back.foldl resolveStep (resolve front) := List.foldl_append

theorem Resolved.of_append (h : Resolved (front ++ back)) : Resolved front where
  noDot hdot := h.noDot (List.mem_append_left _ hdot)
  goesUp before after hfront :=
    h.goesUp before (after ++ back) (by rw [hfront, List.append_assoc, List.cons_append])

theorem Resolved.concat {segment : String} (h : Resolved done) (hdot : segment ≠ ".")
    (hup : segment = ".." → ∀ other ∈ done, ¬ Names other) : Resolved (done ++ [segment]) where
  noDot := by
    rw [List.mem_append, List.mem_singleton, not_or]
    exact ⟨h.noDot, hdot.symm⟩
  goesUp front back hsplit := by
    rcases List.eq_nil_or_concat back with rfl | ⟨back, last, rfl⟩
    · obtain ⟨rfl, hsegment⟩ := List.append_inj' hsplit rfl
      exact hup (List.singleton_inj.mp hsegment)
    · rw [List.concat_eq_append, ← List.cons_append, ← List.append_assoc] at hsplit
      exact h.goesUp front back (List.append_inj' hsplit rfl).1

theorem Resolved.exists_last (h : Resolved done) (hname : ∃ segment ∈ done, Names segment) :
    ∃ front name empties, done = front ++ name :: empties ∧ Names name ∧
      ∀ segment ∈ empties, segment = "" := by
  induction done using List.reverseRecOn with
  | nil => simp at hname
  | append_singleton done segment ih =>
    by_cases hlast : Names segment
    · exact ⟨done, segment, [], rfl, hlast, by simp⟩
    · have hdone : ∃ segment ∈ done, Names segment := by
        obtain ⟨name, hmem, hname⟩ := hname
        rcases List.mem_append.mp hmem with hmem | hmem
        · exact ⟨name, hmem, hname⟩
        · rw [List.mem_singleton] at hmem
          exact absurd (hmem ▸ hname) hlast
      obtain ⟨front, name, empties, rfl, hfound, hempties⟩ := ih h.of_append hdone
      have hempty : segment = "" := by
        have hcases : segment = "" ∨ segment = "." ∨ segment = ".." := by
          simpa only [Names, not_not, List.mem_cons, List.not_mem_nil, or_false] using hlast
        rcases hcases with rfl | rfl | rfl
        · rfl
        · exact absurd (by simp) h.noDot
        · exact absurd hfound (h.goesUp _ [] rfl name (by simp))
      refine ⟨front, name, empties ++ [segment], by simp, hfound, fun other hother => ?_⟩
      rcases List.mem_append.mp hother with hother | hother
      · exact hempties other hother
      · rw [List.mem_singleton.mp hother, hempty]

theorem goUp_of_name {name : String} {empties : List String} (hname : Names name)
    (hempties : ∀ segment ∈ empties, segment = "") : goUp (front ++ name :: empties) = front := by
  have hne : name ≠ "" := fun heq => hname (by simp [heq])
  have hdrop : (front ++ name :: empties).rdropWhile (· = "") = front ++ [name] := by
    induction empties using List.reverseRecOn with
    | nil => exact List.rdropWhile_concat_neg _ _ _ (by simpa using hne)
    | append_singleton empties segment ih =>
      rw [← List.cons_append, ← List.append_assoc,
        List.rdropWhile_concat_pos _ _ _ (by simpa using hempties segment (by simp))]
      exact ih fun other hother => hempties other (List.mem_append_left _ hother)
  rw [goUp, if_pos ⟨name, by simp, hname⟩, hdrop, List.dropLast_concat]

theorem resolveStep_of_plain {segment : String} (hdot : segment ≠ ".") (hup : segment ≠ "..") :
    resolveStep done segment = done ++ [segment] := by
  rw [resolveStep, if_neg hdot, if_neg hup]

theorem foldl_resolveStep_of_plain (h : ∀ segment ∈ more, segment ≠ "." ∧ segment ≠ "..") :
    more.foldl resolveStep done = done ++ more := by
  induction more generalizing done with
  | nil => exact (List.append_nil done).symm
  | cons segment more ih =>
    obtain ⟨⟨hdot, hup⟩, hmore⟩ := List.forall_mem_cons.mp h
    rw [List.foldl_cons, resolveStep_of_plain hdot hup, ih hmore, List.append_assoc, List.singleton_append]

theorem goUp_of_nameless (h : ∀ segment ∈ done, ¬ Names segment) : goUp done = done ++ [".."] :=
  if_neg fun ⟨segment, hmem, hname⟩ => h segment hmem hname

/-- **One more segment**: what it makes of resolved segments is what they resolve to with it. -/
theorem resolves_step (h : Resolved done) (segment : String) :
    Resolves (done ++ [segment]) (resolveStep done segment) ∧ Resolved (resolveStep done segment) := by
  -- a dot resolves away, two dots may, and anything else stays
  by_cases hdot : segment = "."
  · rw [resolveStep, if_pos hdot, hdot]
    exact ⟨.dot (by rw [List.append_nil]; exact .done h), h⟩
  by_cases hup : segment = ".."
  · subst hup
    rw [resolveStep, if_neg hdot, if_pos rfl]
    by_cases hname : ∃ segment ∈ done, Names segment
    · obtain ⟨front, name, empties, rfl, hfound, hempties⟩ := h.exists_last hname
      rw [goUp_of_name hfound hempties, List.append_assoc, List.cons_append]
      exact ⟨.up hfound hempties (by rw [List.append_nil]; exact .done h.of_append), h.of_append⟩
    · have hnone : ∀ segment ∈ done, ¬ Names segment :=
        fun segment hmem hnames => hname ⟨segment, hmem, hnames⟩
      rw [goUp_of_nameless hnone]
      have hresolved := h.concat hdot fun _ => hnone
      exact ⟨.done hresolved, hresolved⟩
  · rw [resolveStep_of_plain hdot hup]
    have hresolved := h.concat hdot fun heq => absurd heq hup
    exact ⟨.done hresolved, hresolved⟩

theorem Resolves.append (h : Resolves segments done) (hmore : Resolves (done ++ more) result) :
    Resolves (segments ++ more) result := by
  induction h with
  | done _ => exact hmore
  | @dot front back done _ ih =>
    rw [List.append_assoc, List.cons_append]
    exact .dot (by rw [← List.append_assoc]; exact ih hmore)
  | @up front back empties done name hname hempties _ ih =>
    rw [List.append_assoc, List.cons_append, List.append_assoc, List.cons_append]
    exact .up hname hempties (by rw [← List.append_assoc]; exact ih hmore)

theorem resolves_resolve (segments : List String) :
    Resolves segments (resolve segments) ∧ Resolved (resolve segments) := by
  induction segments using List.reverseRecOn with
  | nil =>
    have hnil : Resolved [] := ⟨List.not_mem_nil, fun front back h => by simp at h⟩
    exact ⟨.done hnil, hnil⟩
  | append_singleton segments segment ih =>
    obtain ⟨hstep, hresolved⟩ := resolves_step ih.2 segment
    rw [resolve_concat]
    exact ⟨ih.1.append hstep, hresolved⟩

theorem Resolved.resolve_eq (h : Resolved segments) : resolve segments = segments := by
  induction segments using List.reverseRecOn with
  | nil => rfl
  | append_singleton segments segment ih =>
    rw [resolve_concat, ih h.of_append]
    have hdot : segment ≠ "." := by
      rintro rfl
      exact h.noDot (by simp)
    by_cases hup : segment = ".."
    · subst hup
      rw [resolveStep, if_neg hdot, if_pos rfl, goUp_of_nameless (h.goesUp segments [] rfl)]
    · exact resolveStep_of_plain hdot hup

/-- **Segments resolve to one row of segments**, which is found by going along them. -/
theorem resolves_iff : Resolves segments result ↔ resolve segments = result := by
  refine ⟨fun h => ?_, ?_⟩
  · induction h with
    | done hresolved => exact hresolved.resolve_eq
    | dot _ ih => rw [← ih, resolve_append, resolve_append]; rfl
    | @up front back empties result name hname hempties _ ih =>
      have hplain : ∀ segment ∈ name :: empties, segment ≠ "." ∧ segment ≠ ".." := by
        refine List.forall_mem_cons.mpr
          ⟨⟨fun heq => hname ?_, fun heq => hname ?_⟩, fun segment hsegment => ?_⟩
        · simp [heq]
        · simp [heq]
        · rw [hempties segment hsegment]
          decide
      -- going down to the name and past the empty segments, and up again
      have hup : resolveStep (resolve front ++ name :: empties) ".." = resolve front :=
        goUp_of_name hname hempties
      rw [← ih, resolve_append, resolve_append, ← List.cons_append, List.foldl_append,
        foldl_resolveStep_of_plain hplain, List.foldl_cons, hup]
  · rintro rfl
    exact (resolves_resolve segments).1

/-! ## Paths of the domain -/

/-- The directories that a domain model may import from. -/
def domainLayers : List String := ["domain", "util"]

/-- The segments lead into one of the directories: another one follows that of the directory. -/
def InDomain (segments : List String) : Prop :=
  ∃ layer ∈ domainLayers, ["@", layer] <+: segments ∧ 2 < segments.length

instance : DecidablePred InDomain := fun segments =>
  inferInstanceAs (Decidable (∃ layer ∈ domainLayers, ["@", layer] <+: segments ∧ 2 < segments.length))

/-- What the path resolves to lies in one of the directories. -/
def LiesInDomain (path : String) : Prop :=
  ∃ segments, Resolves (segmentsOf path) segments ∧ InDomain segments

theorem liesInDomain_iff : LiesInDomain path ↔ InDomain (resolve (segmentsOf path)) := by
  simp [LiesInDomain, resolves_iff]

instance : DecidablePred LiesInDomain := fun _ => decidable_of_iff _ liesInDomain_iff.symm

theorem segmentsOf_append_slash {first : List Char} (tail : List Char) (hfirst : '/' ∉ first) :
    segmentsOf (String.ofList (first ++ '/' :: tail)) =
      String.ofList first :: segmentsOf (String.ofList tail) := by
  rw [segmentsOf, segmentsOf, String.toList_ofList, String.toList_ofList, List.splitOn_append_cons_self,
    List.splitOn_eq_singleton hfirst]
  rfl

theorem startsWith_iff_segmentsOf (path : String) {layer : String} (hlayer : '/' ∉ layer.toList) :
    Text.startsWith ("@/" ++ layer ++ "/") path = true ↔
      ["@", layer] <+: segmentsOf path ∧ 2 < (segmentsOf path).length := by
  unfold Text.startsWith
  rw [List.isPrefixOf_iff_prefix]
  constructor
  · rintro ⟨tail, htail⟩
    have hpath : path = String.ofList (['@'] ++ '/' :: (layer.toList ++ '/' :: tail)) := by
      rw [← String.toList_inj, ← htail]
      simp
    have hpos : 0 < (segmentsOf (String.ofList tail)).length :=
      List.length_pos_iff.mpr (by simp [segmentsOf, List.splitOn_ne_nil])
    rw [hpath, segmentsOf_append_slash _ (by decide), segmentsOf_append_slash _ hlayer, String.ofList_toList]
    exact ⟨⟨segmentsOf (String.ofList tail), rfl⟩, by simpa using hpos⟩
  · rintro ⟨⟨rest, hrest⟩, hlong⟩
    obtain ⟨name, rest, rfl⟩ : ∃ name more, rest = name :: more := by
      refine List.exists_cons_of_ne_nil ?_
      rintro rfl
      rw [← hrest] at hlong
      exact absurd hlong (by simp)
    have hpieces : path.toList.splitOn '/' = (segmentsOf path).map String.toList := by
      simp [segmentsOf]
    have hwhole : ['/'].intercalate (path.toList.splitOn '/') = path.toList := List.intercalate_splitOn '/'
    rw [hpieces, ← hrest] at hwhole
    refine ⟨['/'].intercalate ((name :: rest).map String.toList), ?_⟩
    rw [← hwhole]
    simp

theorem isDomainImport_iff : isDomainImport path = true ↔ InDomain (segmentsOf path) := by
  have hdomain : '/' ∉ "domain".toList := by decide
  have hutil : '/' ∉ "util".toList := by decide
  rw [isDomainImport, Bool.or_eq_true]
  simp only [InDomain, domainLayers, List.mem_cons, List.not_mem_nil, or_false, exists_eq_or_imp,
    exists_eq_left]
  exact or_congr (startsWith_iff_segmentsOf path hdomain) (startsWith_iff_segmentsOf path hutil)

/-! ## Imports of a source -/

/-- An import statement, with the path of its module. -/
structure Import where
  node : Node
  path : String

/-- The import that a node is, if it is one and names its module. -/
def importAt? (source : Source) (node : Node) : Option Import :=
  if node.kind = .importing then
    (node.child? "source").map fun origin => ⟨node, source.stringValue origin⟩
  else none

/-- The imports of a source, in document order. -/
def importsOf (source : Source) : List Import := source.root.preorder.filterMap (importAt? source)

def Import.finding (i : Import) : Finding := ⟨i.node, externalImportMessage i.path, none⟩

/-- What is reported of imports, each at its own position. -/
def importViolations (source : Source) (imports : List Import) : List Violation :=
  imports.map fun i => noExternalImports.violation source i.finding

def importFindings (source : Source) (node : Node) : List Finding :=
  ((importAt? source node).toList.filter fun i => ¬ InDomain (segmentsOf i.path)).map Import.finding

theorem visitExternalImport_eq (source : Source) (c : Cursor) :
    visitExternalImport source c = .reports (importFindings source c.node) := by
  unfold visitExternalImport importFindings importAt?
  split
  · rename_i origin hkind horigin
    rw [if_pos hkind, horigin, Option.map_some, Option.toList_some]
    dsimp only
    by_cases hdomain : InDomain (segmentsOf (source.stringValue origin))
    · rw [if_pos (isDomainImport_iff.mpr hdomain), List.filter_cons_of_neg (by simpa using hdomain)]
      rfl
    · rw [if_neg fun h => hdomain (isDomainImport_iff.mp h),
        List.filter_cons_of_pos (by simpa using hdomain)]
      rfl
  · rename_i hnone
    split_ifs with hkind
    · cases horigin : c.node.child? "source" with
      | none => rfl
      | some origin => exact absurd horigin (hnone origin hkind)
    · rfl

theorem externalImportMessage_inj {other : String}
    (h : externalImportMessage path = externalImportMessage other) : path = other := by
  have hchars := congrArg String.toList h
  rw [← String.toList_inj]
  simpa [externalImportMessage, toString] using hchars

theorem importViolations_filter_inj (imports : List Import) (P Q : String → Prop) [DecidablePred P]
    [DecidablePred Q] :
    importViolations source (imports.filter fun i => P i.path) =
        importViolations source (imports.filter fun i => Q i.path) ↔
      ∀ i ∈ imports, (P i.path ↔ Q i.path) := by
  constructor
  · -- the message tells the path, and with it whether the import was chosen
    have hpath {i j : Import} (h : noExternalImports.violation source i.finding =
        noExternalImports.violation source j.finding) : i.path = j.path :=
      externalImportMessage_inj (congrArg Violation.message h)
    have hchosen (P : String → Prop) [DecidablePred P] {i : Import} (hi : i ∈ imports) : P i.path ↔
        noExternalImports.violation source i.finding ∈
          importViolations source (imports.filter fun i => P i.path) := by
      rw [importViolations, List.mem_map]
      constructor
      · exact fun hP => ⟨i, List.mem_filter.mpr ⟨hi, decide_eq_true hP⟩, rfl⟩
      · rintro ⟨j, hj, hsame⟩
        exact hpath hsame ▸ of_decide_eq_true (List.mem_filter.mp hj).2
    intro h i hi
    rw [hchosen P hi, h, ← hchosen Q hi]
  · intro h
    rw [List.filter_congr fun i hi => decide_eq_decide.mpr (h i hi)]

end Rule

namespace Check

open Rule

variable {source : Source}

theorem check_imports (view : View) (index : Option EntityIndex)
    (happlies : noExternalImports.appliesTo source.path = true) :
    (check view noExternalImports source index).1 =
      .ok (importViolations source
        ((importsOf source).filter fun i => ¬ InDomain (segmentsOf i.path))) := by
  have hfound : source.root.preorder.flatMap (importFindings source) =
      ((importsOf source).filter fun i => ¬ InDomain (segmentsOf i.path)).map Import.finding := by
    rw [importsOf, List.filterMap_eq_flatMap_toList, List.filter_flatMap, List.map_flatMap]
    rfl
  rw [check_of_reports (visitExternalImport_eq source) happlies, hfound, List.map_map]
  rfl

/-- **A check of imports reports exactly those whose paths do not start with one of the directories**, each
once, at its own position, in document order. These are the imports from outside exactly if no path leaves its
directory, or comes into one, by dots; so it is if no path has any. -/
theorem check_imports_exact (view : View) (index : Option EntityIndex)
    (happlies : noExternalImports.appliesTo source.path = true) :
    let outside := importViolations source ((importsOf source).filter fun i => ¬ LiesInDomain i.path)
    (check view noExternalImports source index).1 = .ok (importViolations source
        ((importsOf source).filter fun i => ¬ InDomain (segmentsOf i.path))) ∧
      ((check view noExternalImports source index).1 = .ok outside ↔
        ∀ i ∈ importsOf source, (InDomain (segmentsOf i.path) ↔ LiesInDomain i.path)) ∧
      ((∀ i ∈ importsOf source, "." ∉ segmentsOf i.path ∧ ".." ∉ segmentsOf i.path) →
        (check view noExternalImports source index).1 = .ok outside) := by
  intro outside
  have hcheck := check_imports view index happlies
  have hiff : (check view noExternalImports source index).1 = .ok outside ↔
      ∀ i ∈ importsOf source, (InDomain (segmentsOf i.path) ↔ LiesInDomain i.path) := by
    rw [hcheck, Except.ok.injEq]
    exact (importViolations_filter_inj _ (fun path => ¬ InDomain (segmentsOf path))
      (fun path => ¬ LiesInDomain path)).trans (forall₂_congr fun i _ => not_iff_not)
  refine ⟨hcheck, hiff, fun hplain => hiff.mpr fun i hi => ?_⟩
  have hresolved : Resolved (segmentsOf i.path) := ⟨(hplain i hi).1, fun front back hsplit =>
    absurd (by simp [hsplit]) (hplain i hi).2⟩
  rw [liesInDomain_iff, hresolved.resolve_eq]

/-! ## An import that leaves the domain -/

def leavingText : String :=
  "import \x7b db \x7d from \"@/domain/../infra/db\";\nimport \x7b z \x7d from \"zod\";\n"

/-- The tree of the imports, as far as the rule looks at it. -/
def leavingTree : Node :=
  .mk "program" 0 68 none true
    [.mk "import_statement" 0 42 none true [.mk "string" 19 41 (some "source") true []],
      .mk "import_statement" 43 67 none true [.mk "string" 61 66 (some "source") true []]]

/-- A domain model that imports from the infrastructure, by way of the domain, and from a package. -/
def leaving : Source := .ofText "user.entity.ts" leavingText leavingTree

theorem check_imports_exact_leaving :
    noExternalImports.appliesTo leaving.path = true ∧
      ∃ violations, (check ⟨.empty, []⟩ noExternalImports leaving none).1 = .ok violations ∧
        violations.map (·.position) = [⟨2, 1⟩] := by
  have happlies : noExternalImports.appliesTo leaving.path = true := by decide +kernel
  exact ⟨happlies, _, (check_imports_exact ⟨.empty, []⟩ none happlies).1, by decide +kernel⟩

/-- **Not every import from outside is reported**: a path may leave the domain by two dots. -/
theorem not_forall_check_eq_outside :
    ¬ ∀ (view : View) (source : Source) (index : Option EntityIndex),
      noExternalImports.appliesTo source.path = true →
      (check view noExternalImports source index).1 =
        .ok (importViolations source ((importsOf source).filter fun i => ¬ LiesInDomain i.path)) := by
  intro hall
  have happlies : noExternalImports.appliesTo leaving.path = true := by decide +kernel
  have hsame := hall ⟨.empty, []⟩ leaving none happlies
  rw [check_imports _ _ happlies, Except.ok.injEq] at hsame
  have hchosen := (importViolations_filter_inj _ (fun path => ¬ InDomain (segmentsOf path))
    (fun path => ¬ LiesInDomain path)).mp hsame
  exact absurd hchosen (by decide +kernel)

end Check

end Lintel
