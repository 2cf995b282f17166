import Lintel.Proofs.Files.Inside
import Lintel.Proofs.Json.Distinct
import Lintel.Proofs.Tool.Analyses
import Mathlib

/-!
# Exact reports about exports

The analyser of exports prints one object, with anything around it. Where the object has the shape of a
report (`ReportTyped`), the exports of the analysis are exactly those that it lists.

* `unusedExports_around`: what is printed around the object is of no account;
* `ofPayload_of_typed`: what is listed is found, file by file;
* **`analyzeExports_exact`**: the exports inside the targets, in the order of files and lists, none lost or
  repeated; a report is only wanting where the name of a listed file has a null character.
-/

namespace Lintel.Tool

open Files (Path View AllPlaced Placed Inside placeOf placeText)

variable {view : View} {directory : Path} {targets : List String} {printed : Printed}
  {front payload back : String} {value : Json} {files : List (String × Json)}

/-! ## What is printed around the report -/

/-- The text is that of an object: it starts with a brace, and can be read. -/
structure IsObjectText (payload : String) (value : Json) : Prop where
  opens : payload.toList.head? = some '\x7b'
  parses : Json.parse payload.toList = .ok value

theorem jsonPart?_around (hfront : '\x7b' ∉ front.toList) (hopens : payload.toList.head? = some '\x7b') :
    jsonPart? (front ++ payload ++ back) = some (payload ++ back) := by
  obtain ⟨tail, htail⟩ := List.head?_eq_some_iff.mp hopens
  have hbefore : ∀ c ∈ front.toList, (c != '\x7b') = true := by
    intro c hc
    simpa using fun heq : c = '\x7b' => hfront (heq ▸ hc)
  have hrest : (front ++ payload ++ back).toList.dropWhile (· != '\x7b') =
      '\x7b' :: (tail ++ back.toList) := by
    rw [String.toList_append, String.toList_append, List.append_assoc, List.dropWhile_append_of_pos hbefore,
      htail, List.cons_append, List.dropWhile_cons_of_neg (by simp)]
  have hback : payload ++ back = String.ofList ('\x7b' :: (tail ++ back.toList)) := by
    rw [← String.toList_inj, String.toList_append, htail, String.toList_ofList, List.cons_append]
  rw [jsonPart?, hrest, hback]

theorem ofPayload_append (h : IsObjectText payload value) (back : String) :
    UnusedExport.ofPayload (payload ++ back) = UnusedExport.ofPayload payload := by
  have hlong : Json.parseFront (payload ++ back).toList = .ok value := by
    rw [String.toList_append]
    exact Json.parseFront_append h.parses h.opens back.toList
  have hshort : Json.parseFront payload.toList = .ok value := by
    simpa using Json.parseFront_append h.parses h.opens []
  rw [UnusedExport.ofPayload, UnusedExport.ofPayload, hlong, hshort]

/-- **What is printed around an object is of no account**, nor is the exit code. -/
theorem unusedExports_around (h : IsObjectText payload value) (hfront : '\x7b' ∉ front.toList)
    (hout : printed.out = front ++ payload ++ back) :
    unusedExports view directory targets printed =
      UnusedExport.ofPayload payload >>= fun found =>
        (found.mapM (UnusedExport.narrow? view directory targets)).map fun kept => kept.filterMap id := by
  rw [unusedExports, hout, jsonPart?_around hfront h.opens]
  dsimp only
  rw [ofPayload_append h]
  refine congrArg _ (funext fun found => ?_)
  rw [map_eq_bind]
  rfl

/-! ## Reports of the right shape -/

/-- The entry is that of an export: its name is a text, its line and its column are whole numbers. What is
missing is an empty name or a zero. -/
structure EntryTyped (entry : Json) : Prop where
  object : entry.isObject = true
  name : ∃ name, entry.memberOr "name" (.str "") = .str name
  line : ∃ line, entry.memberOr "line" (.int 0) = .int line
  column : ∃ column, entry.memberOr "col" (.int 0) = .int column

/-- What is said of a file is an object with a list of exports; a missing list is empty. -/
structure FileTyped (value : Json) : Prop where
  object : value.isObject = true
  exports : ∃ entries, value.memberOr "exports" (.arr []) = .arr entries ∧ ∀ entry ∈ entries, EntryTyped entry

/-- The value is an object with a map of files; a missing map is empty. -/
structure ReportTyped (value : Json) (files : List (String × Json)) : Prop where
  object : value.isObject = true
  map : value.memberOr "files" (.obj []) = .obj files
  typed : ∀ member ∈ files, FileTyped member.2

/-- The entries of the lists of all files, each with its file. -/
def mentions (files : List (String × Json)) : List (String × Json) :=
  files.flatMap fun member => (member.2.memberOr "exports" (.arr [])).items.map fun entry => (member.1, entry)

namespace UnusedExport

/-- The export is what an entry says, in a file. -/
structure Tells (found : UnusedExport) (file : String) (entry : Json) : Prop where
  file : found.file = file
  name : entry.memberOr "name" (.str "") = found.name
  line : entry.memberOr "line" (.int 0) = .int found.line
  column : entry.memberOr "col" (.int 0) = .int found.column

end UnusedExport

theorem getNumber_of_memberOr {name : String} {n : Int} (hobject : value.isObject = true)
    (h : value.memberOr name (.int 0) = .int n) : value.getNumber name = .ok n := by
  unfold Json.getNumber
  rw [Json.get_eq_ok.mpr ⟨hobject, rfl⟩, ok_bind]
  unfold Json.memberOr at h ⊢
  cases hmember : value.member? name with
  | none =>
    rw [hmember] at h
    cases h
    rfl
  | some found =>
    obtain rfl : found = .int n := by simpa [hmember] using h
    by_cases hzero : n = 0
    · subst hzero
      rfl
    · simp [Json.orElse, Json.isVoid, hzero, Json.wholeNumber]

theorem getElements_of_memberOr {name : String} {entries : List Json} (hobject : value.isObject = true)
    (h : value.memberOr name (.arr []) = .arr entries) : value.getElements name = .ok entries := by
  have hlist : value.listIn name = .arr entries := by
    unfold Json.listIn
    unfold Json.memberOr at h ⊢
    cases hmember : value.member? name with
    | none =>
      rw [hmember] at h
      exact h
    | some found =>
      obtain rfl : found = .arr entries := by simpa [hmember] using h
      cases entries <;> rfl
  rw [Json.getElements_eq_ok, hlist]
  exact ⟨hobject, rfl, rfl⟩

theorem ofEntry_of_typed {entry : Json} (h : EntryTyped entry) (file : String) :
    ∃ found, UnusedExport.ofEntry file entry = .ok found ∧ found.Tells file entry := by
  obtain ⟨name, hname⟩ := h.name
  obtain ⟨line, hline⟩ := h.line
  obtain ⟨column, hcolumn⟩ := h.column
  have hfield : entry.getField "name" = .ok (.str name) := Json.getField_eq_ok.mpr ⟨h.object, hname.symm⟩
  refine ⟨⟨.str name, file, line, column⟩, ?_, rfl, hname, hline, hcolumn⟩
  rw [UnusedExport.ofEntry, hfield, getNumber_of_memberOr h.object hline,
    getNumber_of_memberOr h.object hcolumn]
  rfl

theorem orElse_of_isObject (h : value.isObject = true) : value.orElse (.obj []) = value := by
  cases value with
  | obj members => cases members <;> rfl
  | _ => cases h

theorem exists_forall₂ {α β : Type} {R : α → β → Prop} {as : List α} (h : ∀ a ∈ as, ∃ b, R a b) :
    ∃ bs, List.Forall₂ R as bs := by
  induction as with
  | nil => exact ⟨[], .nil⟩
  | cons a as ih =>
    obtain ⟨⟨b, hb⟩, has⟩ := List.forall_mem_cons.mp h
    obtain ⟨bs, hbs⟩ := ih has
    exact ⟨b :: bs, .cons hb hbs⟩

theorem ofFile_of_typed {member : String × Json} (h : FileTyped member.2) :
    ∃ found, UnusedExport.ofFile member = .ok found ∧
      List.Forall₂ (fun mention found => UnusedExport.Tells found mention.1 mention.2)
        (mentions [member]) found := by
  obtain ⟨entries, hentries, htyped⟩ := h.exports
  obtain ⟨found, hfound⟩ := exists_forall₂ fun entry hentry => ofEntry_of_typed (htyped entry hentry) member.1
  have hread : entries.mapM (UnusedExport.ofEntry member.1) = .ok found :=
    mapM_eq_ok.mpr (hfound.imp fun _ _ h => h.1)
  have hmentions : mentions [member] = entries.map fun entry => (member.1, entry) := by
    simp [mentions, hentries, Json.items]
  refine ⟨found, ?_, ?_⟩
  · rw [UnusedExport.ofFile, orElse_of_isObject h.object, getElements_of_memberOr h.object hentries, ok_bind,
      hread]
  · rw [hmentions, List.forall₂_map_left_iff]
    exact hfound.imp fun _ _ h => h.2

/-! ## The order of files -/

/-- The files in the order of their names. -/
structure InOrder (files sorted : List (String × Json)) : Prop where
  perm : sorted.Perm files
  increasing : (sorted.map (·.1)).Pairwise (· < ·)

theorem nameNotAfter_iff {a b : String × Json} : nameNotAfter a b = true ↔ a.1 ≤ b.1 := by
  rw [nameNotAfter, Bool.not_eq_true', decide_eq_false_iff_not, not_lt]

theorem inOrder_mergeSort (h : (files.map (·.1)).Nodup) : InOrder files (files.mergeSort nameNotAfter) := by
  have hperm : (files.mergeSort nameNotAfter).Perm files := List.mergeSort_perm _ _
  have hsorted : (files.mergeSort nameNotAfter).Pairwise fun a b => nameNotAfter a b = true := by
    refine List.pairwise_mergeSort ?_ ?_ _
    · intro a b c hab hbc
      exact nameNotAfter_iff.mpr ((nameNotAfter_iff.mp hab).trans (nameNotAfter_iff.mp hbc))
    · intro a b
      rw [Bool.or_eq_true, nameNotAfter_iff, nameNotAfter_iff]
      exact le_total a.1 b.1
  have hnames : ((files.mergeSort nameNotAfter).map (·.1)).Pairwise (· ≤ ·) := by
    rw [List.pairwise_map]
    exact hsorted.imp nameNotAfter_iff.mp
  have hnodup : ((files.mergeSort nameNotAfter).map (·.1)).Nodup := (hperm.map _).nodup_iff.mpr h
  exact ⟨hperm, (hnames.and hnodup).imp fun hab => lt_of_le_of_ne hab.1 hab.2⟩

theorem nodup_files (hparse : Json.parse payload.toList = .ok value) (htyped : ReportTyped value files) :
    (files.map (·.1)).Nodup := by
  have hdistinct := Json.distinct_of_parse hparse
  have hmap := htyped.map
  cases value with
  | obj members =>
    unfold Json.memberOr Json.member? at hmap
    cases hlookup : Json.lookup "files" members with
    | none =>
      simp only [hlookup, Option.getD_none, Json.obj.injEq] at hmap
      exact hmap ▸ List.nodup_nil
    | some found =>
      obtain rfl : found = .obj files := by simpa [hlookup] using hmap
      obtain ⟨member, hmember, hvalue⟩ := Option.map_eq_some_iff.mp hlookup
      have hfiles := (Json.distinct_obj_iff.mp hdistinct).2 member (List.mem_of_find?_eq_some hmember)
      rw [hvalue] at hfiles
      exact (Json.distinct_obj_iff.mp hfiles).1
  | _ => exact absurd htyped.object (by simp [Json.isObject])

theorem filesOf_of_typed (htyped : ReportTyped value files) :
    filesOf value = some (files.mergeSort nameNotAfter) := by
  have hmap := htyped.map
  cases value with
  | obj members =>
    unfold Json.memberOr Json.member? at hmap
    simp only [filesOf, hmap]
  | _ => exact absurd htyped.object (by simp [Json.isObject])

/-- **What a report lists is found**, file by file in the order of names, and entry by entry. -/
theorem ofPayload_of_typed (h : IsObjectText payload value) (htyped : ReportTyped value files) :
    ∃ sorted found, InOrder files sorted ∧ UnusedExport.ofPayload payload = .ok found ∧
      List.Forall₂ (fun mention found => UnusedExport.Tells found mention.1 mention.2)
        (mentions sorted) found := by
  have hshort : Json.parseFront payload.toList = .ok value := by
    simpa using Json.parseFront_append h.parses h.opens []
  have horder := inOrder_mergeSort (nodup_files h.parses htyped)
  have hfiles : ∀ member ∈ files.mergeSort nameNotAfter, FileTyped member.2 := fun member hmember =>
    htyped.typed member (horder.perm.mem_iff.mp hmember)
  obtain ⟨founds, hfounds⟩ := exists_forall₂ fun member hmember => ofFile_of_typed (hfiles member hmember)
  have hread : (files.mergeSort nameNotAfter).mapM UnusedExport.ofFile = .ok founds :=
    mapM_eq_ok.mpr (hfounds.imp fun _ _ h => h.1)
  refine ⟨_, founds.flatten, horder, ?_, ?_⟩
  · rw [UnusedExport.ofPayload, hshort]
    simp only [filesOf_of_typed htyped, hread]
    rfl
  · have hmentions : ∀ members : List (String × Json),
        mentions members = (members.map fun member => mentions [member]).flatten := by
      intro members
      simp [mentions, List.flatMap_def]
    rw [hmentions]
    refine List.rel_flatten ?_
    rw [List.forall₂_map_left_iff]
    exact hfounds.imp fun _ _ h => h.2

/-! ## Exact reports -/

/-- The files of all exports have a place, and so have the targets. -/
def MentionsPlaced (directory : Path) (targets : List String) (files : List (String × Json)) : Prop :=
  ∀ mention ∈ mentions files, AllPlaced targets ∧ Placed directory mention.1

theorem mem_mentions_congr {sorted : List (String × Json)} (h : InOrder files sorted)
    (mention : String × Json) :
    mention ∈ mentions sorted ↔ mention ∈ mentions files := by
  unfold mentions
  rw [List.mem_flatMap, List.mem_flatMap]
  simp only [h.perm.mem_iff]

/-- The report says exactly what is listed inside the targets, in the order of files and of lists. -/
structure ExportsReport.Exact (report : ExportsReport) (view : View) (directory : Path)
    (targets : List String) (files : List (String × Json)) : Prop where
  error : report.error = none
  exports : ∃ sorted, InOrder files sorted ∧
    List.Forall₂ (fun mention found =>
        UnusedExport.Tells found (placeText (placeOf view directory mention.1)) mention.2)
      ((mentions sorted).filter fun mention => Inside view directory targets mention.1) report.exports
  success : report.success = true ↔ report.exports = []

section Narrow

variable (view) {mentioned : List (String × Json)} {found : List UnusedExport}
  (h : List.Forall₂ (fun mention found => UnusedExport.Tells found mention.1 mention.2) mentioned found)

include h

theorem ends_narrow_iff : Ends (found.mapM (UnusedExport.narrow? view directory targets)) ↔
    ∀ mention ∈ mentioned, AllPlaced targets ∧ Placed directory mention.1 := by
  simp only [ends_mapM, UnusedExport.narrow?_eq, Files.ends_keepWithin]
  constructor
  · intro hfound
    refine forall_mem_of_forall₂ h hfound fun mention found htells hplaced => ?_
    rw [← htells.file]
    exact hplaced
  · intro hmentioned
    refine forall_mem_of_forall₂ h.flip hmentioned fun found mention htells hplaced => ?_
    rw [htells.file]
    exact hplaced

theorem narrow_of_placed (hplaced : ∀ mention ∈ mentioned, AllPlaced targets ∧ Placed directory mention.1) :
    ∃ kept, found.mapM (UnusedExport.narrow? view directory targets) = .ok kept ∧
      List.Forall₂ (fun mention found =>
          UnusedExport.Tells found (placeText (placeOf view directory mention.1)) mention.2)
        (mentioned.filter fun mention => Inside view directory targets mention.1) (kept.filterMap id) := by
  cases h with
  | nil => exact ⟨[], rfl, .nil⟩
  | @cons mention first mentioned rest hfirst hrest =>
    have hall : AllPlaced targets := (hplaced mention List.mem_cons_self).1
    have htells : List.Forall₂ (fun mention found => UnusedExport.Tells found mention.1 mention.2)
        (mention :: mentioned) (first :: rest) := .cons hfirst hrest
    have hfiles : ∀ found ∈ first :: rest, Placed directory found.file :=
      forall_mem_of_forall₂ htells.flip hplaced fun found mention htells hmention => htells.file ▸ hmention.2
    obtain ⟨kept, hkept, hissues⟩ := Files.mapM_keepWithin view UnusedExport.file
      (fun found place => { found with file := placeText place }) hall hfiles
    refine ⟨kept, hkept, ?_⟩
    rw [hissues, List.forall₂_map_right_iff]
    have hinside : List.Forall₂ (fun mention found => UnusedExport.Tells found mention.1 mention.2)
        ((mention :: mentioned).filter fun mention => Inside view directory targets mention.1)
        ((first :: rest).filter fun found => Inside view directory targets found.file) :=
      List.rel_filter (fun mention found htells => by simp [htells.file]) htells
    refine hinside.imp fun mention found htells => ⟨?_, htells.name, htells.line, htells.column⟩
    rw [htells.file]

end Narrow

theorem unusedExports_of_typed (view : View) (directory : Path) (targets : List String)
    (h : IsObjectText payload value) (hfront : '\x7b' ∉ front.toList)
    (hout : printed.out = front ++ payload ++ back) (htyped : ReportTyped value files) :
    (MentionsPlaced directory targets files →
      ∃ sorted exports, InOrder files sorted ∧ unusedExports view directory targets printed = .ok exports ∧
        List.Forall₂ (fun mention found =>
            UnusedExport.Tells found (placeText (placeOf view directory mention.1)) mention.2)
          ((mentions sorted).filter fun mention => Inside view directory targets mention.1) exports) ∧
    (¬ MentionsPlaced directory targets files →
      ∃ fault, unusedExports view directory targets printed = .error fault ∧ ¬ fault.IsReported) := by
  obtain ⟨sorted, found, horder, hfound, htells⟩ := ofPayload_of_typed h htyped
  have hexports : unusedExports view directory targets printed =
      (found.mapM (UnusedExport.narrow? view directory targets)).map fun kept => kept.filterMap id := by
    rw [unusedExports_around h hfront hout, hfound, ok_bind]
  have hplaced : MentionsPlaced directory targets files ↔
      ∀ mention ∈ mentions sorted, AllPlaced targets ∧ Placed directory mention.1 := by
    rw [MentionsPlaced]
    simp only [mem_mentions_congr horder]
  rw [hexports, hplaced]
  constructor
  · intro hsorted
    obtain ⟨kept, hkept, hexact⟩ := narrow_of_placed view htells hsorted
    rw [hkept]
    exact ⟨sorted, _, horder, rfl, hexact⟩
  · intro hsorted
    have hescapes : Escapes (found.mapM (UnusedExport.narrow? view directory targets)) :=
      FailsOnlyWith.mapM fun _ _ => Files.escapes_keepWithin
    cases hnarrow : found.mapM (UnusedExport.narrow? view directory targets) with
    | ok kept => exact absurd ((ends_narrow_iff view htells).mp ⟨kept, hnarrow⟩) hsorted
    | error fault => exact ⟨fault, rfl, hescapes fault hnarrow⟩

section Analysis

variable {run : Command → Answer} {root : Path} {workspace : String}

theorem analyzeExports_around (h : IsObjectText payload value) (hfront : '\x7b' ∉ front.toList)
    (hrun : run ⟨exportsWords workspace, root⟩ = .ok printed)
    (hout : printed.out = front ++ payload ++ back) :
    Id.run (analyzeExports run view root workspace targets) =
      Id.run (analyzeExports (fun _ => .ok { exit := 0, out := payload }) view root workspace targets) := by
  have halone : payload = "" ++ payload ++ "" := by simp
  rw [analyzeExports_eq, analyzeExports_eq, hrun]
  dsimp only
  rw [unusedExports_around h hfront hout, unusedExports_around h (by simp) halone]

theorem analyzeExports_of_escapes {fault : Fault} (hrun : run ⟨exportsWords workspace, root⟩ = .ok printed)
    (hexports : unusedExports view (root.join (.ofString workspace)) targets printed = .error fault)
    (hescapes : ¬ fault.IsReported) :
    Id.run (analyzeExports run view root workspace targets) = .error fault := by
  rw [analyzeExports_eq, hrun]
  dsimp only
  rw [hexports]
  cases fault <;> first
    | rfl
    | exact absurd trivial hescapes

theorem analyzeExports_of_ok {exports : List UnusedExport}
    (hrun : run ⟨exportsWords workspace, root⟩ = .ok printed)
    (hexports : unusedExports view (root.join (.ofString workspace)) targets printed = .ok exports) :
    Id.run (analyzeExports run view root workspace targets) = .ok { workspace, targets, exports } := by
  rw [analyzeExports_eq, hrun]
  dsimp only
  rw [hexports]

theorem exact_of_typed (h : IsObjectText payload value) (hfront : '\x7b' ∉ front.toList)
    (hrun : run ⟨exportsWords workspace, root⟩ = .ok printed) (hout : printed.out = front ++ payload ++ back)
    (htyped : ReportTyped value files) :
    (Ends (Id.run (analyzeExports run view root workspace targets)) ↔
        MentionsPlaced (root.join (.ofString workspace)) targets files) ∧
      ∀ report, Id.run (analyzeExports run view root workspace targets) = .ok report →
        report.Exact view (root.join (.ofString workspace)) targets files := by
  obtain ⟨hfound, hnone⟩ :=
    unusedExports_of_typed view (root.join (.ofString workspace)) targets h hfront hout htyped
  by_cases hplaced : MentionsPlaced (root.join (.ofString workspace)) targets files
  · obtain ⟨sorted, exports, horder, hexports, hexact⟩ := hfound hplaced
    rw [analyzeExports_of_ok hrun hexports]
    refine ⟨iff_of_true (ends_ok _) hplaced, fun report hreport => ?_⟩
    obtain rfl := Except.ok.inj hreport
    exact ⟨rfl, ⟨sorted, horder, hexact⟩, by simp [ExportsReport.success]⟩
  · obtain ⟨fault, hexports, hescapes⟩ := hnone hplaced
    rw [analyzeExports_of_escapes hrun hexports hescapes]
    exact ⟨iff_of_false (not_ends_error fault) hplaced, fun report hreport => by cases hreport⟩

/-- **The analysis of exports is exact**: an object is found wherever it stands in the output, with the same
outcome as if it stood alone; from a report of the right shape come exactly the exports inside the targets,
in the order of file names and of lists, and it is a success if there are none. Only if the name of a listed
file, or of a target, has a null character, there is an error and no report. -/
theorem analyzeExports_exact (run : Command → Answer) (view : View) (root : Path) (workspace : String)
    (targets : List String) {printed : Printed} {front payload back : String} {value : Json}
    (hrun : run ⟨exportsWords workspace, root⟩ = .ok printed) (hout : printed.out = front ++ payload ++ back)
    (hfront : '\x7b' ∉ front.toList) (hobject : IsObjectText payload value) :
    (∀ (run' : Command → Answer) (alone : Printed), run' ⟨exportsWords workspace, root⟩ = .ok alone →
      alone.out = payload → Id.run (analyzeExports run view root workspace targets) =
        Id.run (analyzeExports run' view root workspace targets)) ∧
    ∀ files, ReportTyped value files →
      (Ends (Id.run (analyzeExports run view root workspace targets)) ↔
        MentionsPlaced (root.join (.ofString workspace)) targets files) ∧
      ∀ report, Id.run (analyzeExports run view root workspace targets) = .ok report →
        report.Exact view (root.join (.ofString workspace)) targets files := by
  refine ⟨fun run' alone hrun' halone => ?_,
    fun files htyped => exact_of_typed hobject hfront hrun hout htyped⟩
  have halone' : alone.out = "" ++ payload ++ "" := by simp [halone]
  rw [analyzeExports_around hobject hfront hrun hout, analyzeExports_around hobject (by simp) hrun' halone']

end Analysis

/-- One export in a file. -/
def filesAbout (file : String) : List (String × Json) :=
  [(file, .obj [("exports", .arr [.obj [("name", .str "x"), ("line", .int 1), ("col", .int 2)]])])]

/-- The report about one export in a file. -/
def reportAbout (file : String) : Json := .obj [("files", .obj (filesAbout file))]

theorem reportTyped_reportAbout (file : String) : ReportTyped (reportAbout file) (filesAbout file) := by
  refine ⟨rfl, rfl, fun member hmember => ?_⟩
  rw [List.mem_singleton.mp hmember]
  refine ⟨rfl, _, rfl, fun entry hentry => ?_⟩
  rw [List.mem_singleton.mp hentry]
  exact ⟨rfl, ⟨_, rfl⟩, ⟨_, rfl⟩, ⟨_, rfl⟩⟩

/-- A report as it is printed. -/
def plainReport : String := "\x7b\"files\": \x7b\"src/a.ts\": \x7b\"exports\": " ++
  "[\x7b\"name\": \"x\", \"line\": 1, \"col\": 2\x7d]\x7d\x7d\x7d"

/-- A report on a file with a null character in its name. -/
def nulReport : String := "\x7b\"files\": \x7b\"a\\u0000.ts\": \x7b\"exports\": " ++
  "[\x7b\"name\": \"x\", \"line\": 1, \"col\": 2\x7d]\x7d\x7d\x7d"

theorem isObjectText_plainReport : IsObjectText plainReport (reportAbout "src/a.ts") := by
  refine ⟨by decide +kernel, ?_⟩
  cbv

theorem isObjectText_nulReport : IsObjectText nulReport (reportAbout "a\x00.ts") := by
  refine ⟨by decide +kernel, ?_⟩
  cbv

/-- The log around the report may hold braces after it. -/
def logged : Printed where
  exit := 1
  out := "> knip\n" ++ plainReport ++ "\nnpm error \x7b code 1 \x7d"

theorem analyzeExports_exact_logged :
    let root := Path.ofString "/"
    let directory := root.join (.ofString "server")
    logged.out = "> knip\n" ++ plainReport ++ "\nnpm error \x7b code 1 \x7d" ∧
      '\x7b' ∉ "> knip\n".toList ∧ IsObjectText plainReport (reportAbout "src/a.ts") ∧
      ReportTyped (reportAbout "src/a.ts") (filesAbout "src/a.ts") ∧
      ∃ report,
        Id.run (analyzeExports (fun _ => .ok logged) bareWorkspace root "server" ["/server/src"]) = .ok report ∧
        report.Exact bareWorkspace directory ["/server/src"] (filesAbout "src/a.ts") := by
  intro root directory
  have hfront : '\x7b' ∉ "> knip\n".toList := by decide
  have htyped := reportTyped_reportAbout "src/a.ts"
  obtain ⟨hends, hexact⟩ := (analyzeExports_exact (fun _ => .ok logged) bareWorkspace root "server"
    ["/server/src"] rfl rfl hfront isObjectText_plainReport).2 _ htyped
  have hplaced : MentionsPlaced directory ["/server/src"] (filesAbout "src/a.ts") := by
    intro mention hmention
    obtain rfl := List.mem_singleton.mp hmention
    refine ⟨fun target htarget => ?_, ?_⟩
    · rw [List.mem_singleton.mp htarget]
      decide +kernel
    · unfold Placed
      decide +kernel
  obtain ⟨report, hreport⟩ := hends.mpr hplaced
  exact ⟨rfl, hfront, isObjectText_plainReport, htyped, report, hreport, hexact report hreport⟩

/-- **A report of the right shape may name a file that has no place**; then there is no report at all. -/
theorem not_forall_exact_analyzeExports :
    ¬ ∀ (run : Command → Answer) (view : View) (root : Path) (workspace : String) (targets : List String)
        (printed : Printed) (payload : String) (value : Json) (files : List (String × Json)),
      run ⟨exportsWords workspace, root⟩ = .ok printed → printed.out = payload → IsObjectText payload value →
        ReportTyped value files →
          ∃ report, Id.run (analyzeExports run view root workspace targets) = .ok report ∧
            report.Exact view (root.join (.ofString workspace)) targets files := by
  intro hall
  let printed : Printed := { exit := 1, out := nulReport }
  have htyped := reportTyped_reportAbout "a\x00.ts"
  obtain ⟨report, hreport, -⟩ := hall (fun _ => .ok printed) bareWorkspace (.ofString "/") "server" []
    printed nulReport _ _ rfl rfl isObjectText_nulReport htyped
  have hout : printed.out = "" ++ nulReport ++ "" := by simp [printed]
  have hends :
      Ends (Id.run (analyzeExports (fun _ => .ok printed) bareWorkspace (.ofString "/") "server" [])) ↔
        MentionsPlaced (Path.join (.ofString "/") (.ofString "server")) [] _ :=
    (exact_of_typed isObjectText_nulReport (by simp) rfl hout htyped).1
  have hplaced := (hends.mp ⟨report, hreport⟩ _ (List.mem_singleton.mpr rfl)).2
  revert hplaced
  unfold Placed
  decide +kernel

end Lintel.Tool
