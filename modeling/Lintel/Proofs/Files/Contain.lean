import Lintel.Proofs.Files.Collapse

/-!
# Containment of files in directories

A directory is above a file if its components, collapsed, are the first ones of the file (`IsAbove`). Names
of directories start at the root; the name of a file may also start at a base directory.

* `isWithin_of_nulFree`: a file is within some directories if one of them is above it;
* **`containment`**: what follows for the spellings of names, for siblings, for places that are spelled out,
  and for directories in directories.
-/

namespace Lintel.Files

variable {view : View} {base directory file front back name other : String} {directories : List String}
  {place : Place}

/-- The name is that of a directory, from the root; no directory has a null character in its name. -/
structure NamesDirectory (text : String) : Prop where
  rooted : IsRooted text
  nulFree : NulFree text

/-- The components of a file that is named from the root or from a base directory. -/
def componentsFrom (base file : String) : List String :=
  if IsRooted file then componentsOf file else componentsOf base ++ componentsOf file

/-- The components of the directory, collapsed, are the first ones of the file. -/
def IsAbove (base directory file : String) : Prop :=
  ∃ above place, Collapses (componentsOf directory) above ∧
    Collapses (componentsFrom base file) place ∧ above <+: place

theorem isAbove_iff : IsAbove base directory file ↔
    Path.walk [] (componentsOf directory) <+: Path.walk [] (componentsFrom base file) := by
  simp [IsAbove, collapses_iff]

instance : Decidable (IsAbove base directory file) := decidable_of_iff _ isAbove_iff.symm

/-! ## Places of names -/

theorem resolve_ofString (h : IsRooted directory) :
    view.resolve (.ofString directory) = Path.walk [] (componentsOf directory) := by
  rw [View.resolve, Path.resolve, isAbsolute_ofString, parts_ofString, decide_eq_true h, if_pos rfl]

theorem parts_join (base file : String) :
    ((Path.ofString base).join (.ofString file)).parts = componentsFrom base file := by
  unfold Path.join componentsFrom
  rw [isAbsolute_ofString]
  by_cases hfile : IsRooted file <;> simp [hfile, parts_ofString]

theorem isAbsolute_join (hbase : IsRooted base) (file : String) :
    ((Path.ofString base).join (.ofString file)).isAbsolute = true := by
  have habsolute : (Path.ofString base).isAbsolute = true := by simpa [isAbsolute_ofString] using hbase
  unfold Path.join
  split_ifs with hfile
  · exact hfile
  · exact habsolute

theorem placeOf_ofString (hbase : IsRooted base) :
    placeOf view (.ofString base) file = Path.walk [] (componentsFrom base file) := by
  rw [placeOf, View.resolve, Path.resolve, isAbsolute_join hbase, parts_join, if_pos rfl]

theorem nulFree_of_mem_componentsOf {text part : String} (h : NulFree text)
    (hpart : part ∈ componentsOf text) : NulFree part := by
  have hnames := hasNul_ofString h
  rw [View.hasNul, parts_ofString, List.any_eq_false] at hnames
  simpa [NulFree] using hnames part hpart

theorem nulFree_of_mem_componentsFrom {part : String} (hbase : NulFree base) (hfile : NulFree file)
    (hpart : part ∈ componentsFrom base file) : NulFree part := by
  unfold componentsFrom at hpart
  split_ifs at hpart
  · exact nulFree_of_mem_componentsOf hfile hpart
  · rcases List.mem_append.mp hpart with h | h
    · exact nulFree_of_mem_componentsOf hbase h
    · exact nulFree_of_mem_componentsOf hfile h

theorem hasNul_of_parts {path : Path} (h : ∀ part ∈ path.parts, NulFree part) :
    View.hasNul path = false := by
  rw [View.hasNul, List.any_eq_false]
  intro part hpart
  simpa [NulFree] using h part hpart

theorem placed_ofString (hbase : NulFree base) (hfile : NulFree file) : Placed (.ofString base) file :=
  hasNul_of_parts fun _ hpart =>
    nulFree_of_mem_componentsFrom hbase hfile (parts_join base file ▸ hpart)

theorem allPlaced (h : ∀ d ∈ directories, NamesDirectory d) : AllPlaced directories :=
  fun d hd => hasNul_ofString (h d hd).nulFree

/-- **A file is within some directories if one of them is above it**, or there are none. -/
theorem isWithin_of_nulFree (view : View) (hbase : NamesDirectory base) (hfile : NulFree file)
    (hdirectories : ∀ d ∈ directories, NamesDirectory d) :
    ∃ answer, isWithin view (.ofString base) directories file = .ok answer ∧
      (answer = true ↔ directories = [] ∨ ∃ d ∈ directories, IsAbove base d file) := by
  refine ⟨_, isWithin_of_placed (allPlaced hdirectories) (placed_ofString hbase.nulFree hfile), ?_⟩
  rw [decide_eq_true_eq, Inside, placeOf_ofString hbase.rooted]
  refine or_congr_right (exists_congr fun d => and_congr_right fun hd => ?_)
  rw [resolve_ofString (hdirectories d hd).rooted, isAbove_iff]

theorem isWithin_congr {others : List String} (hbase : NamesDirectory base) (hfile : NulFree file)
    (hother : NulFree other) (hdirectories : ∀ d ∈ directories, NamesDirectory d)
    (hothers : ∀ d ∈ others, NamesDirectory d)
    (h : (directories = [] ∨ ∃ d ∈ directories, IsAbove base d file) ↔
      (others = [] ∨ ∃ d ∈ others, IsAbove base d other)) :
    isWithin view (.ofString base) directories file = isWithin view (.ofString base) others other := by
  obtain ⟨answer, hanswer, hiff⟩ := isWithin_of_nulFree view hbase hfile hdirectories
  obtain ⟨answer', hanswer', hiff'⟩ := isWithin_of_nulFree view hbase hother hothers
  rw [hanswer, hanswer', Bool.eq_iff_iff.mpr (hiff.trans (h.trans hiff'.symm))]

/-! ## Spellings -/

theorem isRooted_append (front back : String) :
    IsRooted (front ++ "/" ++ back) ↔ IsRooted (front ++ "/") := by
  have hlist : (front ++ "/" ++ back).toList = (front ++ "/").toList ++ back.toList :=
    String.toList_append
  unfold IsRooted
  rw [hlist, List.head?_append_of_ne_nil _ (by simp)]

theorem componentsFrom_append (base front back : String) :
    componentsFrom base (front ++ "/" ++ back) =
      componentsFrom base (front ++ "/") ++ componentsOf back := by
  have hslash : componentsOf (front ++ "/") = componentsOf front := by
    simpa [componentsOf_empty] using componentsOf_append front ""
  unfold componentsFrom
  by_cases hrooted : IsRooted (front ++ "/")
  · simp [isRooted_append, hrooted, componentsOf_append, hslash]
  · simp [isRooted_append, hrooted, componentsOf_append, hslash]

theorem nulFree_append : NulFree (front ++ back) ↔ NulFree front ∧ NulFree back := by
  simp [NulFree, String.toList_append]

theorem componentsFrom_back (base front back : String) (hname : IsName name) :
    componentsFrom base (front ++ "/" ++ name ++ "/../" ++ back) =
      componentsFrom base (front ++ "/") ++ name :: ".." :: componentsOf back := by
  have hspelt : front ++ "/" ++ name ++ "/../" ++ back =
      front ++ "/" ++ (name ++ "/" ++ ".." ++ "/" ++ back) := by
    simp [String.append_assoc]
  rw [hspelt, componentsFrom_append, componentsOf_append, componentsOf_append,
    componentsOf_of_isName hname, componentsOf_dots]
  simp

theorem isAbove_back (directory front back : String) (hname : IsName name) :
    IsAbove base directory (front ++ "/" ++ name ++ "/../" ++ back) ↔
      IsAbove base directory (front ++ "/" ++ back) := by
  rw [isAbove_iff, isAbove_iff, componentsFrom_back base front back hname, componentsFrom_append,
    walk_back hname.2.2.1]

theorem back_isAbove (base file front back : String) (hname : IsName name)
    (hrooted : IsRooted (front ++ "/")) :
    IsAbove base (front ++ "/" ++ name ++ "/../" ++ back) file ↔
      IsAbove base (front ++ "/" ++ back) file := by
  have hspelt := componentsFrom_back "" front back hname
  have hplain := componentsFrom_append "" front back
  have hassoc : front ++ "/" ++ name ++ "/../" ++ back = front ++ "/" ++ (name ++ "/../" ++ back) := by
    simp [String.append_assoc]
  have hlong : IsRooted (front ++ "/" ++ name ++ "/../" ++ back) := by
    rw [hassoc, isRooted_append]
    exact hrooted
  have hshort : IsRooted (front ++ "/" ++ back) := (isRooted_append front back).mpr hrooted
  rw [componentsFrom, if_pos hlong] at hspelt
  rw [componentsFrom, if_pos hshort] at hplain
  rw [isAbove_iff, isAbove_iff, hspelt, hplain, walk_back hname.2.2.1]

theorem isAbove_root (base directory back : String) :
    IsAbove base directory ("/../" ++ back) ↔ IsAbove base directory ("/" ++ back) := by
  have hspelt : "/../" ++ back = "" ++ "/" ++ (".." ++ "/" ++ back) := by simp [← String.toList_inj]
  have hplain : "/" ++ back = "" ++ "/" ++ back := by simp
  have hroot : componentsFrom base ("" ++ "/") = [] := rfl
  have hdots : componentsFrom base ("/../" ++ back) = ".." :: componentsOf back := by
    rw [hspelt, componentsFrom_append, componentsOf_append, componentsOf_dots, hroot]
    rfl
  have hnone : componentsFrom base ("/" ++ back) = componentsOf back := by
    rw [hplain, componentsFrom_append, hroot, List.nil_append]
  rw [isAbove_iff, isAbove_iff, hdots, hnone]
  rfl

/-! ## Siblings, places and directories in directories -/

theorem componentsFrom_of_isRooted (h : IsRooted file) : componentsFrom base file = componentsOf file :=
  if_pos h

theorem not_isAbove_sibling (base : String) {above rest : String} (hrooted : IsRooted (above ++ "/"))
    (hname : IsName name) (hother : IsName other) (hne : name ≠ other) (hrest : ".." ∉ componentsOf rest) :
    ¬ IsAbove base (above ++ "/" ++ name) (above ++ "/" ++ other ++ "/" ++ rest) := by
  have hspelt : above ++ "/" ++ other ++ "/" ++ rest = above ++ "/" ++ (other ++ "/" ++ rest) := by
    simp [String.append_assoc]
  have hfile : IsRooted (above ++ "/" ++ (other ++ "/" ++ rest)) :=
    (isRooted_append above _).mpr hrooted
  have hnames : ".." ∉ other :: componentsOf rest := by
    simp [hother.2.2.1.symm, hrest]
  have hname' : ".." ∉ [name] := by simp [hname.2.2.1.symm]
  rw [hspelt, isAbove_iff, componentsFrom_of_isRooted hfile, componentsOf_append, componentsOf_append,
    componentsOf_append, componentsOf_of_isName hname, componentsOf_of_isName hother, walk_append,
    walk_append, List.singleton_append, walk_of_not_mem _ hname', walk_of_not_mem _ hnames,
    List.prefix_append_right_inj]
  intro hstart
  obtain ⟨tail, htail⟩ := hstart
  exact hne (List.cons.inj htail).1

theorem isNormal_walk_componentsFrom (base file : String) :
    IsNormal (Path.walk [] (componentsFrom base file)) := by
  refine isNormal_walk (fun _ hnil => absurd hnil List.not_mem_nil) fun part hpart => ?_
  unfold componentsFrom at hpart
  split_ifs at hpart
  · exact isName_of_mem_componentsOf hpart
  · exact (List.mem_append.mp hpart).elim isName_of_mem_componentsOf isName_of_mem_componentsOf

theorem walk_componentsFrom_placeText (h : IsNormal place) (base : String) :
    Path.walk [] (componentsFrom base (placeText place)) = place := by
  have hdots : ".." ∉ place := fun hmem => (h _ hmem).2.2.1 rfl
  rw [componentsFrom_of_isRooted (isRooted_placeText place), componentsOf_placeText h,
    walk_of_not_mem [] hdots, List.nil_append]

theorem placeOf_placeText (h : IsNormal place) (path : Path) :
    placeOf view path (placeText place) = place := by
  have habsolute : (Path.ofString (placeText place)).isAbsolute = true := by
    simpa [isAbsolute_ofString] using isRooted_placeText place
  have hwalk := walk_componentsFrom_placeText h ""
  rw [componentsFrom_of_isRooted (isRooted_placeText place)] at hwalk
  rw [placeOf, View.resolve, Path.resolve, Path.join, if_pos habsolute, habsolute, parts_ofString,
    if_pos rfl, hwalk]

theorem resolveFrom_placeText (h : IsNormal place) (hnul : ∀ part ∈ place, NulFree part) (path : Path) :
    resolveFrom view path (placeText place) = .ok place := by
  have habsolute : (Path.ofString (placeText place)).isAbsolute = true := by
    simpa [isAbsolute_ofString] using isRooted_placeText place
  have hparts : (path.join (.ofString (placeText place))).parts = place := by
    rw [Path.join, if_pos habsolute, parts_ofString, componentsOf_placeText h]
  have hplaced : Placed path (placeText place) := hasNul_of_parts fun part hpart => hnul part (hparts ▸ hpart)
  rw [resolveFrom_of_placed hplaced]
  exact congrArg Except.ok (placeOf_placeText h path)

theorem isWithin_of_resolveFrom {path : Path} (h : resolveFrom view path file = resolveFrom view path other) :
    isWithin view path directories file = isWithin view path directories other := by
  unfold isWithin
  rw [h]

theorem nulFree_of_mem_placeOf (view : View) (hbase : NamesDirectory base) (hfile : NulFree file) :
    ∀ part ∈ placeOf view (.ofString base) file, NulFree part := by
  intro part hpart
  rw [placeOf_ofString hbase.rooted] at hpart
  have hmem : part ∈ componentsFrom base file := by simpa using mem_of_mem_walk hpart
  exact nulFree_of_mem_componentsFrom hbase.nulFree hfile hmem

theorem isAbove_trans {outer inner : String} (hinner : IsRooted inner) (hfile : IsAbove base inner file)
    (h : IsAbove base outer inner) : IsAbove base outer file := by
  rw [isAbove_iff] at *
  rw [componentsFrom_of_isRooted hinner] at h
  exact h.trans hfile

/-! ## The laws of containment -/

/-- What holds of the question whether a file is within directories. -/
structure Containment (view : View) (base : String) : Prop where
  /-- The answer goes by the collapsed components of the names. -/
  exact : ∀ directories file, (∀ d ∈ directories, NamesDirectory d) → NulFree file →
    ∃ answer, isWithin view (.ofString base) directories file = .ok answer ∧
      (answer = true ↔ directories = [] ∨ ∃ d ∈ directories, IsAbove base d file)
  /-- A directory does not contain a sibling, nor what is below it, however alike their names are. -/
  sibling : ∀ above name other rest, NamesDirectory (above ++ "/") → IsName name → IsName other →
    name ≠ other → NulFree name → NulFree other → NulFree rest → ".." ∉ componentsOf rest →
    isWithin view (.ofString base) [above ++ "/" ++ name] (above ++ "/" ++ other ++ "/" ++ rest) =
      .ok false
  /-- A name and two dots do not lead into a file's directories, nor out of them. -/
  fileBack : ∀ directories front name back, (∀ d ∈ directories, NamesDirectory d) → IsName name →
    NulFree front → NulFree name → NulFree back →
    isWithin view (.ofString base) directories (front ++ "/" ++ name ++ "/../" ++ back) =
      isWithin view (.ofString base) directories (front ++ "/" ++ back)
  /-- They do not make another directory. -/
  directoryBack : ∀ front name back file, NamesDirectory (front ++ "/") → IsName name →
    NulFree name → NulFree back → NulFree file →
    isWithin view (.ofString base) [front ++ "/" ++ name ++ "/../" ++ back] file =
      isWithin view (.ofString base) [front ++ "/" ++ back] file
  /-- Two dots do not lead above the root. -/
  root : ∀ directories back, (∀ d ∈ directories, NamesDirectory d) → NulFree back →
    isWithin view (.ofString base) directories ("/../" ++ back) =
      isWithin view (.ofString base) directories ("/" ++ back)
  /-- The text of the place of a file has this place again, and is within the same directories. -/
  resolved : ∀ file, NulFree file → ∃ place,
    resolveFrom view (.ofString base) file = .ok place ∧
    (∀ other, resolveFrom view other (placeText place) = .ok place) ∧
    ∀ directories, isWithin view (.ofString base) directories (placeText place) =
      isWithin view (.ofString base) directories file
  /-- What is within a directory is within every directory that contains this one. -/
  transitive : ∀ outer inner file, NamesDirectory outer → NamesDirectory inner → NulFree file →
    isWithin view (.ofString base) [inner] file = .ok true →
    isWithin view (.ofString base) [outer] inner = .ok true →
    isWithin view (.ofString base) [outer] file = .ok true

section Laws

variable (view) (hbase : NamesDirectory base)

include hbase

theorem isWithin_singleton (hdirectory : NamesDirectory directory) (hfile : NulFree file) :
    isWithin view (.ofString base) [directory] file = .ok (decide (IsAbove base directory file)) := by
  have hdirectories : ∀ d ∈ [directory], NamesDirectory d := by simpa using hdirectory
  obtain ⟨answer, hanswer, hiff⟩ := isWithin_of_nulFree view hbase hfile hdirectories
  have hdecide : answer = decide (IsAbove base directory file) := by
    rw [Bool.eq_iff_iff, hiff]
    simp
  rw [hanswer, hdecide]

theorem isWithin_sibling {above rest : String} (habove : NamesDirectory (above ++ "/")) (hname : IsName name)
    (hother : IsName other) (hne : name ≠ other) (hnul : NulFree name) (hnul' : NulFree other)
    (hnul'' : NulFree rest) (hrest : ".." ∉ componentsOf rest) :
    isWithin view (.ofString base) [above ++ "/" ++ name] (above ++ "/" ++ other ++ "/" ++ rest) =
      .ok false := by
  have hdirectory : NamesDirectory (above ++ "/" ++ name) :=
    ⟨(isRooted_append above name).mpr habove.rooted, nulFree_append.mpr ⟨habove.nulFree, hnul⟩⟩
  have hfile : NulFree (above ++ "/" ++ other ++ "/" ++ rest) := by
    simp only [nulFree_append]
    exact ⟨⟨⟨nulFree_append.mp habove.nulFree, hnul'⟩, by decide⟩, hnul''⟩
  have hnot := not_isAbove_sibling base habove.rooted hname hother hne hrest
  rw [isWithin_singleton view hbase hdirectory hfile, decide_eq_false hnot]

theorem isWithin_back (hdirectories : ∀ d ∈ directories, NamesDirectory d) (hname : IsName name)
    (hfront : NulFree front) (hnul : NulFree name) (hback : NulFree back) :
    isWithin view (.ofString base) directories (front ++ "/" ++ name ++ "/../" ++ back) =
      isWithin view (.ofString base) directories (front ++ "/" ++ back) := by
  have hslash : NulFree "/" := by decide
  have hdots : NulFree "/../" := by decide
  have hlong : NulFree (front ++ "/" ++ name ++ "/../" ++ back) := by
    simp [nulFree_append, hfront, hslash, hnul, hdots, hback]
  have hshort : NulFree (front ++ "/" ++ back) := by simp [nulFree_append, hfront, hslash, hback]
  refine isWithin_congr hbase hlong hshort hdirectories hdirectories (or_congr_right ?_)
  exact exists_congr fun d => and_congr_right fun _ => isAbove_back d front back hname

theorem isWithin_directory_back (hfront : NamesDirectory (front ++ "/")) (hname : IsName name)
    (hnul : NulFree name) (hback : NulFree back) (hfile : NulFree file) :
    isWithin view (.ofString base) [front ++ "/" ++ name ++ "/../" ++ back] file =
      isWithin view (.ofString base) [front ++ "/" ++ back] file := by
  have hdots : NulFree "/../" := by decide
  have hassoc : front ++ "/" ++ name ++ "/../" ++ back = front ++ "/" ++ (name ++ "/../" ++ back) := by
    simp [String.append_assoc]
  have hlong : NamesDirectory (front ++ "/" ++ name ++ "/../" ++ back) := by
    rw [hassoc]
    refine ⟨(isRooted_append front _).mpr hfront.rooted, nulFree_append.mpr ⟨hfront.nulFree, ?_⟩⟩
    simp [nulFree_append, hnul, hdots, hback]
  have hshort : NamesDirectory (front ++ "/" ++ back) :=
    ⟨(isRooted_append front back).mpr hfront.rooted, nulFree_append.mpr ⟨hfront.nulFree, hback⟩⟩
  have hiff := back_isAbove base file front back hname hfront.rooted
  rw [isWithin_singleton view hbase hlong hfile, isWithin_singleton view hbase hshort hfile,
    decide_eq_decide.mpr hiff]

theorem isWithin_root (hdirectories : ∀ d ∈ directories, NamesDirectory d) (hback : NulFree back) :
    isWithin view (.ofString base) directories ("/../" ++ back) =
      isWithin view (.ofString base) directories ("/" ++ back) := by
  have hlong : NulFree ("/../" ++ back) := nulFree_append.mpr ⟨by decide, hback⟩
  have hshort : NulFree ("/" ++ back) := nulFree_append.mpr ⟨by decide, hback⟩
  refine isWithin_congr hbase hlong hshort hdirectories hdirectories (or_congr_right ?_)
  exact exists_congr fun d => and_congr_right fun _ => isAbove_root base d back

theorem isWithin_resolved (hfile : NulFree file) :
    ∃ place, resolveFrom view (.ofString base) file = .ok place ∧
      (∀ other, resolveFrom view other (placeText place) = .ok place) ∧
      ∀ directories, isWithin view (.ofString base) directories (placeText place) =
        isWithin view (.ofString base) directories file := by
  have hplace : resolveFrom view (.ofString base) file = .ok (placeOf view (.ofString base) file) :=
    resolveFrom_of_placed (placed_ofString hbase.nulFree hfile)
  have hnormal : IsNormal (placeOf view (.ofString base) file) := by
    rw [placeOf_ofString hbase.rooted]
    exact isNormal_walk_componentsFrom base file
  have hnul := nulFree_of_mem_placeOf view hbase hfile
  refine ⟨_, hplace, resolveFrom_placeText hnormal hnul, fun directories => ?_⟩
  apply isWithin_of_resolveFrom
  rw [hplace, resolveFrom_placeText hnormal hnul]

theorem isWithin_trans {outer inner : String} (houter : NamesDirectory outer) (hinner : NamesDirectory inner)
    (hfile : NulFree file) (hin : isWithin view (.ofString base) [inner] file = .ok true)
    (hout : isWithin view (.ofString base) [outer] inner = .ok true) :
    isWithin view (.ofString base) [outer] file = .ok true := by
  rw [isWithin_singleton view hbase hinner hfile, Except.ok.injEq, decide_eq_true_eq] at hin
  rw [isWithin_singleton view hbase houter hinner.nulFree, Except.ok.injEq, decide_eq_true_eq] at hout
  rw [isWithin_singleton view hbase houter hfile, decide_eq_true (isAbove_trans hinner.rooted hin hout)]

/-- **A file is within directories if the collapsed components of one of them are the first ones of the
file**, for every spelling of the names; the laws of containment follow. -/
theorem containment : Containment view base where
  exact _ _ hdirectories hfile := isWithin_of_nulFree view hbase hfile hdirectories
  sibling _ _ _ _ habove hname hother hne hnul hnul' hnul'' hrest :=
    isWithin_sibling view hbase habove hname hother hne hnul hnul' hnul'' hrest
  fileBack _ _ _ _ hdirectories hname hfront hnul hback :=
    isWithin_back view hbase hdirectories hname hfront hnul hback
  directoryBack _ _ _ _ hfront hname hnul hback hfile :=
    isWithin_directory_back view hbase hfront hname hnul hback hfile
  root _ _ hdirectories hback := isWithin_root view hbase hdirectories hback
  resolved _ hfile := isWithin_resolved view hbase hfile
  transitive _ _ _ houter hinner hfile hin hout :=
    isWithin_trans view hbase houter hinner hfile hin hout

end Laws

/-- In `/srv`, `app/../app2/./x.ts` is not within `/srv//app/`, but it is within `/srv/./app2`. -/
theorem containment_srv : NamesDirectory "/srv" ∧
    IsAbove "/srv" "/srv/./app2" "app/../app2/./x.ts" ∧
    ¬ IsAbove "/srv" "/srv//app/" "app/../app2/./x.ts" ∧ Containment ⟨.empty, []⟩ "/srv" :=
  have hbase : NamesDirectory "/srv" := ⟨by decide +kernel, by decide +kernel⟩
  ⟨hbase, by decide +kernel, by decide +kernel, containment ⟨.empty, []⟩ hbase⟩

end Lintel.Files
