import Lintel.Proofs.Except
import Lintel.Proofs.Files.Sound
import Mathlib.Data.String.Basic

/-!
# Entries of directories

What stands at a path is found by stepping through directories, so an entry that a directory lists is what is
found at its path, in a tree whose names a disk can hold (`Storable`).

* `map_find?_eq_some`: in a table without repetitions, what is looked up is what stands in it;
* `locateFrom_append`, `locate_child`: looking up a path in steps;
* `not_hasNul_of_locate`: where something is found, the path has no null character;
* `short_of_locateFrom`, `locateFrom_ne_longName`: names that are too long are the ones that are not looked
  up;
* `NameTooLong`: paths of which it cannot be told what stands there; `ends_askDir_iff`, `askDir_eq_error_iff`:
  what is said of them and of all others;
* `entry?_put`, `entry?_remove`: which files stand in a tree after a change;
* `pairwise_mergeSort_key`, `pairwise_lt_mergeSort`: rows that are sorted by a key;
* **`mem_list`**, **`pairwise_list`**: a directory lists what stands in it, in the strict order of names.
-/

namespace Lintel.Files

variable {files : Files} {view : View} {place found : Place} {path : Path} {entry : Entry}
  {name : String} {parts rest : List String}

/-- The names in the tree are no longer than a disk allows, and have no null character. -/
structure Storable (files : Files) : Prop where
  short : ∀ e ∈ files.entries, ∀ part ∈ e.1, (Text.encode part).length ≤ maxName
  noNul : ∀ e ∈ files.entries, ∀ part ∈ e.1, part.toList.contains (Char.ofNat 0) = false

/-! ## The table of entries -/

theorem map_find?_eq_some {α β : Type} [BEq α] [LawfulBEq α] {table : List (α × β)} {key : α} {value : β}
    (h : (table.map (·.1)).Nodup) :
    (table.find? (·.1 == key)).map (·.2) = some value ↔ (key, value) ∈ table := by
  constructor
  · intro hfind
    obtain ⟨e, he, rfl⟩ := Option.map_eq_some_iff.mp hfind
    have hkey : e.1 = key := by simpa using List.find?_some he
    exact hkey ▸ List.mem_of_find?_eq_some he
  · intro hmem
    obtain ⟨e, he⟩ : ∃ e, table.find? (·.1 == key) = some e := by
      rw [← Option.isSome_iff_exists, List.find?_isSome]
      exact ⟨_, hmem, by simp⟩
    have hkey : e.1 = key := by simpa using List.find?_some he
    have hsame : e = (key, value) :=
      List.inj_on_of_nodup_map h (List.mem_of_find?_eq_some he) hmem hkey
    rw [he, hsame]
    rfl

theorem entry?_append_singleton (h : files.Sound) :
    files.entry? (place ++ [name]) = some entry ↔ (place ++ [name], entry) ∈ files.entries := by
  unfold entry?
  rw [if_neg (by simp), map_find?_eq_some h.once]

theorem mem_entries_of_entry?_file {content : Text.Bytes} {rules : Option RuleModule}
    (h : files.entry? place = some (.file content rules)) :
    (place, .file content rules) ∈ files.entries := by
  unfold entry? at h
  split_ifs at h
  · cases h
  · obtain ⟨e, he, hfile⟩ := Option.map_eq_some_iff.mp h
    have hplace : e.1 = place := by simpa using List.find?_some he
    exact hplace ▸ hfile ▸ List.mem_of_find?_eq_some he

/-! ## Steps of a lookup -/

theorem locateFrom_of_entry?_eq_none (h : files.entry? place = none) :
    files.locateFrom place parts = .error .missing := by
  cases parts <;> simp [locateFrom, h]

/-- **A lookup goes on from what its first part has found.** -/
theorem locateFrom_append (files : Files) (place : Place) (parts rest : List String) :
    files.locateFrom place (parts ++ rest) =
      (files.locateFrom place parts).bind fun at_ => files.locateFrom at_.1 rest := by
  induction parts generalizing place with
  | nil =>
    cases hentry : files.entry? place with
    | none => simp [locateFrom, hentry, locateFrom_of_entry?_eq_none, Except.bind]
    | some entry => simp [locateFrom, hentry, Except.bind]
  | cons part parts ih =>
    rw [List.cons_append, locateFrom, locateFrom]
    cases files.entry? place with
    | none => rfl
    | some entry =>
      cases entry with
      | file content rules => rfl
      | dir =>
        dsimp only
        split_ifs
        · rfl
        · exact ih (Path.step place part)

theorem entry?_of_locateFrom (h : files.locateFrom place parts = .ok (found, entry)) :
    files.entry? found = some entry := by
  induction parts generalizing place with
  | nil =>
    rw [locateFrom] at h
    cases hentry : files.entry? place with
    | none => simp [hentry] at h
    | some e =>
      obtain ⟨rfl, rfl⟩ : place = found ∧ e = entry := by simpa [hentry] using h
      exact hentry
  | cons part parts ih =>
    rw [locateFrom] at h
    split at h
    · cases h
    · cases h
    · split_ifs at h
      exact ih h

/-- An entry of a directory is found at the path of the directory and its name. -/
theorem locate_child (hname : IsName name) :
    view.locate (path.child name) = .ok (found, entry) ↔
      ∃ place, view.locate path = .ok (place, .dir) ∧ (Text.encode name).length ≤ maxName ∧
        found = place ++ [name] ∧ view.files.entry? found = some entry := by
  have happend : view.locate (path.child name) =
      (view.locate path).bind fun at_ => view.files.locateFrom at_.1 [name] :=
    locateFrom_append _ _ _ _
  rw [happend]
  cases hpath : view.locate path with
  | error refusal => simp [Except.bind]
  | ok at_ =>
    obtain ⟨place, standing⟩ := at_
    have hstanding : view.files.entry? place = some standing := entry?_of_locateFrom hpath
    have hstep : Path.step place name = place ++ [name] := by simp [Path.step, hname.2.2.1]
    cases standing with
    | file content rules => simp [Except.bind, locateFrom, hstanding]
    | dir =>
      simp only [Except.bind, locateFrom, hstanding, hstep, Except.ok.injEq, Prod.mk.injEq, and_true,
        exists_eq_left']
      split_ifs with hlong
      · simp [Nat.not_le.mpr hlong]
      · cases hentry : view.files.entry? (place ++ [name]) with
        | none =>
          constructor
          · intro h
            cases h
          · rintro ⟨-, rfl, hentry'⟩
            rw [hentry] at hentry'
            cases hentry'
        | some e =>
          constructor
          · intro h
            obtain ⟨rfl, rfl⟩ : place ++ [name] = found ∧ e = entry := by simpa using h
            exact ⟨Nat.le_of_not_lt hlong, rfl, hentry⟩
          · rintro ⟨-, rfl, hentry'⟩
            rw [hentry] at hentry'
            rw [Option.some.inj hentry']

/-! ## Short names -/

/-- Where something is found, no name on the way is too long. -/
theorem short_of_locateFrom (h : files.locateFrom place parts = .ok (found, entry)) :
    ∀ part ∈ parts, (Text.encode part).length ≤ maxName := by
  induction parts generalizing place with
  | nil => exact fun _ hmem => absurd hmem List.not_mem_nil
  | cons part parts ih =>
    rw [locateFrom] at h
    split at h
    · cases h
    · cases h
    · split_ifs at h with hlong
      exact List.forall_mem_cons.mpr ⟨Nat.le_of_not_lt hlong, ih h⟩

/-- A lookup whose names are all short enough does not fail for a long name. -/
theorem locateFrom_ne_longName (h : ∀ part ∈ parts, (Text.encode part).length ≤ maxName) :
    files.locateFrom place parts ≠ .error .longName := by
  induction parts generalizing place with
  | nil =>
    rw [locateFrom]
    split <;> simp
  | cons part parts ih =>
    obtain ⟨hpart, hparts⟩ := List.forall_mem_cons.mp h
    rw [locateFrom]
    split
    · simp
    · simp
    · rw [if_neg (Nat.not_lt.mpr hpart)]
      exact ih hparts

/-! ## Directories and files -/

theorem isDir_iff : view.isDir path = true ↔ ∃ place, view.locate path = .ok (place, .dir) := by
  unfold View.isDir
  split
  · next h => simp [h]
  · next h => exact ⟨fun hfalse => (nomatch hfalse), fun ⟨place, hplace⟩ => absurd hplace (h place)⟩

theorem isFile_iff : view.isFile path = true ↔
    ∃ place content rules, view.locate path = .ok (place, .file content rules) := by
  unfold View.isFile
  split
  · next h => simp [h]
  · next h =>
    exact ⟨fun hfalse => (nomatch hfalse), fun ⟨place, content, rules, hplace⟩ =>
      absurd hplace (h place content rules)⟩

theorem askFile_eq_true_iff : view.askFile path = .ok true ↔ view.isFile path = true := by
  unfold View.askFile
  split
  · next h => split_ifs <;> simp [View.isFile, h]
  · simp

theorem askFile_of_short (h : ∀ part ∈ path.parts, (Text.encode part).length ≤ maxName) :
    view.askFile path = .ok (view.isFile path) := by
  unfold View.askFile
  split
  · next hlong => exact absurd hlong (locateFrom_ne_longName h)
  · rfl

theorem isDir_of_locate_child (hname : IsName name)
    (h : view.locate (path.child name) = .ok (found, entry)) : view.isDir path = true := by
  obtain ⟨place, hplace, -⟩ := (locate_child hname).mp h
  exact isDir_iff.mpr ⟨place, hplace⟩

theorem isDir_of_isFile_child (hname : IsName name) (h : view.isFile (path.child name) = true) :
    view.isDir path = true := by
  obtain ⟨place, content, rules, hplace⟩ := isFile_iff.mp h
  exact isDir_of_locate_child hname hplace

theorem isDir_of_isDir_child (hname : IsName name) (h : view.isDir (path.child name) = true) :
    view.isDir path = true := by
  obtain ⟨place, hplace⟩ := isDir_iff.mp h
  exact isDir_of_locate_child hname hplace

/-! ## Paths on which something is found -/

theorem isSome_entry?_of_locateFrom (h : files.locateFrom place parts = .ok (found, entry)) :
    (files.entry? place).isSome = true := by
  by_contra hnone
  rw [locateFrom_of_entry?_eq_none (by simpa using hnone)] at h
  cases h

theorem not_hasNul_of_entry? (hstorable : files.Storable)
    (h : (files.entry? (Path.step place name)).isSome = true) :
    name.toList.contains (Char.ofNat 0) = false := by
  by_cases hdots : name = ".."
  · rw [hdots]
    decide
  · have hstep : Path.step place name = place ++ [name] := by simp [Path.step, hdots]
    rw [hstep] at h
    obtain ⟨entry, hentry⟩ := Option.isSome_iff_exists.mp h
    unfold entry? at hentry
    rw [if_neg (by simp)] at hentry
    obtain ⟨e, he, -⟩ := Option.map_eq_some_iff.mp hentry
    have hplace : e.1 = place ++ [name] := by simpa using List.find?_some he
    exact hstorable.noNul e (List.mem_of_find?_eq_some he) name (by simp [hplace])

/-- A path on which something is found has no null character. -/
theorem not_hasNul_of_locate (hstorable : view.files.Storable)
    (h : view.locate path = .ok (found, entry)) : View.hasNul path = false := by
  suffices hparts : ∀ (parts : List String) (place : Place),
      view.files.locateFrom place parts = .ok (found, entry) →
        parts.any (fun part => part.toList.contains (Char.ofNat 0)) = false from hparts _ _ h
  intro parts
  induction parts with
  | nil => exact fun _ _ => rfl
  | cons part parts ih =>
    intro place h
    rw [locateFrom] at h
    split at h
    · cases h
    · cases h
    · split_ifs at h
      have hpart := not_hasNul_of_entry? hstorable (isSome_entry?_of_locateFrom h)
      rw [List.any_cons, hpart, ih _ h]
      rfl

theorem readText_of_locate (hstorable : view.files.Storable) {content : Text.Bytes}
    {rules : Option RuleModule} (h : view.locate path = .ok (found, .file content rules)) :
    view.readText path = View.textOf content := by
  unfold View.readText View.readBytes
  rw [not_hasNul_of_locate hstorable h, h]
  rfl

/-! ## Names that are too long -/

/-- It cannot be told what stands at the path, since a name in it is longer than a disk allows. -/
def NameTooLong (view : View) (path : Path) : Prop :=
  View.hasNul path = false ∧ view.locate path = .error .longName

theorem askDir_of_nameTooLong (h : NameTooLong view path) :
    view.askDir path = .error (.file .longName path.text) := by
  unfold View.askDir
  rw [h.1, h.2]
  rfl

theorem not_nameTooLong_of_isDir (h : view.isDir path = true) : ¬ NameTooLong view path := by
  rintro ⟨-, hlong⟩
  obtain ⟨place, hplace⟩ := isDir_iff.mp h
  rw [hplace] at hlong
  cases hlong

/-- **It can be told whether a directory stands at a path** exactly if no name in it is too long. -/
theorem ends_askDir_iff : Ends (view.askDir path) ↔ ¬ NameTooLong view path := by
  constructor
  · rintro ⟨there, hthere⟩ hlong
    rw [askDir_of_nameTooLong hlong] at hthere
    cases hthere
  · intro hshort
    unfold View.askDir
    split_ifs with hnul
    · exact ends_ok false
    · split
      · exact ends_ok true
      · next hlong => exact absurd ⟨by simpa using hnul, hlong⟩ hshort
      · exact ends_ok false

theorem askDir_eq_error_iff {fault : Fault} :
    view.askDir path = .error fault ↔ NameTooLong view path ∧ fault = .file .longName path.text := by
  constructor
  · intro h
    have hlong : NameTooLong view path := by
      by_contra hshort
      obtain ⟨there, hthere⟩ := ends_askDir_iff.mpr hshort
      rw [h] at hthere
      cases hthere
    rw [askDir_of_nameTooLong hlong] at h
    exact ⟨hlong, (Except.error.inj h).symm⟩
  · rintro ⟨hlong, rfl⟩
    exact askDir_of_nameTooLong hlong

theorem isDir_of_askDir (h : view.askDir path = .ok true) : view.isDir path = true := by
  unfold View.askDir at h
  split_ifs at h with hnul
  · cases h
  · split at h
    · next hplace => exact isDir_iff.mpr ⟨_, hplace⟩
    · cases h
    · cases h

theorem askDir_of_not_nameTooLong (hstorable : view.files.Storable) (h : ¬ NameTooLong view path) :
    view.askDir path = .ok (view.isDir path) := by
  unfold View.askDir View.isDir
  split_ifs with hnul
  · split
    · next hpath => rw [not_hasNul_of_locate hstorable hpath] at hnul; cases hnul
    · rfl
  · cases hpath : view.locate path with
    | error refusal =>
      cases refusal with
      | longName => exact absurd ⟨by simpa using hnul, hpath⟩ h
      | _ => rfl
    | ok found => obtain ⟨place, _ | ⟨content, rules⟩⟩ := found <;> rfl

theorem askDir_of_isDir (hstorable : view.files.Storable) (h : view.isDir path = true) :
    view.askDir path = .ok true := by
  have hshort : ¬ NameTooLong view path := by
    obtain ⟨place, hplace⟩ := isDir_iff.mp h
    exact fun hlong => by cases hplace.symm.trans hlong.2
  rw [askDir_of_not_nameTooLong hstorable hshort, h]

theorem nameTooLong_of_maxName_lt (view : View) {name : String}
    (hnul : name.toList.contains (Char.ofNat 0) = false)
    (hlong : maxName < (Text.encode name).length) : NameTooLong view ⟨.one, [name]⟩ := by
  constructor
  · rw [View.hasNul, List.any_cons, hnul]
    rfl
  · have hroot : view.files.entry? [] = some .dir := rfl
    change view.files.locateFrom [] [name] = .error .longName
    rw [locateFrom, hroot]
    exact if_pos hlong

/-- A path from the root with a name that no disk can hold. -/
def endlessRoot : Path := ⟨.one, [String.ofList (List.replicate 256 'a')]⟩

theorem nameTooLong_endlessRoot (view : View) : NameTooLong view endlessRoot := by
  refine nameTooLong_of_maxName_lt view ?_ ?_
  · rw [String.toList_ofList]
    decide +kernel
  · rw [Text.encode, String.toList_ofList]
    decide +kernel

/-! ## Trees that change -/

section Changes

variable {other : Place} {content : Text.Bytes} {rules : Option RuleModule}

theorem entry?_of_ne_nil (files : Files) (hne : place ≠ []) :
    files.entry? place = (files.entries.find? (·.1 == place)).map (·.2) := by
  unfold entry?
  rw [if_neg (by simpa using hne)]

theorem entry?_of_filter (keeps : Place → Bool)
    (h : Files.entry? ⟨files.entries.filter (keeps ·.1)⟩ place = some (.file content rules)) :
    files.entry? place = some (.file content rules) := by
  by_cases hne : place = []
  · subst hne
    cases h
  · rw [entry?_of_ne_nil _ hne] at h ⊢
    obtain ⟨e, he, hfile⟩ := Option.map_eq_some_iff.mp h
    have hplace : e.1 = place := by simpa using List.find?_some he
    have hkeeps : keeps place = true :=
      hplace ▸ (List.mem_filter.mp (List.mem_of_find?_eq_some he)).2
    have hsame : (fun e : Place × Entry => decide (keeps e.1 = true ∧ (e.1 == place) = true)) =
        (·.1 == place) := by
      funext e
      by_cases heq : e.1 = place <;> simp [heq, hkeeps]
    rw [List.find?_filter, hsame] at he
    rw [he, Option.map_some, hfile]

theorem entry?_remove (h : Files.entry? (files.remove other) place = some (.file content rules)) :
    files.entry? place = some (.file content rules) :=
  entry?_of_filter (fun at_ => !other.isPrefixOf at_) h

theorem entry?_set (h : Files.entry? (files.set other entry) place = some (.file content rules)) :
    place = other ∧ entry = .file content rules ∨
      place ≠ other ∧ files.entry? place = some (.file content rules) := by
  have hne : place ≠ [] := by
    rintro rfl
    cases h
  have hsplit : (files.set other entry).entries.find? (·.1 == place) =
      ((files.entries.filter (·.1 != other)).find? (·.1 == place)).or
        ([(other, entry)].find? (·.1 == place)) := List.find?_append
  rw [entry?_of_ne_nil _ hne, hsplit] at h
  by_cases heq : place = other
  · subst heq
    have hnone : (files.entries.filter (·.1 != place)).find? (·.1 == place) = none := by
      simp [List.find?_eq_none]
    rw [hnone, Option.none_or] at h
    simp only [List.find?_cons, beq_self_eq_true, Option.map_some, Option.some.injEq] at h
    exact .inl ⟨rfl, h⟩
  · have hnone : [(other, entry)].find? (·.1 == place) = none := by
      simp [Ne.symm heq]
    rw [hnone, Option.or_none] at h
    refine .inr ⟨heq, entry?_of_filter (· != other) ?_⟩
    rw [entry?_of_ne_nil _ hne]
    exact h

theorem entry?_addDir (h : Files.entry? (files.addDir other) place = some (.file content rules)) :
    files.entry? place = some (.file content rules) := by
  unfold addDir at h
  split at h
  · exact h
  · rcases entry?_set h with ⟨-, hdir⟩ | ⟨-, hfile⟩
    · cases hdir
    · exact hfile

/-- **After a write, a file is the one that was written or stood before.** -/
theorem entry?_put (h : Files.entry? (files.put other entry) place = some (.file content rules)) :
    place = other ∧ entry = .file content rules ∨
      place ≠ other ∧ files.entry? place = some (.file content rules) := by
  have hdirs : ∀ (above : List Place) (files : Files),
      Files.entry? (above.foldl addDir files) place = some (.file content rules) →
        files.entry? place = some (.file content rules) := by
    intro above
    induction above with
    | nil => exact fun _ h => h
    | cons p above ih => exact fun files h => entry?_addDir (ih _ h)
  exact (entry?_set h).imp_right fun h => ⟨h.1, hdirs _ _ h.2⟩

end Changes

/-! ## Listings -/

section Sorted

variable {α β : Type} [LinearOrder β] {le : α → α → Bool} (key : α → β)

/-- What is sorted by a key is in the order of keys. -/
theorem pairwise_mergeSort_key (hle : ∀ a b, le a b = true ↔ key a ≤ key b) (as : List α) :
    (as.mergeSort le).Pairwise fun a b => key a ≤ key b := by
  refine (List.pairwise_mergeSort ?_ ?_ as).imp fun {a b} => (hle a b).mp
  · intro a b c hab hbc
    exact (hle a c).mpr (((hle a b).mp hab).trans ((hle b c).mp hbc))
  · intro a b
    rw [Bool.or_eq_true, hle, hle]
    exact le_total (key a) (key b)

/-- If no two have the same key, the order is strict. -/
theorem pairwise_lt_mergeSort (hle : ∀ a b, le a b = true ↔ key a ≤ key b) {as : List α}
    (honce : (as.map key).Nodup) : (as.mergeSort le).Pairwise fun a b => key a < key b := by
  have hdistinct : ((as.mergeSort le).map key).Nodup :=
    ((List.mergeSort_perm as le).map key).nodup_iff.mpr honce
  exact ((pairwise_mergeSort_key key hle as).and (List.pairwise_map.mp hdistinct)).imp fun hab =>
    lt_of_le_of_ne hab.1 hab.2

end Sorted

/-- **A directory lists what stands in it.** -/
theorem mem_list : (name, entry) ∈ files.list place ↔ (place ++ [name], entry) ∈ files.entries := by
  unfold list
  rw [(List.mergeSort_perm _ _).mem_iff]
  unfold below
  simp only [List.mem_filterMap]
  constructor
  · rintro ⟨⟨below, e⟩, ⟨⟨at_, e'⟩, hmem, hbelow⟩, hchild⟩
    simp only [Option.ite_none_right_eq_some, Option.some.injEq, Prod.mk.injEq] at hbelow
    obtain ⟨hbelow, rfl, rfl⟩ := hbelow
    obtain ⟨rest, rfl⟩ := List.isPrefixOf_iff_prefix.mp (Bool.and_eq_true_iff.mp hbelow).1
    rw [List.drop_left] at hchild
    split at hchild
    · next heq =>
      obtain ⟨rfl, rfl⟩ := Prod.mk.inj heq
      obtain ⟨rfl, rfl⟩ := Prod.mk.inj (Option.some.inj hchild)
      exact hmem
    · cases hchild
  · intro hmem
    exact ⟨([name], entry), ⟨(place ++ [name], entry), hmem, by simp⟩, rfl⟩

theorem nameLe_iff {a b : String × Entry} : nameLe a b = true ↔ a.1 ≤ b.1 := by
  rw [nameLe, Bool.not_eq_true', decide_eq_false_iff_not, not_lt]

/-- **A directory lists its entries in the strict order of names.** -/
theorem Sound.pairwise_list (h : files.Sound) (place : Place) :
    ((files.list place).map (·.1)).Pairwise (· < ·) := by
  have hsorted : (files.list place).Pairwise fun a b => a.1 ≤ b.1 :=
    pairwise_mergeSort_key Prod.fst (fun _ _ => nameLe_iff) _
  have hnames : ((files.list place).map (·.1)).Pairwise (· ≤ ·) := List.pairwise_map.mpr hsorted
  exact (hnames.and (h.nodup_list place)).imp fun hab => lt_of_le_of_ne hab.1 hab.2

end Lintel.Files
