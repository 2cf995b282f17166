import Lintel.Proofs.Files.Inside

/-!
# Components of names

The components of a name are what stands between its slashes (`componentsOf`). Two dots take back the name
in front of them, and are nothing at the root (`Collapses`).

* `parts_ofString`, `componentsOf_append`: the components of a name that is read, and of names one below
  another;
* `componentsOf_placeText`: the text of a place has the components of the place;
* **`collapses_iff`**: the components of a name collapse to one place, that to which a walk along them leads.
-/

namespace Lintel.Text

variable {sep : Char} {cs piece : List Char}

theorem splitAtChar_eq_splitOn (sep : Char) (cs : List Char) : splitAtChar sep cs = cs.splitOn sep := by
  induction cs with
  | nil => rfl
  | cons c cs ih =>
    rw [splitAtChar, List.splitOn_cons_eq_if_modifyHead, ih]
    by_cases hsep : c = sep
    · simp [hsep]
    · obtain ⟨line, lines, hlines⟩ := List.exists_cons_of_ne_nil (List.splitOn_ne_nil sep cs)
      simp [hsep, hlines, consFirst]

theorem subset_of_mem_splitOn (h : piece ∈ cs.splitOn sep) : piece ⊆ cs := by
  rw [← splitAtChar_eq_splitOn] at h
  induction cs generalizing piece with
  | nil => exact (List.mem_singleton.mp h) ▸ List.Subset.refl []
  | cons c cs ih =>
    rw [splitAtChar] at h
    split_ifs at h
    · rcases List.mem_cons.mp h with rfl | h
      · exact List.nil_subset _
      · exact List.subset_cons_of_subset c (ih h)
    · cases hlines : splitAtChar sep cs with
      | nil =>
        rw [hlines, consFirst, List.mem_singleton] at h
        rw [h]
        simp
      | cons line lines =>
        rw [hlines] at h ih
        rcases List.mem_cons.mp h with rfl | h
        · exact List.cons_subset_cons c (ih List.mem_cons_self)
        · exact List.subset_cons_of_subset c (ih (List.mem_cons_of_mem _ h))

end Lintel.Text

namespace Lintel.Files

variable {view : View} {base name text : String} {parts front back : List String} {place : Place}

/-! ## Components -/

/-- The components of a name: what stands between its slashes, without empty ones and single dots. -/
def componentsOf (text : String) : List String :=
  ((text.toList.splitOn '/').filter fun cs => cs ≠ [] ∧ cs ≠ ['.']).map String.ofList

/-- The name starts at the root. -/
def IsRooted (text : String) : Prop := text.toList.head? = some '/'

instance : DecidablePred IsRooted := fun _ => inferInstanceAs (Decidable (_ = _))

/-- The name has no null character. -/
def NulFree (text : String) : Prop := Char.ofNat 0 ∉ text.toList

instance : DecidablePred NulFree := fun _ => inferInstanceAs (Decidable (_ ∉ _))

theorem parts_ofString (text : String) : (Path.ofString text).parts = componentsOf text := by
  change Path.partsOf text.toList = _
  rw [Path.partsOf, componentsOf, Text.splitAtChar_eq_splitOn]
  refine congrArg _ (List.filter_congr fun cs _ => ?_)
  rw [Bool.eq_iff_iff]
  simp

theorem isAbsolute_ofString (text : String) : (Path.ofString text).isAbsolute = decide (IsRooted text) := by
  rw [Path.isAbsolute, Path.ofString, Bool.eq_iff_iff, decide_eq_true_eq, IsRooted]
  dsimp only
  split <;> simp_all [List.head?_eq_some_iff]

theorem hasNul_ofString (h : NulFree text) : View.hasNul (.ofString text) = false := by
  rw [View.hasNul, parts_ofString, List.any_eq_false]
  intro part hpart
  obtain ⟨cs, hcs, rfl⟩ := List.mem_map.mp hpart
  rw [String.toList_ofList, List.contains_iff_mem]
  exact fun hnul => h (Text.subset_of_mem_splitOn (List.mem_filter.mp hcs).1 hnul)

/-- A slash stands between components. -/
theorem componentsOf_append (front back : String) :
    componentsOf (front ++ "/" ++ back) = componentsOf front ++ componentsOf back := by
  have hlist : (front ++ "/" ++ back).toList = front.toList ++ '/' :: back.toList := by simp
  rw [componentsOf, hlist, List.splitOn_append_cons_self, List.filter_append, List.map_append]
  rfl

theorem componentsOf_of_isName (h : IsName name) : componentsOf name = [name] := by
  obtain ⟨hne, hdot, -, hslash⟩ := h
  have hnil : name.toList ≠ [] := by simpa using hne
  have hpoint : name.toList ≠ ['.'] := fun heq => hdot (String.toList_inj.mp heq)
  rw [componentsOf, List.splitOn_eq_singleton hslash]
  simp [hnil, hpoint]

theorem componentsOf_dots : componentsOf ".." = [".."] := by decide +kernel

theorem componentsOf_empty : componentsOf "" = [] := rfl

/-- The text of a place has the components of the place. -/
theorem componentsOf_placeText (h : IsNormal place) : componentsOf (placeText place) = place := by
  have htext : placeText place = "" ++ "/" ++ "/".intercalate place := by
    simp [placeText, Path.text, Path.ofPlace]
  rw [htext, componentsOf_append, componentsOf_empty, List.nil_append, componentsOf,
    String.toList_intercalate]
  cases place with
  | nil => rfl
  | cons first rest =>
    have hslash : ∀ cs ∈ (first :: rest).map String.toList, '/' ∉ cs := by
      intro cs hcs
      obtain ⟨part, hpart, rfl⟩ := List.mem_map.mp hcs
      exact (h part hpart).2.2.2
    have hsplit := List.splitOn_intercalate '/' hslash (by simp)
    change List.map _ (List.filter _ (List.splitOn '/' (['/'].intercalate _))) = _
    rw [hsplit, List.filter_eq_self.mpr]
    · simp
    · intro cs hcs
      obtain ⟨part, hpart, rfl⟩ := List.mem_map.mp hcs
      obtain ⟨hne, hdot, -, -⟩ := h part hpart
      have hpoint : part.toList ≠ ['.'] := fun heq => hdot (String.toList_inj.mp heq)
      simpa [hpoint] using hne

theorem isRooted_placeText (place : Place) : IsRooted (placeText place) := by
  simp [IsRooted, placeText, Path.text, Path.ofPlace]

theorem isName_of_mem_componentsOf {part : String} (h : part ∈ componentsOf text) :
    part = ".." ∨ IsName part :=
  isRead_ofString text part (parts_ofString text ▸ h)

/-! ## Two dots -/

/-- The components collapse to a place: two dots go together with the name in front of them, and alone at
the root. -/
inductive Collapses : List String → Place → Prop
  | done {place : Place} (hdots : ".." ∉ place) : Collapses place place
  | back {front back : List String} {name : String} {place : Place} (hname : name ≠ "..")
      (hrest : Collapses (front ++ back) place) : Collapses (front ++ name :: ".." :: back) place
  | root {back : List String} {place : Place} (hrest : Collapses back place) :
      Collapses (".." :: back) place

theorem walk_append (place : Place) (front back : List String) :
    Path.walk place (front ++ back) = Path.walk (Path.walk place front) back := List.foldl_append

theorem step_of_ne (hname : name ≠ "..") : Path.step place name = place ++ [name] := by
  simp [Path.step, hname]

theorem walk_of_not_mem (place : Place) (hdots : ".." ∉ parts) :
    Path.walk place parts = place ++ parts := by
  induction parts generalizing place with
  | nil => exact (List.append_nil place).symm
  | cons name parts ih =>
    obtain ⟨hname, hparts⟩ : ".." ≠ name ∧ ".." ∉ parts := by simpa using hdots
    have hrest := ih (place ++ [name]) hparts
    have hstep : Path.walk place (name :: parts) = Path.walk (place ++ [name]) parts := by
      rw [← step_of_ne (Ne.symm hname)]
      rfl
    simpa [hstep] using hrest

theorem mem_of_mem_walk {part : String} (h : part ∈ Path.walk place parts) :
    part ∈ place ∨ part ∈ parts := by
  induction parts generalizing place with
  | nil => exact .inl h
  | cons first parts ih =>
    rcases ih h with h | h
    · unfold Path.step at h
      split_ifs at h
      · exact .inl (List.dropLast_subset _ h)
      · rcases List.mem_append.mp h with h | h
        · exact .inl h
        · exact .inr (List.mem_cons.mpr (.inl (List.mem_singleton.mp h)))
    · exact .inr (List.mem_cons_of_mem _ h)

theorem walk_back (hname : name ≠ "..") :
    Path.walk place (front ++ name :: ".." :: back) = Path.walk place (front ++ back) := by
  rw [walk_append, walk_append]
  change Path.walk (Path.step (Path.step _ name) "..") back = _
  rw [step_of_ne hname]
  simp [Path.step]

/-- **The components collapse to the place to which a walk along them leads**, and to no other. -/
theorem collapses_iff : Collapses parts place ↔ Path.walk [] parts = place := by
  constructor
  · intro h
    induction h with
    | done hdots => exact walk_of_not_mem [] hdots
    | back hname _ ih => rw [walk_back hname, ih]
    | root _ ih => exact ih
  · rintro rfl
    induction hlength : parts.length using Nat.strongRecOn generalizing parts with
    | _ length ih =>
      by_cases hdots : ".." ∈ parts
      · obtain ⟨front, back, rfl, hfront⟩ := List.eq_append_cons_of_mem hdots
        rcases List.eq_nil_or_concat front with rfl | ⟨above, name, rfl⟩
        · exact .root (ih _ (by simp [← hlength]) rfl)
        · have hname : name ≠ ".." := by
            rintro rfl
            exact hfront (by simp)
          rw [List.concat_eq_append, List.append_assoc, List.singleton_append, walk_back hname] at *
          have hshorter : (above ++ back).length < length := by
            rw [← hlength, List.length_append, List.length_append, List.length_cons, List.length_cons]
            omega
          exact .back hname (ih _ hshorter rfl)
      · have hdone : Path.walk [] parts = parts := walk_of_not_mem [] hdots
        rw [hdone]
        exact .done hdots

end Lintel.Files
