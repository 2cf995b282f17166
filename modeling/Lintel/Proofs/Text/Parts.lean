import Lintel.Text.Parts
import Mathlib.Data.List.Infix

/-!
# Last components of paths

What follows the last slash of a path is the name of the file (`lastComponent`), what stands before it the
directory (`directory`). A text without a slash that a path holds lies in one of the two.

* `directory_append_lastComponent`, `endsWithSlash_directory`: the two parts of a path;
* **`holds_append`**, `endsWith_append`: where texts without a slash lie.
-/

namespace Lintel.Text

variable {part front cs : List Char}

/-! ## Directories and names -/

/-- The text is empty or ends with a slash: a path starts with it that names a file in a directory. -/
def EndsWithSlash (front : List Char) : Prop := front = [] ∨ ∃ above, front = above ++ ['/']

/-- What follows the last slash. -/
def lastComponent (path : String) : String :=
  String.ofList (path.toList.reverse.takeWhile (· != '/')).reverse

/-- What stands before the name of the file, with the slash. -/
def directory (path : String) : String :=
  String.ofList (path.toList.reverse.dropWhile (· != '/')).reverse

theorem directory_append_lastComponent (path : String) :
    directory path ++ lastComponent path = path := by
  unfold directory lastComponent
  rw [← String.ofList_append, ← List.reverse_append, List.takeWhile_append_dropWhile,
    List.reverse_reverse, String.ofList_toList]

theorem endsWithSlash_directory (path : String) : EndsWithSlash (directory path).toList := by
  unfold directory
  rw [String.toList_ofList]
  cases hback : path.toList.reverse.dropWhile (· != '/') with
  | nil => exact .inl rfl
  | cons c above =>
    have hslash : c = '/' := by
      have hhead := List.head?_dropWhile_not (· != '/') path.toList.reverse
      rw [hback] at hhead
      simpa using hhead
    exact .inr ⟨above.reverse, by rw [List.reverse_cons, hslash]⟩

/-! ## Texts without a slash -/

theorem holdsChars_iff : holdsChars part cs = true ↔ part <:+: cs := by
  induction cs with
  | nil => rw [holdsChars, List.isEmpty_iff, List.infix_nil]
  | cons c cs ih =>
    rw [holdsChars, Bool.or_eq_true, List.isPrefixOf_iff_prefix, ih, List.infix_cons_iff]

theorem suffix_append_iff (hslash : '/' ∉ part) (hfront : EndsWithSlash front) :
    part <:+ front ++ cs ↔ part <:+ cs := by
  refine ⟨fun h => ?_, fun h => h.trans (List.suffix_append _ _)⟩
  obtain ⟨before, h⟩ := h
  rcases List.append_eq_append_iff.mp h with ⟨excess, hover, hpart⟩ | ⟨excess, -, rfl⟩
  · -- the part would start before the slash and end after it
    rcases List.eq_nil_or_concat excess with rfl | ⟨most, c, rfl⟩
    · exact ⟨[], hpart⟩
    · refine absurd ?_ hslash
      rcases hfront with rfl | ⟨above, rfl⟩
      · simp at hover
      · rw [List.concat_eq_append, ← List.append_assoc] at hover
        have hc := (List.append_inj' hover rfl).2
        rw [List.singleton_inj] at hc
        rw [hpart, hc]
        simp
  · exact ⟨excess, rfl⟩

theorem infix_append_iff (hslash : '/' ∉ part) (hfront : EndsWithSlash front) :
    part <:+: front ++ cs ↔ part <:+: front ∨ part <:+: cs := by
  constructor
  · rintro ⟨before, after, h⟩
    rcases List.append_eq_append_iff.mp h with ⟨rest, hrest, -⟩ | ⟨rest, hrest, rfl⟩
    · exact .inl ⟨before, rest, hrest.symm⟩
    · have hback : part <:+ rest := (suffix_append_iff hslash hfront).mp ⟨before, hrest⟩
      exact .inr (hback.isInfix.trans (List.prefix_append _ _).isInfix)
  · rintro (h | h)
    · exact h.trans (List.prefix_append _ _).isInfix
    · exact h.trans (List.suffix_append _ _).isInfix

variable {word dir name : String}

/-- **A text without a slash that a path holds** lies in the directory or in the name. -/
theorem holds_append (hslash : '/' ∉ word.toList) (hdir : EndsWithSlash dir.toList) :
    holds word (dir ++ name) = (holds word dir || holds word name) := by
  rw [Bool.eq_iff_iff, Bool.or_eq_true]
  unfold holds
  rw [holdsChars_iff, holdsChars_iff, holdsChars_iff, String.toList_append]
  exact infix_append_iff hslash hdir

theorem endsWith_append (hslash : '/' ∉ word.toList) (hdir : EndsWithSlash dir.toList) :
    endsWith word (dir ++ name) = endsWith word name := by
  rw [Bool.eq_iff_iff]
  unfold endsWith
  rw [List.isSuffixOf_iff_suffix, List.isSuffixOf_iff_suffix, String.toList_append]
  exact suffix_append_iff hslash hdir

end Lintel.Text
