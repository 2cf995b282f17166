import Lintel.Project.Entities
import Lintel.Proofs.Syntax.Character
import Lintel.Proofs.Tool.DiagnosticLine

/-!
# Exported classes

A text exports a class where at the start of a line the words for it stand, with blanks after each of them,
and then the name of the class (`Exports`). The blanks may be line feeds.

* `afterWord?_eq_some_iff`, `capitalName?_eq_some_iff`: what the steps of the reader find;
* `exportedClass?_eq_some_iff`: the reader finds the class whose export stands at the front;
* **`mem_exportedClasses`**: the classes of a text are those whose export stands at the start of a line
  (`IsExportedBy`).
-/

namespace Lintel.Project

open Syntax (AreLines)
open Tool (IsBlanks)
open Unicode (isWordChar)

variable {cs rest : List Char} {word name text : String}

/-- The characters are the words in front of the name of an exported class. -/
inductive IsHead : List Char → Prop
  | concrete {gap last : List Char} (hgap : IsBlanks gap) (hlast : IsBlanks last) :
    IsHead ("export".toList ++ gap ++ ("class".toList ++ last))
  | abstract {gap between last : List Char} (hgap : IsBlanks gap) (hbetween : IsBlanks between)
    (hlast : IsBlanks last) :
    IsHead ("export".toList ++ gap ++ ("abstract".toList ++ between ++ ("class".toList ++ last)))

/-- The name is that of a class that is exported: a capital letter, and word characters. -/
def IsClassName (name : String) : Prop :=
  ∃ c cs, name.toList = c :: cs ∧ ('A' ≤ c ∧ c ≤ 'Z') ∧ ∀ d ∈ cs, isWordChar d = true

/-- The export of a class stands at the front, with the whole of its name. -/
def Exports (cs : List Char) (name : String) : Prop :=
  ∃ head rest, cs = head ++ (name.toList ++ rest) ∧ IsHead head ∧ IsClassName name ∧
    ∀ c ∈ rest.head?, isWordChar c = false

/-! ## Steps of the reader -/

theorem afterWord?_eq_some_iff : afterWord? word cs = some rest ↔
    ∃ gap, cs = word.toList ++ gap ++ rest ∧ IsBlanks gap ∧ ∀ c ∈ rest.head?, Text.isBlank c = false := by
  have hsteps : afterWord? word cs = (Json.after? word.toList cs).bind Tool.afterBlanks? := rfl
  simp only [hsteps, Option.bind_eq_some_iff, Json.after?_eq_some_iff, Tool.afterBlanks?_eq_some_iff]
  constructor
  · rintro ⟨left, rfl, gap, rfl, hgap, hrest⟩
    exact ⟨gap, (List.append_assoc ..).symm, hgap, hrest⟩
  · rintro ⟨gap, rfl, hgap, hrest⟩
    exact ⟨gap ++ rest, List.append_assoc .., gap, rfl, hgap, hrest⟩

theorem capitalName?_eq_some_iff : capitalName? cs = some name ↔
    ∃ rest, cs = name.toList ++ rest ∧ IsClassName name ∧ ∀ c ∈ rest.head?, isWordChar c = false := by
  cases cs with
  | nil =>
    refine iff_of_false (fun h => nomatch h) ?_
    rintro ⟨rest, hsplit, ⟨c, cs, hname, -⟩, -⟩
    simp [hname] at hsplit
  | cons c cs =>
    simp only [capitalName?, Option.ite_none_right_eq_some, Option.some.injEq, Bool.and_eq_true,
      decide_eq_true_eq]
    constructor
    · rintro ⟨hcapital, rfl⟩
      obtain ⟨hsplit, hword, hrest⟩ := span_iff.mp ⟨rfl, rfl⟩
      refine ⟨cs.dropWhile isWordChar, ?_, ⟨c, _, String.toList_ofList, hcapital, hword⟩, hrest⟩
      rw [String.toList_ofList, List.cons_append, ← hsplit]
    · rintro ⟨rest, hsplit, ⟨d, ds, hname, hcapital, hword⟩, hrest⟩
      rw [hname, List.cons_append] at hsplit
      obtain ⟨rfl, hcs⟩ := List.cons.inj hsplit
      obtain ⟨hrun, -⟩ := span_iff.mpr ⟨hcs, hword, hrest⟩
      rw [hrun, ← hname, String.ofList_toList]
      exact ⟨hcapital, rfl⟩

theorem not_isBlank_of_capital {c : Char} (h : 'A' ≤ c ∧ c ≤ 'Z') : Text.isBlank c = false := by
  have hlow : 65 ≤ c.toNat := h.1
  have hhigh : c.toNat ≤ 90 := h.2
  simp only [Text.isBlank, Bool.or_eq_false_iff, Bool.and_eq_false_iff, decide_eq_false_iff_not,
    beq_eq_false_iff_ne]
  omega

/-- **The reader finds the class whose export stands at the front.** -/
theorem exportedClass?_eq_some_iff : exportedClass? cs = some name ↔ Exports cs name := by
  simp only [exportedClass?, Option.bind_eq_bind, Option.bind_eq_some_iff]
  constructor
  · rintro ⟨first, hexport, second, hclass, hname⟩
    obtain ⟨gap, rfl, hgap, -⟩ := afterWord?_eq_some_iff.mp hexport
    obtain ⟨rest, rfl, hclassName, hrest⟩ := capitalName?_eq_some_iff.mp hname
    cases habstract : afterWord? "abstract" first with
    | none =>
      rw [habstract, Option.getD_none] at hclass
      obtain ⟨last, rfl, hlast, -⟩ := afterWord?_eq_some_iff.mp hclass
      exact ⟨_, rest, by simp, .concrete hgap hlast, hclassName, hrest⟩
    | some left =>
      rw [habstract, Option.getD_some] at hclass
      obtain ⟨between, rfl, hbetween, -⟩ := afterWord?_eq_some_iff.mp habstract
      obtain ⟨last, rfl, hlast, -⟩ := afterWord?_eq_some_iff.mp hclass
      exact ⟨_, rest, by simp, .abstract hgap hbetween hlast, hclassName, hrest⟩
  · rintro ⟨head, rest, rfl, hhead, hclassName, hrest⟩
    have hname := capitalName?_eq_some_iff.mpr ⟨rest, rfl, hclassName, hrest⟩
    obtain ⟨c, tail, hspelt, hcapital, -⟩ := hclassName
    have hclass {last : List Char} (hlast : IsBlanks last) :
        afterWord? "class" ("class".toList ++ last ++ (name.toList ++ rest)) =
          some (name.toList ++ rest) := by
      refine afterWord?_eq_some_iff.mpr ⟨last, rfl, hlast, fun d hd => ?_⟩
      rw [hspelt] at hd
      exact Option.some.inj hd ▸ not_isBlank_of_capital hcapital
    cases hhead with
    | @concrete gap last hgap hlast =>
      refine ⟨"class".toList ++ last ++ (name.toList ++ rest), ?_, _, ?_, hname⟩
      · exact afterWord?_eq_some_iff.mpr ⟨gap, by simp, hgap, by simp; decide⟩
      · have hother : afterWord? "abstract" ("class".toList ++ last ++ (name.toList ++ rest)) = none := rfl
        rw [hother]
        exact hclass hlast
    | @abstract gap between last hgap hbetween hlast =>
      refine ⟨"abstract".toList ++ between ++ ("class".toList ++ last ++ (name.toList ++ rest)), ?_, _, ?_,
        hname⟩
      · exact afterWord?_eq_some_iff.mpr ⟨gap, by simp, hgap, by simp; decide⟩
      · have habstract : afterWord? "abstract"
            ("abstract".toList ++ between ++ ("class".toList ++ last ++ (name.toList ++ rest))) =
              some ("class".toList ++ last ++ (name.toList ++ rest)) :=
          afterWord?_eq_some_iff.mpr ⟨between, rfl, hbetween, by simp; decide⟩
        rw [habstract]
        exact hclass hlast

/-! ## Lines of a text -/

theorem mem_exportedClassesFrom {atStart : Bool} : name ∈ exportedClassesFrom atStart cs ↔
    ∃ front back, cs = front ++ back ∧ (front = [] ∧ atStart = true ∨ front.getLast? = some '\n') ∧
      Exports back name := by
  induction cs generalizing atStart with
  | nil =>
    refine iff_of_false List.not_mem_nil ?_
    rintro ⟨front, back, hsplit, -, hexports⟩
    rw [(List.append_eq_nil_iff.mp hsplit.symm).2, ← exportedClass?_eq_some_iff] at hexports
    cases hexports
  | cons c cs ih =>
    have hstep : name ∈ exportedClassesFrom atStart (c :: cs) ↔
        (atStart = true ∧ exportedClass? (c :: cs) = some name) ∨
          name ∈ exportedClassesFrom (c == '\n') cs := by
      rw [exportedClassesFrom]
      cases atStart <;> simp
    rw [hstep, ih, exportedClass?_eq_some_iff]
    constructor
    · rintro (⟨hstart, hexports⟩ | ⟨front, back, rfl, hfront, hexports⟩)
      · exact ⟨[], c :: cs, rfl, .inl ⟨rfl, hstart⟩, hexports⟩
      · refine ⟨c :: front, back, rfl, .inr ?_, hexports⟩
        rcases hfront with ⟨rfl, hc⟩ | hfront
        · rw [eq_of_beq hc]
          rfl
        · rw [List.getLast?_cons, hfront]
          rfl
    · rintro ⟨front, back, hsplit, hfront, hexports⟩
      cases front with
      | nil =>
        obtain rfl : c :: cs = back := hsplit
        exact .inl ⟨by simpa using hfront, hexports⟩
      | cons d front =>
        obtain ⟨rfl, rfl⟩ := List.cons.inj hsplit
        refine .inr ⟨front, back, rfl, ?_, hexports⟩
        cases front with
        | nil => simpa using hfront
        | cons e front => simpa using hfront

/-- The export of a class stands at the start of a line of the text. -/
def IsExportedBy (text name : String) : Prop :=
  ∃ front back, text.toList = front ++ back ∧ AreLines front ∧ Exports back name

/-- **The classes of a text** are those whose export stands at the start of a line. -/
theorem mem_exportedClasses : name ∈ exportedClasses text ↔ IsExportedBy text name := by
  rw [exportedClasses, mem_exportedClassesFrom]
  simp [IsExportedBy, AreLines]

end Lintel.Project
