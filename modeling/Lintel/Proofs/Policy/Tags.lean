import Lintel.Policy.DocTags
import Lintel.Proofs.Text.Blank
import Lintel.Proofs.Tool.DiagnosticLine
import Mathlib.Data.List.Infix

/-!
# The values of tags

A tag speaks where blanks and then words follow it (`Labels`); the words go up to the end of their line. The
value of a tag is what it says where it first speaks. The blanks may be line feeds, so that a tag that stands
alone on its line says what stands on a later one.

* `Labels`, `Speaks`, `IsFirst`: where a tag speaks, after blanks of which kind, and where it does so first;
* `Tells`: what a doc comment tells of a tag;
* `tagText_of_first`, `tagText_of_silent`: the value of a tag that speaks, and of one that does not;
* **`ofDoc_told`**: the values of the three tags, and when they stand on the lines of their tags.
-/

namespace Lintel.Policy

open Tool (IsBlanks)

variable {tag cs back other gap words rest : List Char} {fits : List Char → Prop}

/-! ## Where a tag speaks -/

/-- At the front stands the tag, then a gap of blanks, then words that go up to the end of their line. -/
structure Labels (tag cs gap words rest : List Char) : Prop where
  whole : cs = tag ++ (gap ++ (words ++ rest))
  blanks : IsBlanks gap
  starts : ∃ c ∈ words.head?, Text.isBlank c = false
  unbroken : '\n' ∉ words
  stops : ∀ c ∈ rest.head?, c = '\n'

/-- At the front stands the tag, and words follow it after a gap of the given kind. -/
def Speaks (fits : List Char → Prop) (tag cs : List Char) : Prop :=
  ∃ gap words rest, Labels tag cs gap words rest ∧ fits gap

/-- A gap of any kind. -/
def Anywhere (_ : List Char) : Prop := True

/-- A gap that does not leave the line. -/
def OnLine (gap : List Char) : Prop := '\n' ∉ gap

/-- `back` is the end of the text from the first place at which something holds of what follows. -/
structure IsFirst (holds : List Char → Prop) (cs back : List Char) : Prop where
  isEnd : back <:+ cs
  here : holds back
  first : ∀ other, other <:+ cs → holds other → other.length ≤ back.length

/-- A doc comment tells what a tag says where it first speaks, and the empty text of a tag that never does. -/
inductive Tells (fits : List Char → Prop) (tag doc : String) : String → Prop
  | words {back gap words rest : List Char} (first : IsFirst (Speaks fits tag.toList) doc.toList back)
    (labels : Labels tag.toList back gap words rest) (hgap : fits gap) :
    Tells fits tag doc (Text.trim (String.ofList words))
  | nothing (silent : ∀ back, back <:+ doc.toList → ¬ Speaks fits tag.toList back) : Tells fits tag doc ""

theorem IsFirst.unique {holds : List Char → Prop} (h : IsFirst holds cs back)
    (hother : IsFirst holds cs other) : back = other := by
  have hlength : back.length = other.length :=
    Nat.le_antisymm (hother.first back h.isEnd h.here) (h.first other hother.isEnd hother.here)
  exact (List.suffix_of_suffix_length_le h.isEnd hother.isEnd hlength.le).eq_of_length hlength

theorem Labels.ne_nil (h : Labels tag cs gap words rest) : words ≠ [] := by
  rintro rfl
  obtain ⟨c, hc, -⟩ := h.starts
  cases hc

theorem Labels.trim_eq (h : Labels tag cs gap words rest) :
    Text.trim (String.ofList words) = String.ofList (Text.trimEnd words) := by
  obtain ⟨c, hc, hblank⟩ := h.starts
  rw [Text.trim, String.toList_ofList, Text.trimChars, Text.trimStart]
  cases words with
  | nil => cases hc
  | cons d words =>
    obtain rfl : d = c := by simpa using hc
    rw [List.dropWhile_cons_of_neg (by simp [hblank])]

theorem Labels.trim_ne_empty (h : Labels tag cs gap words rest) : Text.trim (String.ofList words) ≠ "" := by
  rw [ne_eq, Text.trim_eq_empty_iff, String.toList_ofList]
  intro hall
  obtain ⟨c, hc, hblank⟩ := h.starts
  rw [hall c (List.mem_of_mem_head? hc)] at hblank
  cases hblank

/-! ## The reader of values -/

/-- The value of a tag that stands at the front. -/
def valueAt? (tag cs : List Char) : Option (List Char) := (Json.after? tag cs).bind valueAfter?

theorem tagValue?_cons (tag : List Char) (c : Char) (cs : List Char) :
    tagValue? tag (c :: cs) = (valueAt? tag (c :: cs)).or (tagValue? tag cs) := by
  rw [tagValue?, valueAt?]
  cases (Json.after? tag (c :: cs)).bind valueAfter? <;> rfl

theorem Labels.valueAt? (h : Labels tag cs gap words rest) :
    valueAt? tag cs = some (Text.trimEnd words) := by
  obtain ⟨c, hc, hblank⟩ := h.starts
  cases words with
  | nil => cases hc
  | cons d more =>
    obtain rfl : d = c := by simpa using hc
    obtain ⟨hgap, hwords⟩ := span_iff.mpr
      ⟨(rfl : gap ++ (d :: more ++ rest) = _), h.blanks.2, by simpa using hblank⟩
    have hline : (d :: more ++ rest).takeWhile (· != '\n') = d :: more := by
      refine (span_iff.mpr ⟨rfl, fun c hc => ?_, fun c hc => ?_⟩).1
      · simpa using fun heq : c = '\n' => h.unbroken (heq ▸ hc)
      · simpa using h.stops c hc
    obtain ⟨b, blanks, rfl⟩ := List.exists_cons_of_ne_nil h.blanks.1
    rw [Policy.valueAt?, Json.after?_eq_some_iff.mpr h.whole, Option.bind_some, valueAfter?, hgap, hwords]
    simp only [List.cons_append] at hline ⊢
    rw [hline]

theorem labels_of_valueAt? {value : List Char} (h : valueAt? tag cs = some value) :
    (∃ gap words rest, Labels tag cs gap words rest ∧ value = Text.trimEnd words) ∨
      value = [] ∧ ∃ blanks, cs = tag ++ blanks ∧ ∀ c ∈ blanks, Text.isBlank c = true := by
  obtain ⟨after, hafter, hvalue⟩ := Option.bind_eq_some_iff.mp h
  obtain rfl := Json.after?_eq_some_iff.mp hafter
  obtain ⟨hsplit, hgap, hhead⟩ := span_iff.mp
    ⟨(rfl : after.takeWhile Text.isBlank = _), (rfl : after.dropWhile Text.isBlank = _)⟩
  rw [valueAfter?] at hvalue
  cases htake : after.takeWhile Text.isBlank with
  | nil => simp [htake] at hvalue
  | cons b blanks =>
    cases hdrop : after.dropWhile Text.isBlank with
    | nil =>
      rw [htake, hdrop] at hvalue
      rw [hdrop, List.append_nil] at hsplit
      refine .inr ⟨?_, after, rfl, hsplit ▸ hgap⟩
      by_cases hany : blanks.any (· != '\n') = true
      · simpa [hany, eq_comm] using hvalue
      · simp [hany] at hvalue
    | cons c more =>
      rw [htake, hdrop] at hvalue hsplit
      rw [htake] at hgap
      rw [hdrop] at hhead
      obtain ⟨hline, hunbroken, hstops⟩ := span_iff.mp
        ⟨(rfl : (c :: more).takeWhile (· != '\n') = _), (rfl : (c :: more).dropWhile (· != '\n') = _)⟩
      have hc : Text.isBlank c = false := hhead c rfl
      have hfeed : c ≠ '\n' := by
        rintro rfl
        cases hc
      refine .inl ⟨b :: blanks, (c :: more).takeWhile (· != '\n'), (c :: more).dropWhile (· != '\n'),
        ⟨?_, ⟨List.cons_ne_nil _ _, hgap⟩, ⟨c, by simp [hfeed], hc⟩, fun hmem => ?_, fun d hd => ?_⟩, ?_⟩
      · rw [← hline, ← hsplit]
      · simpa using hunbroken _ hmem
      · simpa using hstops d hd
      · exact (Option.some.inj hvalue).symm

theorem not_speaks_of_blanks {blanks : List Char} (hblanks : ∀ c ∈ blanks, Text.isBlank c = true)
    (h : back <:+ tag ++ blanks) : ¬ Speaks fits tag back := by
  rintro ⟨gap, words, rest, hlabels, -⟩
  obtain ⟨c, hc, hblank⟩ := hlabels.starts
  obtain ⟨front, hfront⟩ := h
  -- the words lie behind the first place of the tag, so they are among the blanks
  have hmem : c ∈ blanks := by
    rw [hlabels.whole] at hfront
    have hdrop := congrArg (List.drop tag.length) hfront
    have hbefore : tag.length ≤ (front ++ tag ++ gap).length := by
      rw [List.length_append, List.length_append]
      omega
    rw [List.drop_left, ← List.append_assoc, ← List.append_assoc,
      List.drop_append_of_le_length hbefore] at hdrop
    rw [← hdrop]
    simp [List.mem_of_mem_head? hc]
  rw [hblanks c hmem] at hblank
  cases hblank

/-- **The reader finds what a tag says where it first speaks**, and nothing if it never does. -/
theorem tagValue?_spec (tag cs : List Char) :
    (∃ back gap words rest, IsFirst (Speaks Anywhere tag) cs back ∧ Labels tag back gap words rest ∧
      tagValue? tag cs = some (Text.trimEnd words)) ∨
    (∀ back, back <:+ cs → ¬ Speaks Anywhere tag back) ∧ (tagValue? tag cs).getD [] = [] := by
  induction cs with
  | nil =>
    refine .inr ⟨fun back hback => ?_, rfl⟩
    rw [List.suffix_nil] at hback
    rintro ⟨gap, words, rest, hlabels, -⟩
    have hnil := hback.symm.trans hlabels.whole
    simp [hlabels.ne_nil] at hnil
  | cons c cs ih =>
    rw [tagValue?_cons]
    cases hvalue : valueAt? tag (c :: cs) with
    | some value =>
      rcases labels_of_valueAt? hvalue with ⟨gap, words, rest, hlabels, rfl⟩ | ⟨rfl, blanks, hcs, hblanks⟩
      · exact .inl ⟨c :: cs, gap, words, rest,
          ⟨List.suffix_rfl, ⟨gap, words, rest, hlabels, trivial⟩, fun other h _ => h.length_le⟩, hlabels, rfl⟩
      · exact .inr ⟨fun back hback => not_speaks_of_blanks hblanks (hcs ▸ hback), rfl⟩
    | none =>
      have hnot : ¬ Speaks Anywhere tag (c :: cs) := by
        rintro ⟨gap, words, rest, hlabels, -⟩
        rw [hlabels.valueAt?] at hvalue
        cases hvalue
      rw [Option.none_or]
      rcases ih with ⟨back, gap, words, rest, hfirst, hlabels, hfound⟩ | ⟨hsilent, hfound⟩
      · refine .inl ⟨back, gap, words, rest,
          ⟨hfirst.isEnd.trans (List.suffix_cons c cs), hfirst.here, fun other h hspeaks => ?_⟩, hlabels, hfound⟩
        rcases List.suffix_cons_iff.mp h with rfl | h
        · exact absurd hspeaks hnot
        · exact hfirst.first other h hspeaks
      · refine .inr ⟨fun back h => ?_, hfound⟩
        rcases List.suffix_cons_iff.mp h with rfl | h
        · exact hnot
        · exact hsilent back h

section Value

variable {label text : String}

theorem tagText_of_first (hfirst : IsFirst (Speaks Anywhere label.toList) text.toList back)
    (h : Labels label.toList back gap words rest) :
    tagText label text = Text.trim (String.ofList words) := by
  rw [h.trim_eq, tagText]
  rcases tagValue?_spec label.toList text.toList with
    ⟨other, gap', words', rest', hother, hlabels, hvalue⟩ | ⟨hsilent, -⟩
  · obtain rfl := hfirst.unique hother
    have hsame := hlabels.valueAt?.symm.trans h.valueAt?
    rw [hvalue, hsame, Option.getD_some]
  · exact absurd hfirst.here (hsilent back hfirst.isEnd)

theorem tagText_of_silent (hsilent : ∀ back, back <:+ text.toList → ¬ Speaks Anywhere label.toList back) :
    tagText label text = "" := by
  rw [tagText]
  rcases tagValue?_spec label.toList text.toList with ⟨back, _, _, _, hfirst, -⟩ | ⟨-, hvalue⟩
  · exact absurd hfirst.here (hsilent back hfirst.isEnd)
  · rw [hvalue]

theorem tells_tagText (label text : String) : Tells Anywhere label text (tagText label text) := by
  rcases tagValue?_spec label.toList text.toList with
    ⟨back, gap, words, rest, hfirst, hlabels, -⟩ | ⟨hsilent, -⟩
  · rw [tagText_of_first hfirst hlabels]
    exact .words hfirst hlabels trivial
  · rw [tagText_of_silent hsilent]
    exact .nothing hsilent

end Value

/-! ## Tags that take over later lines -/

/-- Where the tag first speaks, it stands alone on its line and says what stands on a later one. -/
def TakesOver (tag doc : String) : Prop :=
  ∃ back gap words rest, IsFirst (Speaks Anywhere tag.toList) doc.toList back ∧
    Labels tag.toList back gap words rest ∧ '\n' ∈ gap

/-- What a doc comment tells of a tag, wherever the words stand, is what it tells of it on the line of the tag,
unless the tag takes over a later line; then that line is the value. -/
structure Told (tag doc value : String) : Prop where
  next : Tells Anywhere tag doc value
  onLine : ¬ TakesOver tag doc → Tells OnLine tag doc value
  later : TakesOver tag doc → value ≠ "" ∧ ∃ back gap words rest,
    IsFirst (Speaks Anywhere tag.toList) doc.toList back ∧ Labels tag.toList back gap words rest ∧
      '\n' ∈ gap ∧ value = Text.trim (String.ofList words)

theorem told_tagText (tag doc : String) : Told tag doc (tagText tag doc) where
  next := tells_tagText tag doc
  onLine hnot := by
    generalize hvalue : tagText tag doc = value
    have htells : Tells Anywhere tag doc value := hvalue ▸ tells_tagText tag doc
    cases htells with
    | words hfirst hlabels _ =>
      have hgap : OnLine _ := fun hfeed => hnot ⟨_, _, _, _, hfirst, hlabels, hfeed⟩
      refine .words ⟨hfirst.isEnd, ⟨_, _, _, hlabels, hgap⟩, fun other hend hspeaks => ?_⟩ hlabels hgap
      obtain ⟨gap, words, rest, hother, -⟩ := hspeaks
      exact hfirst.first other hend ⟨gap, words, rest, hother, trivial⟩
    | nothing hsilent =>
      refine .nothing fun back hend ⟨gap, words, rest, hlabels, _⟩ => ?_
      exact hsilent back hend ⟨gap, words, rest, hlabels, trivial⟩
  later := by
    rintro ⟨back, gap, words, rest, hfirst, hlabels, hfeed⟩
    have hvalue := tagText_of_first hfirst hlabels
    exact ⟨hvalue ▸ hlabels.trim_ne_empty, back, gap, words, rest, hfirst, hlabels, hfeed, hvalue⟩

/-- **The values of the three tags of a doc comment**, of which the first is the description of the rule:
each is what the tag says where it first speaks, on the line of the tag unless the tag stands alone there. -/
theorem ofDoc_told (doc : String) :
    Told "@what" doc (Metadata.ofDoc doc).what ∧ Told "@why" doc (Metadata.ofDoc doc).why ∧
      Told "@failure" doc (Metadata.ofDoc doc).failure ∧ description doc = (Metadata.ofDoc doc).what :=
  ⟨told_tagText _ _, told_tagText _ _, told_tagText _ _, rfl⟩

/-- An empty tag takes over the tag of the next line. -/
example : (Metadata.ofDoc "@what\n@why later").what = "@why later" := by decide +kernel

/-- **The value of a tag need not stand on the line of the tag.** -/
theorem not_forall_tells_onLine :
    ¬ ∀ doc : String, Tells OnLine "@what" doc (Metadata.ofDoc doc).what := by
  intro hall
  have htells := hall "@what\n@why later"
  have hvalue : (Metadata.ofDoc "@what\n@why later").what = "@why later" := by decide +kernel
  -- the only tag is followed by a line feed
  have hsilent : ∀ back, back <:+ "@what\n@why later".toList → ¬ Speaks OnLine "@what".toList back := by
    rintro back hend ⟨gap, words, rest, hlabels, hline⟩
    have hall : ∀ back ∈ "@what\n@why later".toList.tails, "@what".toList <+: back →
        back[5]? = some '\n' := by
      decide +kernel
    have hfeed := hall back ((List.mem_tails _ _).mpr hend) (hlabels.whole ▸ List.prefix_append _ _)
    obtain ⟨c, more, rfl⟩ := List.exists_cons_of_ne_nil hlabels.blanks.1
    obtain rfl : c = '\n' := by simpa [hlabels.whole] using hfeed
    exact hline List.mem_cons_self
  rw [hvalue] at htells
  generalize hother : "@why later" = value at htells
  cases htells with
  | words hfirst _ _ => exact hsilent _ hfirst.isEnd hfirst.here
  | nothing _ => exact absurd hother (by decide)

end Lintel.Policy
