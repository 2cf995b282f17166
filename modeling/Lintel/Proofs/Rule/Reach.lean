import Lintel.Proofs.Pattern.Ends
import Lintel.Rule.Builtin

/-!
# Which paths the built-in rules look at

The pattern of a rule is searched in the whole path of a file, and one rule looks at the path once more before
it reports. For most rules only the name of the file counts. The directory counts for two of them
(`Overlooks`).

* `isLinewise`, `isFoundIn_linewise`: patterns that start at the beginning of a path and stay in its first
  line;
* **`appliesTo_append`**: a built-in rule looks at a file in a directory as it looks at the name alone,
  unless it overlooks the directory;
* `mayConstruct_append`: so it is with the files in which entities may be constructed.
-/

namespace Lintel

open Text (EndsWithSlash)

/-! ## Patterns of first lines -/

namespace Pattern

variable {cs front : List Char} {p q : Pattern} {i : ℕ}

/-- All characters but the line feed. -/
def notFeed : CharSet := ⟨[.range 10 10], true, .exact⟩

/-- Any number of characters up to a line feed, and then the pattern. -/
def inLine (p : Pattern) : Pattern := .seq (.repeated 0 none false (.one notFeed)) p

/-- From the beginning of the text, up to a line feed, the second pattern matches, and the first one does
not. -/
def unlessThen (p q : Pattern) : Pattern :=
  .seq (.anchor .textStart) (.seq (.ahead true p.inLine) q.inLine)

theorem contains_notFeed {c : Char} : notFeed.contains c = true ↔ c ≠ '\n' := by
  have hfeed : (c.toNat = 10) ↔ c = '\n' := by
    rw [← Char.toNat_inj]
    rfl
  simp [CharSet.contains, notFeed, CharItem.contains, CaseRule.variants, ← hfeed]

/-- The pattern matches after some characters of the first line. -/
def InFirstLine (p : Pattern) (cs : List Char) : Prop :=
  ∃ i, '\n' ∉ cs.take i ∧ i ≤ cs.length ∧ ∃ t, t ∈ ends cs.toArray p ⟨i, []⟩

theorem takesAll_notFeed (hi : i ≤ cs.length) :
    TakesAll cs.toArray notFeed 0 i ↔ '\n' ∉ cs.take i := by
  unfold TakesAll
  simp only [contains_notFeed, List.getElem?_toArray]
  constructor
  · intro hall hfeed
    obtain ⟨m, hm, hchar⟩ := List.mem_iff_getElem.mp hfeed
    rw [List.length_take] at hm
    obtain ⟨c, hc, hne⟩ := hall m (Nat.zero_le m) (by omega)
    rw [List.getElem_take] at hchar
    rw [List.getElem?_eq_getElem (by omega), hchar] at hc
    exact hne (Option.some.inj hc).symm
  · intro hnone m _ hm
    refine ⟨cs[m], List.getElem?_eq_getElem _, fun hchar => hnone ?_⟩
    rw [List.mem_iff_getElem]
    exact ⟨m, by rw [List.length_take]; omega, by rw [List.getElem_take, hchar]⟩

theorem exists_mem_ends_inLine : (∃ t, t ∈ ends cs.toArray p.inLine ⟨0, []⟩) ↔ p.InFirstLine cs := by
  unfold inLine InFirstLine
  simp only [mem_ends_seq, mem_ends_star]
  constructor
  · rintro ⟨t, _, ⟨i, rfl, -, hall⟩, ht⟩
    have hi : i ≤ cs.length := by
      rcases Nat.eq_zero_or_pos i with rfl | hpos
      · exact Nat.zero_le _
      · simpa using hall.le_size hpos
    exact ⟨i, (takesAll_notFeed hi).mp hall, hi, t, ht⟩
  · rintro ⟨i, hfeed, hi, t, ht⟩
    exact ⟨t, _, ⟨i, rfl, Nat.zero_le i, (takesAll_notFeed hi).mpr hfeed⟩, ht⟩

theorem isFoundIn_unlessThen {s : String} : (unlessThen p q).isFoundIn s = true ↔
    ¬ p.InFirstLine s.toList ∧ q.InFirstLine s.toList := by
  rw [isFoundIn_iff, ← exists_mem_ends_inLine, ← exists_mem_ends_inLine]
  unfold unlessThen
  simp only [mem_ends_seq, mem_ends_anchor, mem_ends_ahead]
  constructor
  · rintro ⟨i, -, t, _, ⟨rfl, hstart⟩, _, ⟨rfl, hnone⟩, ht⟩
    obtain rfl : i = 0 := by simpa [holds] using hstart
    exact ⟨hnone, t, ht⟩
  · rintro ⟨hnone, t, ht⟩
    exact ⟨0, Nat.zero_le _, t, _, ⟨rfl, rfl⟩, _, ⟨rfl, hnone⟩, ht⟩

theorem inFirstLine_append (hslash : p.takesNoSlash = true) (hend : p.reachesEnd = true)
    (hfront : EndsWithSlash front) :
    p.InFirstLine (front ++ cs) ↔ '\n' ∉ front ∧ p.InFirstLine cs := by
  unfold InFirstLine
  simp only [exists_mem_ends_append hslash hend hfront]
  constructor
  · rintro ⟨i, hfeed, hi, k, rfl, hends⟩
    rw [List.take_length_add_append, List.mem_append, not_or] at hfeed
    rw [List.length_append] at hi
    exact ⟨hfeed.1, k, hfeed.2, by omega, hends⟩
  · rintro ⟨hfeed, k, hline, hk, hends⟩
    refine ⟨front.length + k, ?_, ?_, k, rfl, hends⟩
    · rw [List.take_length_add_append, List.mem_append, not_or]
      exact ⟨hfeed, hline⟩
    · rw [List.length_append]
      omega

end Pattern

namespace Rule

open Pattern (unlessThen)

variable {rule : Rule} {dir name : String}

/-! ## The patterns of the rules -/

/-- The characters, one after another, and then the pattern. -/
def literally (cs : List Char) (p : Pattern) : Pattern :=
  cs.foldr (fun c p => .seq (.one ⟨[.range c.toNat c.toNat], false, .exact⟩) p) p

/-- The text ends with these characters, but for a line feed. -/
def closing (s : String) : Pattern := literally s.toList (.anchor .lastLineEnd)

theorem pattern_noDirectFetch : noDirectFetch.pattern.map (·.pattern) =
    some (unlessThen (closing ".test.tsx") (closing ".tsx")) := by
  decide +kernel

theorem pattern_of_ne_noDirectFetch (hrule : rule ∈ builtin) (hne : rule.id ≠ noDirectFetch.id) :
    ∃ p, rule.pattern = some p ∧ p.pattern.takesNoSlash = true ∧ p.pattern.reachesEnd = true := by
  have hends : ∀ found : Option PathPattern,
      (found.any fun p => p.pattern.takesNoSlash && p.pattern.reachesEnd) = true →
      ∃ p, found = some p ∧ p.pattern.takesNoSlash = true ∧ p.pattern.reachesEnd = true := by
    intro found h
    cases found with
    | none => cases h
    | some p => exact ⟨p, rfl, Bool.and_eq_true_iff.mp h⟩
  refine hends rule.pattern ?_
  simp only [builtin, List.mem_cons, List.not_mem_nil, or_false] at hrule
  rcases hrule with rfl | rfl | rfl | rfl | rfl | rfl
  · decide +kernel
  · decide +kernel
  · decide +kernel
  · decide +kernel
  · decide +kernel
  · exact absurd rfl hne

/-! ## Directories that a rule overlooks -/

/-- The rule looks at no file in the directory, whatever its name: the pattern of `noDirectFetch` ends at a
line feed, and `entityFromPattern` takes every file below such a directory for a test or a dummy. -/
def Overlooks (rule : Rule) (dir : String) : Prop :=
  (rule.id = noDirectFetch.id ∧ '\n' ∈ dir.toList) ∨
    (rule.id = entityFromPattern.id ∧
      (Text.holds ".test." dir = true ∨ Text.holds ".dummy." dir = true))

instance (rule : Rule) (dir : String) : Decidable (rule.Overlooks dir) :=
  inferInstanceAs (Decidable (_ ∨ _))

theorem appliesTo_noDirectFetch (path : String) : noDirectFetch.appliesTo path = true ↔
    ¬ (closing ".test.tsx").InFirstLine path.toList ∧ (closing ".tsx").InFirstLine path.toList := by
  obtain ⟨p, hp, hpattern⟩ := Option.map_eq_some_iff.mp pattern_noDirectFetch
  rw [appliesTo, hp]
  dsimp only
  rw [hpattern, Pattern.isFoundIn_unlessThen]

theorem appliesTo_noDirectFetch_append (hdir : EndsWithSlash dir.toList) :
    noDirectFetch.appliesTo (dir ++ name) = true ↔
      noDirectFetch.appliesTo name = true ∧ '\n' ∉ dir.toList := by
  have htest : (closing ".test.tsx").InFirstLine (dir.toList ++ name.toList) ↔
      '\n' ∉ dir.toList ∧ (closing ".test.tsx").InFirstLine name.toList :=
    Pattern.inFirstLine_append (by decide +kernel) (by decide +kernel) hdir
  have hfile : (closing ".tsx").InFirstLine (dir.toList ++ name.toList) ↔
      '\n' ∉ dir.toList ∧ (closing ".tsx").InFirstLine name.toList :=
    Pattern.inFirstLine_append (by decide +kernel) (by decide +kernel) hdir
  rw [appliesTo_noDirectFetch, appliesTo_noDirectFetch, String.toList_append, htest, hfile]
  constructor
  · rintro ⟨hnot, hfeed, hends⟩
    exact ⟨⟨fun h => hnot ⟨hfeed, h⟩, hends⟩, hfeed⟩
  · rintro ⟨⟨hnot, hends⟩, hfeed⟩
    exact ⟨fun h => hnot h.2, hfeed, hends⟩

theorem eq_noDirectFetch (hrule : rule ∈ builtin) (hid : rule.id = noDirectFetch.id) :
    rule = noDirectFetch := by
  simp only [builtin, List.mem_cons, List.not_mem_nil, or_false] at hrule
  rcases hrule with rfl | rfl | rfl | rfl | rfl | rfl
  · exact absurd hid (by decide)
  · exact absurd hid (by decide)
  · exact absurd hid (by decide)
  · exact absurd hid (by decide)
  · exact absurd hid (by decide)
  · rfl

/-- **A built-in rule looks at a file in a directory as it looks at the name of the file**, unless the
directory has a line feed and the rule is `noDirectFetch`. -/
theorem appliesTo_append (hrule : rule ∈ builtin) (hdir : EndsWithSlash dir.toList) :
    rule.appliesTo (dir ++ name) = true ↔ rule.appliesTo name = true ∧
      ¬ (rule.id = noDirectFetch.id ∧ '\n' ∈ dir.toList) := by
  by_cases hid : rule.id = noDirectFetch.id
  · rw [eq_noDirectFetch hrule hid, appliesTo_noDirectFetch_append hdir]
    exact and_congr_right fun _ => ⟨fun h hboth => h hboth.2, fun h hfeed => h ⟨rfl, hfeed⟩⟩
  · obtain ⟨p, hp, hslash, hend⟩ := pattern_of_ne_noDirectFetch hrule hid
    have hsame : rule.appliesTo (dir ++ name) = rule.appliesTo name := by
      rw [appliesTo, appliesTo, hp]
      exact Pattern.isFoundIn_append hslash hend hdir
    rw [hsame]
    exact ⟨fun h => ⟨h, fun hboth => hid hboth.1⟩, And.left⟩

theorem mayConstruct_append (hdir : EndsWithSlash dir.toList) :
    mayConstruct (dir ++ name) =
      (Text.holds ".test." dir || Text.holds ".dummy." dir || mayConstruct name) := by
  unfold mayConstruct
  rw [Text.holds_append (by decide) hdir, Text.holds_append (by decide) hdir,
    Text.endsWith_append (by decide) hdir]
  ac_rfl

end Rule

end Lintel
