import Lintel.Proofs.Policy.Exact
import Lintel.Proofs.Policy.Tags
import Lintel.Proofs.Policy.Whole

/-!
# Doc comments in their files

The catalog reads the description of a rule in the whole text of its file, the loader in the doc comment of
the module, which stands in that text between two marks (`IsQuoted`). Both say the same if the words of the
tag end in the comment; where they go up to its end, the catalog takes in the mark and what follows it.

* `Labels.append`, `Speaks.append`, `Speaks.length_le`: what a tag says in a text that goes on;
* `Labels.cut`: where a text is cut by a mark, and what the tag says before it;
* **`description_eq_iff`**: when the description in the text is that in the doc comment;
* **`RuleStore.load_described`**: what the catalog says of a file, and what the rule says that is loaded from
  it; `not_forall_description_eq_what`: a comment of one line.
-/

namespace Lintel.Policy

open Files (Path View)

variable {tag cs back other gap words rest before doc after : List Char}

/-! ## Texts that go on -/

theorem Speaks.ne_nil {fits : List Char → Prop} (h : Speaks fits tag cs) : cs ≠ [] := by
  obtain ⟨gap, words, rest, hlabels, -⟩ := h
  rintro rfl
  have hnil := hlabels.whole
  simp [hlabels.ne_nil] at hnil

theorem Labels.length_lt (h : Labels tag cs gap words rest) : rest.length < cs.length := by
  have hpos := List.length_pos_iff.mpr h.ne_nil
  have hlength := congrArg List.length h.whole
  simp only [List.length_append] at hlength
  omega

/-- Words whose line has ended are the same in a text that goes on. -/
theorem Labels.append (h : Labels tag cs gap words rest) (hrest : rest ≠ []) (after : List Char) :
    Labels tag (cs ++ after) gap words (rest ++ after) where
  whole := by simp [h.whole]
  blanks := h.blanks
  starts := h.starts
  unbroken := h.unbroken
  stops := by
    rw [List.head?_append_of_ne_nil _ hrest]
    exact h.stops

theorem Labels.append_line (h : Labels tag cs gap words []) (after : List Char) :
    Labels tag (cs ++ after) gap (words ++ after.takeWhile (· != '\n')) (after.dropWhile (· != '\n')) where
  whole := by simp [h.whole]
  blanks := h.blanks
  starts := by
    rw [List.head?_append_of_ne_nil _ h.ne_nil]
    exact h.starts
  unbroken hmem := by
    rcases List.mem_append.mp hmem with hmem | hmem
    · exact h.unbroken hmem
    · simpa using List.mem_takeWhile_imp hmem
  stops c hc := by
    have hnot := List.head?_dropWhile_not (· != '\n') after
    rw [Option.mem_def.mp hc] at hnot
    simpa using hnot

theorem Speaks.append (h : Speaks Anywhere tag cs) (after : List Char) :
    Speaks Anywhere tag (cs ++ after) := by
  obtain ⟨gap, words, rest, hlabels, -⟩ := h
  by_cases hrest : rest = []
  · subst hrest
    exact ⟨_, _, _, hlabels.append_line after, trivial⟩
  · exact ⟨_, _, _, hlabels.append hrest after, trivial⟩

/-- No tag speaks in a part of the text that lacks the first character of tags. -/
theorem Speaks.length_le {fits : List Char → Prop} (h : Speaks fits tag back)
    (hback : back <:+ before ++ rest) (hbefore : ∃ c ∈ tag.head?, c ∉ before) :
    back.length ≤ rest.length := by
  obtain ⟨c, hc, hnot⟩ := hbefore
  obtain ⟨gap, words, left, hlabels, -⟩ := h
  rcases List.suffix_or_suffix_of_suffix hback (List.suffix_append before rest) with hend | ⟨front, rfl⟩
  · exact hend.length_le
  · have hfront : front <:+ before := List.suffix_append_self_iff.mp hback
    cases front with
    | nil => simp
    | cons d front =>
      have htag : tag ≠ [] := by
        rintro rfl
        cases hc
      have hhead := congrArg List.head? hlabels.whole
      rw [List.head?_append_of_ne_nil _ htag, Option.mem_def.mp hc] at hhead
      obtain rfl : d = c := by simpa using hhead
      exact absurd (hfront.subset List.mem_cons_self) hnot

theorem IsFirst.of_append (h : IsFirst (Speaks Anywhere tag) (before ++ (doc ++ after)) (back ++ after))
    (hback : back <:+ doc) (hspeaks : Speaks Anywhere tag back) :
    IsFirst (Speaks Anywhere tag) doc back where
  isEnd := hback
  here := hspeaks
  first other hother hspeaks := by
    have hend : other ++ after <:+ before ++ (doc ++ after) :=
      List.suffix_append_of_suffix (List.suffix_append_self_iff.mpr hother)
    have hle := h.first _ hend (hspeaks.append after)
    simpa using hle

theorem Labels.unique {gap' words' rest' : List Char} (h : Labels tag cs gap words rest)
    (hother : Labels tag cs gap' words' rest') : words = words' ∧ rest = rest' := by
  have hspan {gap words rest : List Char} (h : Labels tag cs gap words rest) :
      (cs.drop tag.length).dropWhile Text.isBlank = words ++ rest := by
    rw [h.whole, List.drop_left]
    refine (span_iff.mpr ⟨rfl, h.blanks.2, ?_⟩).2
    obtain ⟨c, hc, hblank⟩ := h.starts
    rw [List.head?_append_of_ne_nil _ h.ne_nil, Option.mem_def.mp hc]
    simpa using hblank
  have hline {gap words rest : List Char} (h : Labels tag cs gap words rest) :
      (words ++ rest).takeWhile (· != '\n') = words ∧ (words ++ rest).dropWhile (· != '\n') = rest := by
    refine span_iff.mpr ⟨rfl, fun c hc => ?_, fun c hc => ?_⟩
    · simpa using fun heq : c = '\n' => h.unbroken (heq ▸ hc)
    · simpa using h.stops c hc
  have hsame := (hspan h).symm.trans (hspan hother)
  exact ⟨(hline h).1.symm.trans (hsame ▸ (hline hother).1),
    (hline h).2.symm.trans (hsame ▸ (hline hother).2)⟩

/-! ## Texts that a mark cuts -/

/-- What follows starts with a mark: a character that is not blank and does not occur in the tag. -/
def Closes (tag after : List Char) : Prop := ∃ q ∈ after.head?, Text.isBlank q = false ∧ q ∉ tag

theorem Closes.eq_nil {beyond left : List Char} (h : Closes tag after) (hafter : after = beyond ++ left)
    (hbeyond : (∀ c ∈ beyond, Text.isBlank c = true) ∨ beyond ⊆ tag) : beyond = [] := by
  obtain ⟨q, hq, hblank, htag⟩ := h
  cases beyond with
  | nil => rfl
  | cons c beyond =>
    obtain rfl : c = q := by simpa [hafter] using hq
    rcases hbeyond with hblanks | hpart
    · rw [hblanks c List.mem_cons_self] at hblank
      cases hblank
    · exact absurd (hpart List.mem_cons_self) htag

theorem Closes.not_stops (h : Closes tag after) : ¬ ∀ c ∈ after.head?, c = '\n' := by
  obtain ⟨q, hq, hblank, -⟩ := h
  intro hstops
  rw [hstops q hq] at hblank
  cases hblank

/-- **Where the tag speaks before a cut**, its words end there, or they go on beyond the cut, or they start
behind it. -/
theorem Labels.cut (h : Labels tag (cs ++ after) gap words rest) (hcloses : Closes tag after) :
    (∃ left, left ≠ [] ∧ rest = left ++ after ∧ Labels tag cs gap words left) ∨
    (∃ said more, more ≠ [] ∧ words = said ++ more ∧ after = more ++ rest ∧ Labels tag cs gap said []) ∨
    cs = tag ++ gap ∧ after = words ++ rest := by
  -- each part of what the tag says ends before the cut or is cut itself
  rcases List.append_eq_append_iff.mp h.whole with ⟨beyond, htag, hafter⟩ | ⟨behind, rfl, hbehind⟩
  · obtain rfl := hcloses.eq_nil hafter (.inr (htag ▸ List.subset_append_right _ _))
    have hnext : after = gap ++ (words ++ rest) := hafter
    exact absurd (hcloses.eq_nil hnext (.inl h.blanks.2)) h.blanks.1
  rcases List.append_eq_append_iff.mp hbehind with ⟨said, rfl, hsaid⟩ | ⟨beyond, hgap, hafter⟩
  · rcases List.append_eq_append_iff.mp hsaid with ⟨left, rfl, hrest⟩ | ⟨more, hwords, hafter⟩
    · by_cases hleft : left = []
      · subst hleft
        have hrest : rest = after := hrest
        exact absurd (hrest ▸ h.stops) hcloses.not_stops
      · refine .inl ⟨left, hleft, hrest, rfl, h.blanks, h.starts, h.unbroken, ?_⟩
        rw [← List.head?_append_of_ne_nil left hleft, ← hrest]
        exact h.stops
    · by_cases hsome : said = []
      · subst hsome
        exact .inr (.inr ⟨by simp, by rw [hafter, hwords, List.nil_append]⟩)
      · refine .inr (.inl ⟨said, more, ?_, hwords, hafter, by simp, h.blanks, ?_, fun hmem => h.unbroken ?_,
          by simp⟩)
        · rintro rfl
          have hrest : after = rest := hafter
          exact hcloses.not_stops (hrest ▸ h.stops)
        · rw [← List.head?_append_of_ne_nil said hsome, ← hwords]
          exact h.starts
        · rw [hwords]
          exact List.mem_append_left _ hmem
  · obtain rfl := hcloses.eq_nil hafter (.inl fun c hc => h.blanks.2 c (by simp [hgap, hc]))
    exact .inr (.inr ⟨by rw [hgap, List.append_nil], hafter⟩)

theorem trimEnd_append_ne {said more : List Char} (hmore : ∃ q ∈ more.head?, Text.isBlank q = false) :
    Text.trimEnd (said ++ more) ≠ Text.trimEnd said := by
  obtain ⟨q, hq, hblank⟩ := hmore
  intro hsame
  have hlong : said.length < (Text.trimEnd (said ++ more)).length := by
    cases more with
    | nil => cases hq
    | cons c more =>
      obtain rfl : c = q := by simpa using hq
      rw [Text.trimEnd, List.reverse_append, List.reverse_cons, List.append_assoc, List.singleton_append,
        List.length_reverse, List.dropWhile_append]
      split_ifs
      · simp [hblank]
      · simp only [List.length_append, List.length_cons, List.length_reverse]
        omega
  rw [hsame] at hlong
  exact absurd (Text.trimEnd_prefix said).length_le hlong.not_ge

/-! ## Doc comments between marks -/

def commentMarks : List String := ["\"\"\"", "\x27\x27\x27", "\"", "\x27"]

/-- The doc comment stands in the text as it is, between two marks. -/
structure IsQuoted (doc text : String) (before after : List Char) : Prop where
  whole : text.toList = before ++ (doc.toList ++ after)
  marks : ∃ mark ∈ commentMarks, mark.toList <:+ before ∧ mark.toList <+: after

/-- No description stands before the doc comment. -/
def SilentBefore (text : String) (inside : List Char) : Prop :=
  ∀ back, back <:+ text.toList → Speaks Anywhere "@what".toList back → back.length ≤ inside.length

/-- The words of the first description of the text, if there is one, end before the given end of the text. -/
def EndsBefore (text : String) (after : List Char) : Prop :=
  ∀ back gap words rest, IsFirst (Speaks Anywhere "@what".toList) text.toList back →
    Labels "@what".toList back gap words rest → after.length < rest.length

theorem IsQuoted.closes {doc text : String} (h : IsQuoted doc text before after) :
    Closes "@what".toList after := by
  obtain ⟨mark, hmark, -, rest, rfl⟩ := h.marks
  simp only [commentMarks, List.mem_cons, List.not_mem_nil, or_false] at hmark
  rcases hmark with rfl | rfl | rfl | rfl
  all_goals exact ⟨_, rfl, by decide, by decide⟩

theorem IsQuoted.isEnd {doc text : String} (h : IsQuoted doc text before after)
    (hother : other <:+ doc.toList) : other ++ after <:+ text.toList := by
  rw [h.whole]
  exact List.suffix_append_of_suffix (List.suffix_append_self_iff.mpr hother)

theorem IsQuoted.length_le {doc text : String} (h : IsQuoted doc text before after)
    (hfirst : IsFirst (Speaks Anywhere tag) text.toList back) (hother : other <:+ doc.toList)
    (hspeaks : Speaks Anywhere tag other) : other.length + after.length ≤ back.length := by
  rw [← List.length_append]
  exact hfirst.first _ (h.isEnd hother) (hspeaks.append after)

theorem endsBefore_iff {text : String} (hfirst : IsFirst (Speaks Anywhere "@what".toList) text.toList back)
    (hlabels : Labels "@what".toList back gap words rest) :
    EndsBefore text after ↔ after.length < rest.length := by
  refine ⟨fun h => h back gap words rest hfirst hlabels, fun h other gap words rest hother hsaid => ?_⟩
  obtain rfl := hother.unique hfirst
  obtain ⟨-, rfl⟩ := hsaid.unique hlabels
  exact h

theorem IsQuoted.description_of_behind {doc text : String} (h : IsQuoted doc text before after)
    (hfirst : IsFirst (Speaks Anywhere "@what".toList) text.toList back) (hbehind : back <:+ after) :
    description doc = "" :=
  tagText_of_silent fun other hother hspeaks => by
    have hle := h.length_le hfirst hother hspeaks
    have hpos := List.length_pos_iff.mpr hspeaks.ne_nil
    have hshort := hbehind.length_le
    omega

theorem IsQuoted.description_eq_iff_of_inside {doc text : String} (h : IsQuoted doc text before after)
    (hfirst : IsFirst (Speaks Anywhere "@what".toList) text.toList (back ++ after))
    (hback : back <:+ doc.toList) (hlabels : Labels "@what".toList (back ++ after) gap words rest) :
    Text.trim (String.ofList words) = description doc ↔ after.length < rest.length := by
  have hinside (hspeaks : Speaks Anywhere "@what".toList back) :
      IsFirst (Speaks Anywhere "@what".toList) doc.toList back := (h.whole ▸ hfirst).of_append hback hspeaks
  rcases hlabels.cut h.closes with
    ⟨left, hleft, rfl, hsame⟩ | ⟨said, more, hmore, rfl, hafter, hcut⟩ | ⟨rfl, hafter⟩
  · -- the words end in the comment
    have hpos := List.length_pos_iff.mpr hleft
    refine iff_of_true (tagText_of_first (hinside ⟨_, _, _, hsame, trivial⟩) hsame).symm ?_
    rw [List.length_append]
    omega
  · -- the words go on beyond the mark
    have hdoc : description doc = Text.trim (String.ofList said) :=
      tagText_of_first (hinside ⟨_, _, _, hcut, trivial⟩) hcut
    refine iff_of_false ?_ (by simp [hafter])
    rw [hdoc, hlabels.trim_eq, hcut.trim_eq, String.ofList_inj]
    obtain ⟨q, hq, hblank, -⟩ := h.closes
    rw [hafter, List.head?_append_of_ne_nil _ hmore] at hq
    exact trimEnd_append_ne ⟨q, hq, hblank⟩
  · -- there are only blanks between the tag and the mark
    have hempty : description doc = "" := tagText_of_silent fun other hother hspeaks => by
      have hle := h.length_le hfirst hother hspeaks
      have hother : other <:+ "@what".toList ++ gap := by
        refine List.suffix_of_suffix_length_le hother hback ?_
        rw [List.length_append] at hle
        omega
      exact not_speaks_of_blanks hlabels.blanks.2 hother hspeaks
    refine iff_of_false ?_ (by simp [hafter])
    rw [hempty]
    exact hlabels.trim_ne_empty

/-- **The description in the text of a file is that in its doc comment** exactly if the words of the first
one end in the comment, or there is none at all. -/
theorem description_eq_iff {doc text : String} (h : IsQuoted doc text before after)
    (hbefore : SilentBefore text (doc.toList ++ after)) :
    description text = description doc ↔ EndsBefore text after := by
  rcases tagValue?_spec "@what".toList text.toList with
    ⟨back, gap, words, rest, hfirst, hlabels, -⟩ | ⟨hsilent, -⟩
  · have htext : description text = Text.trim (String.ofList words) := tagText_of_first hfirst hlabels
    have hback : back <:+ doc.toList ++ after := by
      refine List.suffix_of_suffix_length_le hfirst.isEnd ?_ (hbefore back hfirst.isEnd hfirst.here)
      rw [h.whole]
      exact List.suffix_append _ _
    rw [htext, endsBefore_iff hfirst hlabels]
    rcases List.suffix_or_suffix_of_suffix hback (List.suffix_append _ after) with hbehind | ⟨front, rfl⟩
    · rw [h.description_of_behind hfirst hbehind]
      have hshort := hlabels.length_lt.trans_le hbehind.length_le
      exact iff_of_false hlabels.trim_ne_empty hshort.le.not_gt
    · exact h.description_eq_iff_of_inside hfirst (List.suffix_append_self_iff.mp hback) hlabels
  · have hempty : description doc = "" := tagText_of_silent fun other hother hspeaks =>
      hsilent _ (h.isEnd hother) (hspeaks.append after)
    refine iff_of_true ((tagText_of_silent hsilent).trans hempty.symm) ?_
    intro back gap words rest hfirst _
    exact absurd hfirst.here (hsilent back hfirst.isEnd)

/-! ## Listed files and loaded rules -/

variable {modules : Path → RuleModule} {view : View} {bytecode : Bytecode} {root : Path}
  {workspaces : List CatalogWorkspace} {entry : Listing} {entries : List Listing} {r : CatalogRule}
  {loaded : LoadedRules} {store : RuleStore} {rule : Rule} {key : Option String}

/-- The catalog has this rule at the place of the file. -/
def Listing.Shown (found : List CatalogWorkspace) (entry : Listing) (r : CatalogRule) : Prop :=
  ∃ w ∈ found, ∃ l ∈ w.layers, r ∈ l.rules ∧ entry = ⟨w.name, l.name, r.file⟩

/-- The doc comment of the module stands in the text of the file. -/
structure Listing.Documents (view : View) (modules : Path → RuleModule) (root : Path) (entry : Listing)
    (doc text : String) (before after : List Char) : Prop where
  reads : view.readText (root.join entry.path) = .ok text
  documented : (entry.moduleIn modules root).doc = some doc
  quoted : IsQuoted doc text before after

/-- What the catalog shows of a listed file is the description in its text, and what the rule says is that in
its doc comment; these agree if the words of the first one end in the comment, or there is none. -/
structure Listing.Describes (view : View) (modules : Path → RuleModule) (root : Path) (entry : Listing)
    (shown what : String) : Prop where
  ofText : ∀ text, view.readText (root.join entry.path) = .ok text → shown = description text
  unreadable : (∀ text, view.readText (root.join entry.path) ≠ .ok text) → shown = ""
  ofDoc : what = description ((entry.moduleIn modules root).doc.getD "")
  agrees : ∀ doc text before after, entry.Documents view modules root doc text before after →
    SilentBefore text (doc.toList ++ after) → (shown = what ↔ EndsBefore text after)

theorem exists_shown (h : entry ∈ listed workspaces key) : ∃ r, entry.Shown workspaces r := by
  obtain ⟨w, hw, hentry⟩ := mem_listed h
  obtain ⟨l, hl, r, hr, rfl⟩ := mem_listings.mp hentry
  exact ⟨r, w, hw, l, hl, hr, rfl⟩

theorem Listing.join_path (root : Path) (entry : Listing) :
    root.join entry.path = ((root.child entry.workspace).child entry.layer).child entry.file := by
  simp [Listing.path, Path.child, Path.join, Path.isAbsolute]

theorem Accounted.mem_rules_iff (h : Accounted modules root entries loaded) :
    rule ∈ loaded.rules ↔ ∃ entry ∈ entries, entry.Comes modules root (.ok rule) := by
  induction h with
  | nil => simp
  | @rule entry entries own loaded hcomes _ ih =>
    have hentry : rule = own ↔ entry.Comes modules root (.ok rule) :=
      ⟨fun heq => heq ▸ hcomes, fun h => Except.ok.inj (h.unique hcomes)⟩
    simp [ih, hentry]
  | @fault entry entries fault loaded hcomes _ ih =>
    have hentry : ¬ entry.Comes modules root (.ok rule) := fun h => by cases h.unique hcomes
    simp [ih, hentry]

theorem Listing.Shown.description_eq (hexact : Exact view root ruleSuffixes workspaces)
    (h : entry.Shown workspaces r) : r.description = describedAt view (root.join entry.path) := by
  obtain ⟨w, hw, l, hl, hr, rfl⟩ := h
  rw [Listing.join_path]
  exact congrArg (·.description) (hexact.described w hw l hl r hr)

theorem describedAt_of_readText {path : Path} {text : String} (h : view.readText path = .ok text) :
    describedAt view path = description text := by
  rw [describedAt, h]

/-- **A listed file that loads** describes its rule by its text, and the rule itself by its doc comment. -/
theorem Listing.Shown.describes (hexact : Exact view root ruleSuffixes workspaces)
    (h : entry.Shown workspaces r) (hcomes : entry.Comes modules root (.ok rule)) :
    entry.Describes view modules root r.description rule.metadata.what := by
  have hshown := h.description_eq hexact
  have hwhat : rule.metadata.what = description ((entry.moduleIn modules root).doc.getD "") := by
    cases hcomes
    rfl
  refine ⟨fun text htext => ?_, fun hnone => ?_, hwhat, fun doc text before after hdoc hbefore => ?_⟩
  · rw [hshown, describedAt_of_readText htext]
  · rw [hshown, describedAt]
    cases hread : view.readText (root.join entry.path) with
    | ok text => exact absurd hread (hnone text)
    | error fault => rfl
  · rw [hshown, describedAt_of_readText hdoc.reads, hwhat, hdoc.documented]
    exact description_eq_iff hdoc.quoted hbefore

namespace RuleStore

theorem accounted_of_load (h : load ⟨root, []⟩ view key bytecode = .ok (loaded, store)) :
    ∃ workspaces, catalog view root = .ok workspaces ∧
      Accounted (moduleAt view bytecode) root (listed workspaces key) loaded := by
  cases hcomputed : computed view bytecode root key with
  | error fault =>
    rw [load_of_computed_eq_error hcomputed] at h
    cases h
  | ok rules =>
    obtain ⟨rfl, -⟩ := Prod.mk.inj (Except.ok.inj ((load_of_computed_eq_ok hcomputed).symm.trans h))
    obtain ⟨workspaces, hworkspaces⟩ : Ends (catalog view root) := by
      obtain ⟨files, hfiles, -⟩ := bind_eq_ok.mp hcomputed
      obtain ⟨workspaces, hworkspaces, -⟩ := bind_eq_ok.mp hfiles
      exact ⟨workspaces, hworkspaces⟩
    exact ⟨workspaces, hworkspaces, ((computed_eq_ok hworkspaces).mp hcomputed).1⟩

/-- **The catalog against the rules**: the first load gives the rules that the listed files come to. Each of
the files has its place in the catalog, where it is described by the words of its whole text, as its rule is
by those of the doc comment. -/
theorem load_described (hsound : view.files.Sound) (hstorable : view.files.Storable)
    (h : load ⟨root, []⟩ view key bytecode = .ok (loaded, store)) :
    let modules := moduleAt view bytecode
    ∃ workspaces, catalog view root = .ok workspaces ∧
      (∀ rule, rule ∈ loaded.rules ↔
        ∃ entry ∈ listed workspaces key, loadFile modules (entry.toFile root) = .ok rule) ∧
      ∀ entry ∈ listed workspaces key, (∃ r, entry.Shown workspaces r) ∧
        ∀ r rule, entry.Shown workspaces r → loadFile modules (entry.toFile root) = .ok rule →
          entry.Describes view modules root r.description rule.metadata.what := by
  intro modules
  obtain ⟨workspaces, hworkspaces, haccount⟩ := accounted_of_load h
  have hexact := exact_catalog hsound hstorable hworkspaces
  refine ⟨workspaces, hworkspaces, fun rule => ?_, fun entry hentry => ⟨exists_shown hentry,
    fun r rule hshown hrule => hshown.describes hexact (Listing.comes_ok_iff.mpr hrule)⟩⟩
  rw [haccount.mem_rules_iff]
  simp only [Listing.comes_ok_iff, modules]

end RuleStore

/-! ## Comments of several lines and of one -/

def commentedText (doc : String) : String := "\"\"\"" ++ doc ++ "\"\"\"\n"

/-- The file of a module with a doc comment, whose rule finds nothing. -/
def commentedFile (doc : String) : Entry :=
  .file (Text.encode (commentedText doc))
    (some ⟨some doc, .ok (some ⟨"", none, fun _ _ => .done, .error, {}, ""⟩)⟩)

/-- A doc comment of several lines, which ends on a line of its own. -/
def blockDoc : String := "\n@what Name things\n@why Readers\n"

def lineDoc : String := "@what Name things"

def commentedTree : View := ⟨⟨[
  (["server"], .dir),
  (["server", "use-case"], .dir),
  (["server", "use-case", "block.py"], commentedFile blockDoc),
  (["server", "use-case", "line.py"], commentedFile lineDoc)]⟩, []⟩

def blockListing : Listing := ⟨"server", "use-case", "block.py"⟩

def lineListing : Listing := ⟨"server", "use-case", "line.py"⟩

theorem sound_commentedTree : commentedTree.files.Sound := ⟨by decide +kernel, by decide +kernel⟩

theorem storable_commentedTree : commentedTree.files.Storable := ⟨by decide +kernel, by decide +kernel⟩

theorem catalog_commentedTree : catalog commentedTree (.ofPlace []) = .ok [⟨"server", [⟨"use-case",
    [⟨"block", "block.py", "Name things"⟩, ⟨"line", "line.py", "Name things\"\"\""⟩]⟩]⟩] := by
  have hroot : entriesOf commentedTree (.ofPlace []) = [("server", .dir)] := List.mergeSort_singleton _
  have hserver : entriesOf commentedTree (.ofPlace ["server"]) = [("use-case", .dir)] :=
    List.mergeSort_singleton _
  have hlayer : entriesOf commentedTree (.ofPlace ["server", "use-case"]) =
      [("block.py", commentedFile blockDoc), ("line.py", commentedFile lineDoc)] :=
    List.mergeSort_of_pairwise (by decide)
  have hblock : descriptionOf (commentedFile blockDoc) = "Name things" := by decide +kernel
  have hline : descriptionOf (commentedFile lineDoc) = "Name things\"\"\"" := by decide +kernel
  have hrules : rulesIn commentedTree ruleSuffixes (.ofPlace ["server", "use-case"]) =
      [⟨"block", "block.py", "Name things"⟩, ⟨"line", "line.py", "Name things\"\"\""⟩] := by
    rw [rulesIn, hlayer, ← hline, ← hblock]
    rfl
  have hlayers : layersIn commentedTree ruleSuffixes (.ofPlace ["server"]) =
      [⟨"use-case", rulesIn commentedTree ruleSuffixes (.ofPlace ["server", "use-case"])⟩] := by
    rw [layersIn, openDirectories, hserver]
    show List.filter _ [CatalogLayer.mk "use-case"
      (rulesIn commentedTree ruleSuffixes (.ofPlace ["server", "use-case"]))] = _
    rw [hrules]
    rfl
  have hfound : workspacesIn commentedTree ruleSuffixes (.ofPlace []) =
      [CatalogWorkspace.mk "server" (layersIn commentedTree ruleSuffixes (.ofPlace ["server"]))].filter
        (!·.layers.isEmpty) := by
    rw [workspacesIn, openDirectories, hroot]
    rfl
  rw [hlayers, hrules] at hfound
  exact congrArg Except.ok hfound

theorem listed_commentedTree (h : catalog commentedTree (.ofPlace []) = .ok workspaces) :
    listed workspaces none = [blockListing, lineListing] := by
  rw [← Except.ok.inj (catalog_commentedTree.symm.trans h)]
  rfl

theorem load_commentedTree :
    ∃ loaded store, RuleStore.load ⟨.ofPlace [], []⟩ commentedTree none = .ok (loaded, store) := by
  have haccount : ∃ loaded, Accounted (moduleAt commentedTree {}) (.ofPlace [])
      [blockListing, lineListing] loaded ∧ loaded.ids.Nodup :=
    ⟨_, .rule (.rule _ rfl) (.rule (.rule _ rfl) .nil), by decide +kernel⟩
  rw [← listed_commentedTree catalog_commentedTree] at haccount
  obtain ⟨loaded, haccount⟩ := haccount
  have hcomputed := (RuleStore.computed_eq_ok catalog_commentedTree).mpr haccount
  exact ⟨loaded, _, RuleStore.load_of_computed_eq_ok hcomputed⟩

theorem isQuoted_commentedText (doc : String) :
    IsQuoted doc (commentedText doc) "\"\"\"".toList "\"\"\"\n".toList :=
  ⟨by simp [commentedText], "\"\"\"", by decide, by decide, by decide⟩

theorem documents_line : lineListing.Documents commentedTree (moduleAt commentedTree {}) (.ofPlace []) lineDoc
    (commentedText lineDoc) "\"\"\"".toList "\"\"\"\n".toList :=
  ⟨toOption_eq_some.mp (by decide +kernel), rfl, isQuoted_commentedText lineDoc⟩

theorem documents_block : blockListing.Documents commentedTree (moduleAt commentedTree {}) (.ofPlace []) blockDoc
    (commentedText blockDoc) "\"\"\"".toList "\"\"\"\n".toList :=
  ⟨toOption_eq_some.mp (by decide +kernel), rfl, isQuoted_commentedText blockDoc⟩

theorem silentBefore_commentedText (doc : String) :
    SilentBefore (commentedText doc) (doc.toList ++ "\"\"\"\n".toList) := by
  intro back hback hspeaks
  have hmark : back <:+ "\"\"\"".toList ++ (doc.toList ++ "\"\"\"\n".toList) := by
    simpa [commentedText] using hback
  exact hspeaks.length_le hmark ⟨'@', rfl, by decide⟩

theorem endsBefore_block : EndsBefore (commentedText blockDoc) "\"\"\"\n".toList := by
  have hlabels : Labels "@what".toList "@what Name things\n@why Readers\n\"\"\"\n".toList [' ']
      "Name things".toList "\n@why Readers\n\"\"\"\n".toList :=
    ⟨by decide +kernel, ⟨by decide, fun c hc => List.mem_singleton.mp hc ▸ rfl⟩, ⟨'N', rfl, by decide⟩,
      by decide, fun c hc => (Option.some.inj hc).symm⟩
  have hwhole : (commentedText blockDoc).toList = "\"\"\"\n".toList ++
      "@what Name things\n@why Readers\n\"\"\"\n".toList := by decide +kernel
  refine (endsBefore_iff ⟨hwhole ▸ List.suffix_append _ _, ⟨_, _, _, hlabels, trivial⟩, ?_⟩ hlabels).mpr
    (by decide)
  exact fun other hother hspeaks => hspeaks.length_le (hwhole ▸ hother) ⟨'@', rfl, by decide⟩

theorem load_described_commentedTree :
    commentedTree.files.Sound ∧ commentedTree.files.Storable ∧
      ∃ loaded store, RuleStore.load ⟨.ofPlace [], []⟩ commentedTree none = .ok (loaded, store) ∧
        ∃ workspaces, catalog commentedTree (.ofPlace []) = .ok workspaces ∧
          ∃ rule ∈ loaded.rules, ∃ r, blockListing.Shown workspaces r ∧
            r.description = rule.metadata.what := by
  refine ⟨sound_commentedTree, storable_commentedTree, ?_⟩
  obtain ⟨loaded, store, hload⟩ := load_commentedTree
  obtain ⟨workspaces, hworkspaces, hrules, hfiles⟩ :=
    RuleStore.load_described sound_commentedTree storable_commentedTree hload
  have hentry : blockListing ∈ listed workspaces none := by
    rw [listed_commentedTree hworkspaces]
    decide
  obtain ⟨⟨r, hshown⟩, hdescribes⟩ := hfiles blockListing hentry
  obtain ⟨rule, hrule⟩ : ∃ rule,
      loadFile (moduleAt commentedTree {}) (blockListing.toFile (.ofPlace [])) = .ok rule := ⟨_, rfl⟩
  refine ⟨loaded, store, hload, workspaces, hworkspaces, rule, (hrules rule).mpr ⟨_, hentry, hrule⟩, r,
    hshown, ?_⟩
  exact ((hdescribes r rule hshown hrule).agrees _ _ _ _ documents_block
    (silentBefore_commentedText blockDoc)).mpr endsBefore_block

/-- **The catalog and the rule do not always say the same**: of a doc comment of one line the catalog shows the
mark at its end. -/
theorem not_forall_description_eq_what :
    ¬ ∀ (view : View) (root : Path) (workspaces : List CatalogWorkspace) (loaded : LoadedRules)
      (store : RuleStore) (entry : Listing) (r : CatalogRule) (rule : Rule) (doc text : String)
      (before after : List Char), view.files.Sound → view.files.Storable →
      catalog view root = .ok workspaces →
      RuleStore.load ⟨root, []⟩ view none = .ok (loaded, store) → rule ∈ loaded.rules →
      entry.Shown workspaces r → loadFile (moduleAt view {}) (entry.toFile root) = .ok rule →
      entry.Documents view (moduleAt view {}) root doc text before after →
        r.description = rule.metadata.what := by
  intro hall
  obtain ⟨loaded, store, hload⟩ := load_commentedTree
  obtain ⟨rule, hrule, hwhat⟩ : ∃ rule,
      loadFile (moduleAt commentedTree {}) (lineListing.toFile (.ofPlace [])) = .ok rule ∧
        rule.metadata.what = "Name things" :=
    ⟨_, rfl, by decide +kernel⟩
  have hshown : lineListing.Shown [⟨"server", [⟨"use-case",
      [⟨"block", "block.py", "Name things"⟩, ⟨"line", "line.py", "Name things\"\"\""⟩]⟩]⟩]
      ⟨"line", "line.py", "Name things\"\"\""⟩ :=
    ⟨_, List.mem_singleton_self _, _, List.mem_singleton_self _, by simp, rfl⟩
  have hloaded : rule ∈ loaded.rules := by
    obtain ⟨workspaces, hworkspaces, haccount⟩ := RuleStore.accounted_of_load hload
    refine haccount.mem_rules_iff.mpr ⟨lineListing, ?_, Listing.comes_ok_iff.mpr hrule⟩
    rw [listed_commentedTree hworkspaces]
    decide
  have hsame := hall _ _ _ _ _ _ _ _ _ _ _ _ sound_commentedTree storable_commentedTree
    catalog_commentedTree hload hloaded hshown hrule documents_line
  rw [hwhat] at hsame
  exact absurd hsame (by decide)

end Lintel.Policy
