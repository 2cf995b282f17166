import Lintel.Proofs.Files.Below
import Lintel.Proofs.Syntax.Character
import Lintel.Proofs.Text.Lines
import Lintel.Proofs.Tool.Printed
import Lintel.Review.Toolset

/-!
# Searching files for lines

A search lists the lines that match in the files at a path, each with its file and its number. A line is ended
by any character that does so, not by a line feed alone, and the numbers count them all.

* `Searched`, `searched_of_ends`: the files that are searched;
* `ListsLines`: a row that lists the matching lines of a text; `listsLines_iff`: there is one such row;
* `listsLines_newline`, `onlyNewlines_of_listsLines`: when the row lists the lines between line feeds;
* `line_positionOf_iff`: when the number of a line is that of the nodes that start in it;
* **`grep_exact`**: all that a search answers; `not_forall_grep_newline`: it need not be the lines between line
  feeds.
-/

namespace Lintel.Review.Toolset

open Files (IsNormal Path View)
open Files.Glob (beneath)
open Syntax (Node Source)
open Text (IsLine isLineBreak linesBy)

variable {toolset : Toolset} {target path : Path} {filePattern : Option String} {files : List Path}
  {ends : Char → Bool} {finds : Finder} {text : String} {row : List String}

/-! ## Files -/

/-- The file is searched: it is the target, or it stands below the target and its name fits. -/
def IsSearched (view : View) (target : Path) (filePattern : Option String) (path : Path) : Prop :=
  view.isFile path = true ∧ (path = target ∨ ∃ parts, parts ≠ [] ∧ IsNormal parts ∧
    path = beneath target parts ∧ ∀ p ∈ filePattern, Wildcard.matchesName p path.name = true)

/-- The files are those that are searched, in the strict order of their paths. -/
structure Searched (view : View) (target : Path) (filePattern : Option String) (files : List Path) :
    Prop where
  listed : ∀ path, path ∈ files ↔ IsSearched view target filePattern path
  sorted : files.Pairwise fun p q => p.parts < q.parts

theorem searched_of_isFile (h : toolset.view.isFile target = true) :
    toolset.searched target filePattern = .ok [target] := by
  rw [searched, Files.askFile_eq_true_iff.mpr h, ok_bind]
  rfl

theorem searched_singleton (h : toolset.view.isFile target = true) :
    Searched toolset.view target filePattern [target] := by
  refine ⟨fun path => ?_, List.pairwise_singleton _ _⟩
  rw [List.mem_singleton]
  constructor
  · rintro rfl
    exact ⟨h, .inl rfl⟩
  · rintro ⟨hfile, htarget | ⟨parts, hne, -, rfl, -⟩⟩
    · exact htarget
    · -- nothing stands below a file
      obtain ⟨found, content, rules, hfound⟩ := Files.isFile_iff.mp hfile
      obtain ⟨place, hdir, -⟩ := Files.exists_dir_of_locate_beneath hne hfound
      simp [View.isFile, hdir] at h

def fileOf? (target : Path) : List String × Entry → Option Path
  | (_, .dir) => none
  | (parts, .file ..) => some (beneath target parts)

def filesBelow (view : View) (target : Path) (filePattern : Option String) : List Path :=
  ((view.below target).filterMap (fileOf? target)).filter fun path =>
    filePattern.all fun p => Wildcard.matchesName p path.name

theorem searched_of_askDir (h : toolset.view.askDir target = .ok true) :
    toolset.searched target filePattern =
      .ok ((filesBelow toolset.view target filePattern).mergeSort Files.pathLe) := by
  obtain ⟨place, hplace⟩ := Files.isDir_iff.mp (Files.isDir_of_askDir h)
  have hask : toolset.view.askFile target = .ok false := by simp [View.askFile, View.isFile, hplace]
  rw [searched, hask, ok_bind, if_neg Bool.false_ne_true, h, ok_bind, if_pos rfl]
  refine congrArg (fun paths => Except.ok ((List.filter _ paths).mergeSort Files.pathLe)) ?_
  refine congrArg (List.filterMap · _) (funext fun e => ?_)
  obtain ⟨parts, _ | ⟨content, rules⟩⟩ := e <;> rfl

theorem searched_searched {view : View} (hdisk : view.files.OnDisk) (h : view.isDir target = true) :
    Searched view target filePattern ((filesBelow view target filePattern).mergeSort Files.pathLe) := by
  constructor
  · intro path
    have hfits : (filePattern.all fun p => Wildcard.matchesName p path.name) = true ↔
        ∀ p ∈ filePattern, Wildcard.matchesName p path.name = true := by
      cases filePattern <;> simp
    rw [List.mem_mergeSort, filesBelow, List.mem_filter, List.mem_filterMap, hfits]
    constructor
    · rintro ⟨⟨⟨parts, _ | ⟨content, rules⟩⟩, hmem, hpath⟩, hname⟩
      · cases hpath
      · obtain rfl : beneath target parts = path := Option.some.inj hpath
        obtain ⟨hne, hnormal, place, hplace⟩ := (Files.mem_below_iff hdisk).mp hmem
        exact ⟨Files.isFile_iff.mpr ⟨place, content, rules, hplace⟩, .inr ⟨parts, hne, hnormal, rfl, hname⟩⟩
    · rintro ⟨hfile, rfl | ⟨parts, hne, hnormal, rfl, hname⟩⟩
      · obtain ⟨place, hplace⟩ := Files.isDir_iff.mp h
        simp [View.isFile, hplace] at hfile
      · obtain ⟨place, content, rules, hplace⟩ := Files.isFile_iff.mp hfile
        exact ⟨⟨_, (Files.mem_below_iff hdisk).mpr ⟨hne, hnormal, place, hplace⟩, rfl⟩, hname⟩
  · refine Files.pairwise_lt_mergeSort Path.parts (fun _ _ => Files.partsLe_iff) ?_
    have hbelow : ((view.below target).map fun e => target.parts ++ e.1).Nodup := by
      have honce := (Files.nodup_below hdisk.sound target).map (List.append_right_injective target.parts)
      rwa [List.map_map] at honce
    refine List.Nodup.sublist ?_ hbelow
    refine (List.filter_sublist.map Path.parts).trans ?_
    rw [List.map_filterMap]
    refine Policy.filterMap_sublist_map (fun e parts hparts => ?_) _
    obtain ⟨path, hpath, rfl⟩ := Option.map_eq_some_iff.mp hparts
    obtain ⟨below, _ | ⟨content, rules⟩⟩ := e
    · cases hpath
    · exact Option.some.inj hpath ▸ rfl

/-- **The files at a path are searched**, if there is a file or a directory. -/
theorem searched_iff (hdisk : toolset.view.files.OnDisk) (target : Path) (filePattern : Option String) :
    (Ends (toolset.searched target filePattern) ↔
      toolset.view.isFile target = true ∨ toolset.view.isDir target = true) ∧
    ∀ files, toolset.searched target filePattern = .ok files →
      Searched toolset.view target filePattern files := by
  cases hfile : toolset.view.isFile target with
  | true =>
    rw [searched_of_isFile hfile]
    refine ⟨iff_of_true (ends_ok _) (.inl rfl), fun files hfiles => ?_⟩
    exact Except.ok.inj hfiles ▸ searched_singleton hfile
  | false =>
    cases hdir : toolset.view.isDir target with
    | true =>
      have hasked : toolset.view.askDir target = .ok true := Files.askDir_of_isDir hdisk.storable hdir
      rw [searched_of_askDir hasked]
      refine ⟨iff_of_true (ends_ok _) (.inr rfl), fun files hfiles => ?_⟩
      exact Except.ok.inj hfiles ▸ searched_searched hdisk hdir
    | false =>
      have hnone : ¬ Ends (toolset.searched target filePattern) := by
        rintro ⟨files, hfiles⟩
        obtain ⟨there, hask, hfiles⟩ := bind_eq_ok.mp hfiles
        cases there with
        | true => simp [Files.askFile_eq_true_iff.mp hask] at hfile
        | false =>
          obtain ⟨there, hask, hfiles⟩ := bind_eq_ok.mp hfiles
          cases there with
          | true => simp [Files.isDir_of_askDir hask] at hdir
          | false => cases hfiles
      exact ⟨iff_of_false hnone (by simp), fun files hfiles => absurd ⟨files, hfiles⟩ hnone⟩

/-! ## Lines -/

def entryText (path : Path) (entry : ℕ × List Char) : String :=
  s!"{path.text}:{Number.intText entry.1}:{String.ofList entry.2}"

/-- The row has an entry for every line of the text that matches, with the number of the characters before it
that end a line, counted from one, and nothing else, in the strict order of these numbers. -/
def ListsLines (ends : Char → Bool) (finds : Finder) (path : Path) (text : String) (row : List String) :
    Prop :=
  ∃ found : List (ℕ × List Char), row = found.map (entryText path) ∧
    found.Pairwise (fun a b => a.1 < b.1) ∧
    ∀ number line, (number, line) ∈ found ↔ finds (String.ofList line) = true ∧
      ∃ before after, IsLine ends text.toList before line after ∧ number = 1 + before.countP ends

def numbered (ends : Char → Bool) (finds : Finder) (text : String) : List (ℕ × List Char) :=
  (linesBy ends text.toList).zipIdx.filterMap fun (line, i) =>
    if finds (String.ofList line) then some (i + 1, line) else none

theorem mem_numbered {number : ℕ} {line : List Char} : (number, line) ∈ numbered ends finds text ↔
    finds (String.ofList line) = true ∧
      ∃ before after, IsLine ends text.toList before line after ∧ number = 1 + before.countP ends := by
  rw [numbered, List.mem_filterMap]
  constructor
  · rintro ⟨⟨line', i⟩, hmem, hentry⟩
    obtain ⟨hfound, heq⟩ := Option.ite_none_right_eq_some.mp hentry
    obtain ⟨rfl, rfl⟩ := Prod.mk.inj (Option.some.inj heq)
    obtain ⟨before, after, hline, rfl⟩ :=
      Text.getElem?_linesBy.mp (List.mk_mem_zipIdx_iff_getElem?.mp hmem)
    exact ⟨hfound, before, after, hline, Nat.add_comm _ 1⟩
  · rintro ⟨hfound, before, after, hline, rfl⟩
    refine ⟨(line, before.countP ends), List.mk_mem_zipIdx_iff_getElem?.mpr ?_, ?_⟩
    · exact Text.getElem?_linesBy.mpr ⟨before, after, hline, rfl⟩
    · simp [hfound, Nat.add_comm]

theorem pairwise_numbered (ends : Char → Bool) (finds : Finder) (text : String) :
    (numbered ends finds text).Pairwise fun a b => a.1 < b.1 := by
  have hnumbers : ((numbered ends finds text).map (·.1)).Sublist
      ((linesBy ends text.toList).zipIdx.map fun e => e.2 + 1) := by
    rw [numbered, List.map_filterMap]
    refine Policy.filterMap_sublist_map (fun e number hnumber => ?_) _
    obtain ⟨entry, hentry, rfl⟩ := Option.map_eq_some_iff.mp hnumber
    obtain ⟨-, heq⟩ := Option.ite_none_right_eq_some.mp hentry
    exact Option.some.inj heq ▸ rfl
  have hrange : ((linesBy ends text.toList).zipIdx.map fun e => e.2 + 1).Pairwise (· < ·) := by
    rw [List.pairwise_map]
    have hplaces : ((linesBy ends text.toList).zipIdx.map (·.2)).Pairwise (· < ·) := by
      rw [List.zipIdx_map_snd]
      exact List.pairwise_lt_range'
    exact (List.pairwise_map.mp hplaces).imp fun hlt => Nat.succ_lt_succ hlt
  exact List.pairwise_map.mp (hrange.sublist hnumbers)

theorem listsLines_iff :
    ListsLines ends finds path text row ↔ row = (numbered ends finds text).map (entryText path) := by
  constructor
  · rintro ⟨found, rfl, hsorted, hmem⟩
    have : Std.Irrefl fun a b : ℕ × List Char => a.1 < b.1 := ⟨fun a => lt_irrefl a.1⟩
    have hsame : found = numbered ends finds text :=
      hsorted.eq_of_mem_iff (pairwise_numbered ends finds text) fun ⟨number, line⟩ => by
        rw [hmem, mem_numbered]
    rw [hsame]
  · rintro rfl
    exact ⟨_, rfl, pairwise_numbered ends finds text, fun _ _ => mem_numbered⟩

theorem not_mem_of_readText {view : View} (h : view.readText path = .ok text) : '\r' ∉ text.toList := by
  obtain ⟨bytes, -, htext⟩ := bind_eq_ok.mp h
  unfold View.textOf at htext
  split at htext
  · obtain rfl := Except.ok.inj htext
    rw [String.toList_ofList]
    exact Text.not_mem_unifyNewlines _
  · cases htext

/-- **What a search finds in a text** are the matching lines, whatever character ends them. -/
theorem listsLines_matchesIn (h : toolset.view.readText path = .ok text) (finds : Finder) :
    ListsLines isLineBreak finds path text (toolset.matchesIn finds path) := by
  rw [listsLines_iff, matchesIn, h]
  dsimp only
  rw [Text.lines, Text.splitLines_eq_linesBy (not_mem_of_readText h), numbered, List.zipIdx_map,
    List.filterMap_map, List.map_filterMap]
  refine List.filterMap_congr fun ⟨line, i⟩ _ => ?_
  cases hfound : finds (String.ofList line) with
  | true => simp [hfound, entryText]
  | false => simp [hfound]

/-! ## Line feeds -/

def isNewline (c : Char) : Bool := c == '\n'

/-- All characters of the text that end a line are line feeds. -/
def OnlyNewlines (cs : List Char) : Prop := ∀ c ∈ cs, isLineBreak c = true → c = '\n'

-- decided along the list, not by going through all characters
instance : DecidablePred OnlyNewlines := fun cs => List.decidableBAll _ cs

theorem isLineBreak_of_isNewline {c : Char} (h : isNewline c = true) : isLineBreak c = true := by
  rw [eq_of_beq h]
  rfl

theorem OnlyNewlines.same {cs : List Char} (h : OnlyNewlines cs) : ∀ c ∈ cs, isLineBreak c = isNewline c := by
  intro c hc
  rw [Bool.eq_iff_iff]
  exact ⟨fun hbreak => beq_iff_eq.mpr (h c hc hbreak), isLineBreak_of_isNewline⟩

theorem line_of_entryText {a b : ℕ × List Char} (h : entryText path a = entryText path b) : a.2 = b.2 := by
  have hspelt (e : ℕ × List Char) : (entryText path e).toList =
      path.text.toList ++ ([':'] ++ ((Number.intText e.1).toList ++ ':' :: e.2)) := by
    simp [entryText, toString]
  have hdigits (e : ℕ × List Char) : ((Number.intText e.1).toList ++ ':' :: e.2).dropWhile (· != ':') =
      ':' :: e.2 := by
    refine (span_iff.mpr ⟨rfl, fun c hc => ?_, by simp⟩).2
    have hdecimal := (Tool.isDigits_intText (Int.natCast_nonneg e.1)).2 c hc
    rw [bne_iff_ne]
    rintro rfl
    exact absurd hdecimal (by decide)
  have hlist := congrArg String.toList h
  rw [hspelt, hspelt] at hlist
  have htail := congrArg (List.dropWhile (· != ':'))
    (List.append_cancel_left (List.append_cancel_left hlist))
  rw [hdigits, hdigits] at htail
  exact (List.cons.inj htail).2

/-- **A search lists the lines between line feeds**, whatever it looks for, if only line feeds end the lines of
the text. -/
theorem listsLines_newline (h : toolset.view.readText path = .ok text) (honly : OnlyNewlines text.toList)
    (finds : Finder) : ListsLines isNewline finds path text (toolset.matchesIn finds path) := by
  have hnumbered : numbered isLineBreak finds text = numbered isNewline finds text := by
    rw [numbered, numbered, Text.linesBy_congr honly.same]
  rw [listsLines_iff, ← hnumbered, ← listsLines_iff]
  exact listsLines_matchesIn h finds

/-- **A search for every line shows where lines end**: it lists the lines between line feeds only if nothing else
ends a line. -/
theorem onlyNewlines_of_listsLines (h : toolset.view.readText path = .ok text)
    (hfinds : ∀ line, finds line = true)
    (hlists : ListsLines isNewline finds path text (toolset.matchesIn finds path)) :
    OnlyNewlines text.toList := by
  intro c hc hbreak
  by_contra hother
  -- the line with the character is found, but it is not a line of its own
  have hinside : isNewline c = false := beq_eq_false_iff_ne.mpr hother
  obtain ⟨before, line, after, hline, hmem⟩ := Text.exists_isLine_of_mem hc hinside
  rw [listsLines_iff, listsLines_iff.mp (listsLines_matchesIn h finds)] at hlists
  have hentry : entryText path (1 + before.countP isNewline, line) ∈
      (numbered isLineBreak finds text).map (entryText path) := by
    rw [hlists]
    exact List.mem_map_of_mem (mem_numbered.mpr ⟨hfinds _, before, after, hline, rfl⟩)
  obtain ⟨⟨number, line'⟩, hnumbered, hsame⟩ := List.mem_map.mp hentry
  obtain rfl : line' = line := line_of_entryText hsame
  obtain ⟨-, _, _, hshort, -⟩ := mem_numbered.mp hnumbered
  rw [hshort.unbroken c hmem] at hbreak
  cases hbreak

/-- **The number of a line is that of the nodes that start in it** exactly if only line feeds end the lines
before it. -/
theorem line_positionOf_iff (hends : ends '\n' = true) {before line after : List Char}
    (hline : IsLine ends text.toList before line after) (name : String) (root : Node) {node : Node}
    {first last : ℕ} (hcovers : node.Covers text.toList first last) (hfrom : before.length ≤ first)
    (hto : first ≤ before.length + line.length) :
    ((Source.ofText name text root).positionOf node).line = 1 + before.countP ends ↔
      ∀ c ∈ before, ends c = true → c = '\n' := by
  have hnone : '\n' ∉ line := fun hmem => by
    rw [hline.unbroken '\n' hmem] at hends
    cases hends
  have hcount : (text.toList.take first).count '\n' = before.count '\n' := by
    have hinLine : (line ++ after).take (first - before.length) = line.take (first - before.length) :=
      List.take_append_of_le_length (by omega)
    rw [hline.whole, List.take_append, List.take_of_length_le hfrom, hinLine, List.count_append,
      List.count_eq_zero.mpr fun hmem => hnone (List.mem_of_mem_take hmem), Nat.add_zero]
  rw [Syntax.positionOf_of_covers name root hcovers, Syntax.positionAfter, hcount,
    Nat.add_left_cancel_iff]
  exact Text.countP_eq_count_iff hends

/-! ## Answers -/

/-- The row is that of a file: what it lists, or nothing if the file cannot be read as text. -/
structure IsRow (ends : Char → Bool) (view : View) (finds : Finder) (path : Path) (row : List String) :
    Prop where
  unread : ∀ fault, view.readText path = .error fault → row = []
  lists : ∀ text, view.readText path = .ok text → ListsLines ends finds path text row

theorem isRow_matchesIn (toolset : Toolset) (finds : Finder) (path : Path) :
    IsRow isLineBreak toolset.view finds path (toolset.matchesIn finds path) := by
  constructor
  · intro fault hfault
    rw [matchesIn, hfault]
  · exact fun text htext => listsLines_matchesIn htext finds

theorem isRow_iff (h : toolset.view.readText path = .ok text) :
    IsRow ends toolset.view finds path row ↔ ListsLines ends finds path text row := by
  refine ⟨fun hrow => hrow.lists text h, fun hlists => ⟨fun fault hfault => ?_, fun text' htext' => ?_⟩⟩
  · cases h.symm.trans hfault
  · exact Except.ok.inj (h.symm.trans htext') ▸ hlists

def remark (pattern : String) : String := "No matches found for pattern: " ++ pattern

/-- **A search answers with the rows of the files that are searched**, in the order of their paths, if its
pattern can be read and a file or a directory is there; this holds whatever patterns mean. The rows list the
lines between all characters that end one; those of a text are the lines between line feeds if no other
character ends a line in it, and not for a search that finds every line if one does. The number of a line is
that of the nodes that start in it exactly if no other character ends a line before it. -/
theorem grep_exact (toolset : Toolset) (hdisk : toolset.view.files.OnDisk) (pattern path : String)
    (filePattern : Option String) :
    let target := toolset.pathOf path
    let given := toolset.answer (.grep pattern path filePattern)
    (Ends given ↔ Ends (toolset.engine pattern) ∧
      (toolset.view.isFile target = true ∨ toolset.view.isDir target = true)) ∧
    (∀ finds answer, toolset.engine pattern = .ok finds → given = .ok answer →
      ∃ files rows, Searched toolset.view target filePattern files ∧
        List.Forall₂ (IsRow isLineBreak toolset.view finds) files rows ∧
        answer = linesOr (remark pattern) rows.flatten) ∧
    ∀ file text, toolset.view.readText file = .ok text →
      (OnlyNewlines text.toList →
        ∀ finds, IsRow isNewline toolset.view finds file (toolset.matchesIn finds file)) ∧
      (∀ finds : Finder, (∀ line, finds line = true) →
        IsRow isNewline toolset.view finds file (toolset.matchesIn finds file) → OnlyNewlines text.toList) ∧
      ∀ ends, ends '\n' = true → ∀ before line after, IsLine ends text.toList before line after →
        ∀ name root node first last, Node.Covers node text.toList first last → before.length ≤ first →
          first ≤ before.length + line.length →
            (((Source.ofText name text root).positionOf node).line = 1 + before.countP ends ↔
              ∀ c ∈ before, ends c = true → c = '\n') := by
  intro target given
  have hgiven : given = toolset.engine pattern >>= fun finds =>
      toolset.searched target filePattern >>= fun files =>
        .ok (linesOr (remark pattern) (files.flatMap (toolset.matchesIn finds))) := rfl
  obtain ⟨hends, hsearched⟩ := searched_iff hdisk target filePattern
  refine ⟨?_, fun finds answer hfinds hanswer => ?_, fun file text htext => ⟨?_, ?_, ?_⟩⟩
  · rw [hgiven, ends_bind, ← hends]
    simp only [ends_bind, ends_ok, and_true]
    exact ⟨fun ⟨finds, hfinds, hfiles⟩ => ⟨⟨finds, hfinds⟩, hfiles⟩,
      fun ⟨⟨finds, hfinds⟩, hfiles⟩ => ⟨finds, hfinds, hfiles⟩⟩
  · rw [hgiven, hfinds, ok_bind] at hanswer
    obtain ⟨files, hfiles, hlines⟩ := bind_eq_ok.mp hanswer
    refine ⟨files, files.map (toolset.matchesIn finds), hsearched files hfiles, ?_, ?_⟩
    · rw [List.forall₂_map_right_iff, List.forall₂_same]
      exact fun file _ => isRow_matchesIn toolset finds file
    · rw [← Except.ok.inj hlines, List.flatMap_def]
  · exact fun honly finds => (isRow_iff htext).mpr (listsLines_newline htext honly finds)
  · exact fun finds hfinds hrow => onlyNewlines_of_listsLines htext hfinds (hrow.lists text htext)
  · intro ends hnewline before line after hline name root node first last hcovers
    exact line_positionOf_iff hnewline hline name root hcovers

/-! ## Two trees to search -/

def letterB : Pattern := .one ⟨[.range 98 98], false, .exact⟩

theorem linePattern_letterB : linePattern Pattern.unnamed "b" = .ok letterB.isFoundIn := rfl

/-- Tools for a directory with a source file, notes, and a file that is no text. -/
def sourceTools : Toolset where
  view := ⟨⟨[
    (["src"], .dir),
    (["src", "a.ts"], .file (Text.encode "const a = 1;\nconst b = a;\n") none),
    (["src", "bad.ts"], .file [0xff] none),
    (["src", "notes.md"], .file (Text.encode "b") none)]⟩, []⟩
  root := .ofString ""
  limit := 1000

theorem grep_exact_sourceTools :
    let target := sourceTools.pathOf "src"
    let source := target.child "a.ts"
    sourceTools.view.files.OnDisk ∧
    ∃ files rows, Searched sourceTools.view target (some "*.ts") files ∧
      List.Forall₂ (IsRow isLineBreak sourceTools.view letterB.isFoundIn) files rows ∧
      sourceTools.answer (.grep "b" "src" (some "*.ts")) = .ok (linesOr (remark "b") rows.flatten) ∧
      source ∈ files ∧ target.child "notes.md" ∉ files ∧
      IsRow isNewline sourceTools.view letterB.isFoundIn source
        (sourceTools.matchesIn letterB.isFoundIn source) := by
  intro target source
  have hdisk : sourceTools.view.files.OnDisk :=
    ⟨⟨by decide +kernel, by decide +kernel⟩, ⟨by decide +kernel, by decide +kernel⟩, by decide +kernel⟩
  have htext : sourceTools.view.readText source = .ok "const a = 1;\nconst b = a;\n" :=
    toOption_eq_some.mp (by decide +kernel)
  obtain ⟨hends, hrows, hlaw⟩ := grep_exact sourceTools hdisk "b" "src" (some "*.ts")
  obtain ⟨answer, hanswer⟩ := hends.mpr ⟨⟨_, linePattern_letterB⟩, .inr rfl⟩
  obtain ⟨files, rows, hsearched, hforall, rfl⟩ := hrows _ answer linePattern_letterB hanswer
  refine ⟨hdisk, files, rows, hsearched, hforall, hanswer, (hsearched.listed _).mpr ?_, fun hmem => ?_, ?_⟩
  · exact ⟨rfl, .inr ⟨["a.ts"], by decide, by decide +kernel, rfl, by decide +kernel⟩⟩
  · obtain ⟨-, hpath | ⟨_, -, -, -, hname⟩⟩ := (hsearched.listed _).mp hmem
    · exact absurd (congrArg Path.parts hpath) (by decide +kernel)
    · exact absurd (hname "*.ts" rfl) (by decide +kernel)
  · have hnewlines : OnlyNewlines "const a = 1;\nconst b = a;\n".toList := by decide +kernel
    exact (hlaw source _ htext).1 hnewlines letterB.isFoundIn

/-- Tools for a directory with a form feed in a line of a file. -/
def formFeedTools : Toolset where
  view := ⟨⟨[(["a.txt"], .file (Text.encode "a\x0cb\nb\n") none)]⟩, []⟩
  root := .ofString ""
  limit := 1000

/-- **A search need not answer with the lines between line feeds.** -/
theorem not_forall_grep_newline :
    ¬ ∀ (toolset : Toolset) (pattern path : String) (filePattern : Option String) (finds : Finder),
      toolset.view.files.OnDisk → toolset.engine pattern = .ok finds →
        toolset.view.isFile (toolset.pathOf path) = true →
          ∃ files rows, Searched toolset.view (toolset.pathOf path) filePattern files ∧
            List.Forall₂ (IsRow isNewline toolset.view finds) files rows ∧
            toolset.answer (.grep pattern path filePattern) = .ok (linesOr (remark pattern) rows.flatten) := by
  intro hall
  let target := formFeedTools.pathOf "a.txt"
  have hdisk : formFeedTools.view.files.OnDisk :=
    ⟨⟨by decide +kernel, by decide +kernel⟩, ⟨by decide +kernel, by decide +kernel⟩, by decide +kernel⟩
  have hfile : formFeedTools.view.isFile target = true := rfl
  have htext : formFeedTools.view.readText target = .ok "a\x0cb\nb\n" :=
    toOption_eq_some.mp (by decide +kernel)
  obtain ⟨files, rows, hsearched, hforall, hanswer⟩ :=
    hall formFeedTools "b" "a.txt" none letterB.isFoundIn hdisk linePattern_letterB hfile
  have hfiles : files = [target] := by
    have : Std.Irrefl fun p q : Path => p.parts < q.parts := ⟨fun p => lt_irrefl p.parts⟩
    have hone : Searched formFeedTools.view target none [target] := searched_singleton hfile
    refine hsearched.sorted.eq_of_mem_iff hone.sorted fun path => ?_
    rw [hsearched.listed, hone.listed]
  obtain ⟨row, rfl, hrow⟩ :
      ∃ row, rows = [row] ∧ IsRow isNewline formFeedTools.view letterB.isFoundIn target row := by
    rw [hfiles] at hforall
    cases hforall with
    | cons hrow hrest =>
      cases hrest
      exact ⟨_, rfl, hrow⟩
  have hlists := listsLines_iff.mp (hrow.lists _ htext)
  have hgiven : (formFeedTools.answer (.grep "b" "a.txt" none)).toOption =
      some (linesOr (remark "b") [row].flatten) := toOption_eq_some.mpr hanswer
  rw [hlists] at hgiven
  exact absurd hgiven (by decide +kernel)

end Lintel.Review.Toolset
