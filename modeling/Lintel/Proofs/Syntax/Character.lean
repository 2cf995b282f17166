import Lintel.Proofs.Syntax.Order
import Lintel.Rule.Basic
import Mathlib.Data.List.TakeWhile

/-!
# Positions in characters

A node says by bytes which part of the source it covers. Where these bytes lie between characters, its
position counts lines and characters, and its text is a part of the text of the source.

* `lineOf`: what stands before a place in its line; `bytesInLine_encodeChars`: its bytes;
* `positionAt_byteOf`: the position of the byte at which a character starts, in characters;
* `fromPosition`: the text from a position on; `fromPosition_positionAt`: it starts with the character that
  the position was taken of;
* **`nodes_located`**: the positions and the texts of nodes.
-/

namespace Lintel.Syntax

open Text (Bytes byteOf encodeChars)

/-! ## Lines before a place -/

/-- The characters after the last line feed. -/
def lineOf (before : List Char) : List Char := (before.reverse.takeWhile (· != '\n')).reverse

/-- The characters are whole lines, each with its line feed. -/
def AreLines (cs : List Char) : Prop := cs = [] ∨ cs.getLast? = some '\n'

theorem exists_lines (before : List Char) :
    ∃ lines, before = lines ++ lineOf before ∧ AreLines lines ∧ '\n' ∉ lineOf before := by
  let p : Char → Bool := (· != '\n')
  refine ⟨(before.reverse.dropWhile p).reverse, ?_, ?_, fun h => ?_⟩
  · rw [lineOf, ← List.reverse_append, List.takeWhile_append_dropWhile, List.reverse_reverse]
  · rw [AreLines, List.reverse_eq_nil_iff, List.getLast?_reverse]
    refine or_iff_not_imp_left.mpr fun hne => ?_
    have hfeed := List.head_dropWhile_not p hne
    rw [List.head?_eq_some_head hne]
    simpa [p] using hfeed
  · have := List.mem_takeWhile_imp (List.mem_reverse.mp h)
    simp at this

/-! ## Line feeds among bytes -/

theorem lineFeed_mem_encodeChar (c : Char) : lineFeed ∈ Text.encodeChar c ↔ c = '\n' := by
  rw [Text.mem_encodeChar (by decide)]
  exact Char.toNat_inj (d := '\n')

theorem lineFeed_mem_encodeChars (cs : List Char) : lineFeed ∈ encodeChars cs ↔ '\n' ∈ cs := by
  simp [encodeChars, lineFeed_mem_encodeChar]

/-- **The line feeds of the bytes are those of the text.** -/
theorem count_lineFeed_encodeChars (cs : List Char) :
    (encodeChars cs).count lineFeed = cs.count '\n' := by
  induction cs with
  | nil => rfl
  | cons c cs ih =>
    rw [Text.encodeChars_cons, List.count_append, ih, List.count_cons, Nat.add_comm]
    by_cases hc : c = '\n'
    · subst hc
      rfl
    · rw [List.count_eq_zero.mpr (mt (lineFeed_mem_encodeChar c).mp hc), if_neg (by simpa using hc)]

theorem bytesInLine_of_areLines {lines : List Char} (h : AreLines lines) :
    bytesInLine (encodeChars lines) = 0 := by
  rcases h with rfl | hlast
  · rfl
  · obtain ⟨earlier, rfl⟩ := List.getLast?_eq_some_iff.mp hlast
    have hfeed : encodeChars ['\n'] = [lineFeed] := rfl
    rw [Text.encodeChars_append, hfeed, bytesInLine, List.reverse_append]
    rfl

/-- **The bytes after the last line feed** are those of the line. -/
theorem bytesInLine_encodeChars {lines line : List Char} (h : AreLines lines) (hline : '\n' ∉ line) :
    bytesInLine (encodeChars (lines ++ line)) = (encodeChars line).length := by
  rw [Text.encodeChars_append, bytesInLine_append (mt (lineFeed_mem_encodeChars line).mp hline),
    bytesInLine_of_areLines h, Nat.zero_add]

/-! ## Positions -/

/-- The position of a character after other ones. -/
def positionAfter (before : List Char) : Position :=
  ⟨1 + before.count '\n', 1 + (lineOf before).length⟩

/-- **The position of the byte at which a character starts** counts the lines and the characters. -/
theorem positionAt_byteOf (cs : List Char) (i : ℕ) :
    positionAt (encodeChars cs) (byteOf cs i) = positionAfter (cs.take i) := by
  obtain ⟨lines, hsplit, hlines, hline⟩ := exists_lines (cs.take i)
  have hstart : byteOf cs i = (encodeChars lines).length + (encodeChars (lineOf (cs.take i))).length := by
    rw [byteOf, ← List.length_append, ← Text.encodeChars_append, ← hsplit]
  have hinLine : bytesInLine (encodeChars (cs.take i)) =
      (encodeChars (lineOf (cs.take i))).length := by
    conv_lhs => rw [hsplit]
    exact bytesInLine_encodeChars hlines hline
  have hbytes : encodeChars cs =
      encodeChars lines ++ (encodeChars (lineOf (cs.take i)) ++ encodeChars (cs.drop i)) := by
    rw [← Text.encodeChars_append, ← Text.encodeChars_append, ← List.append_assoc, ← hsplit,
      List.take_append_drop]
  have hslice : sliceBytes (encodeChars cs) (encodeChars lines).length (byteOf cs i) =
      encodeChars (lineOf (cs.take i)) := by
    rw [sliceBytes, hstart, Nat.add_sub_cancel_left, hbytes, List.drop_left, List.take_left]
  simp only [positionAt, positionAfter, Text.take_byteOf, count_lineFeed_encodeChars, hinLine]
  rw [show byteOf cs i - (encodeChars (lineOf (cs.take i))).length = (encodeChars lines).length by omega,
    hslice, Text.decodeLossy_encodeChars, Nat.add_comm 1, Nat.add_comm 1]

/-! ## Back from positions -/

/-- The text without a number of lines. -/
def afterLines : ℕ → List Char → List Char
  | 0, cs => cs
  | n + 1, cs => afterLines n ((cs.dropWhile (· != '\n')).drop 1)

/-- The text from a position on. -/
def fromPosition (cs : List Char) (position : Position) : List Char :=
  (afterLines (position.line - 1) cs).drop (position.column - 1)

theorem AreLines.tail {c : Char} {lines : List Char} (h : AreLines (c :: lines)) :
    AreLines lines ∧ (c ≠ '\n' → '\n' ∈ lines) := by
  have hlast : (c :: lines).getLast? = some '\n' := h.resolve_left (List.cons_ne_nil c lines)
  cases lines with
  | nil => exact ⟨.inl rfl, fun hc => absurd (Option.some.inj hlast) hc⟩
  | cons d lines =>
    rw [List.getLast?_cons_cons] at hlast
    exact ⟨.inr hlast, fun _ => List.mem_of_getLast? hlast⟩

theorem afterLines_append {lines : List Char} (h : AreLines lines) (rest : List Char) :
    afterLines (lines.count '\n') (lines ++ rest) = rest := by
  induction lines with
  | nil => rfl
  | cons c lines ih =>
    obtain ⟨hlines, hfeed⟩ := h.tail
    by_cases hc : c = '\n'
    · subst hc
      rw [List.count_cons_self]
      exact ih hlines
    · -- the line goes on, and its line feed is among the other characters
      obtain ⟨n, hn⟩ := Nat.exists_eq_succ_of_ne_zero
        (List.count_pos_iff.mpr (hfeed hc)).ne'
      have hskip : ((c :: lines) ++ rest).dropWhile (· != '\n') =
          (lines ++ rest).dropWhile (· != '\n') := by
        rw [List.cons_append, List.dropWhile_cons_of_pos (by simpa using hc)]
      have hrest := ih hlines
      rw [hn] at hrest
      rw [List.count_cons_of_ne hc, hn, afterLines, hskip]
      exact hrest

/-- **A position leads back** to the character that it was taken of. -/
theorem fromPosition_positionAfter (cs : List Char) (i : ℕ) :
    fromPosition cs (positionAfter (cs.take i)) = cs.drop i := by
  obtain ⟨lines, hsplit, hlines, hline⟩ := exists_lines (cs.take i)
  have hcount : (cs.take i).count '\n' = lines.count '\n' := by
    conv_lhs => rw [hsplit]
    rw [List.count_append, List.count_eq_zero.mpr hline, Nat.add_zero]
  have hcs : cs = lines ++ (lineOf (cs.take i) ++ cs.drop i) := by
    rw [← List.append_assoc, ← hsplit, List.take_append_drop]
  have hafter : afterLines (lines.count '\n') cs = lineOf (cs.take i) ++ cs.drop i := by
    conv_lhs => rw [hcs]
    exact afterLines_append hlines _
  rw [fromPosition, positionAfter, hcount, Nat.add_sub_cancel_left, Nat.add_sub_cancel_left, hafter,
    List.drop_left]

/-! ## Nodes -/

/-- The node covers the characters of a text from number `first` on and before number `last`. -/
structure Node.Covers (node : Node) (cs : List Char) (first last : ℕ) : Prop where
  first_le : first ≤ cs.length
  last_le : last ≤ cs.length
  start : node.start = byteOf cs first
  stop : node.stop = byteOf cs last

/-- A source tells where such a node is and what it covers: the line and the column are counted from one,
a search from there on begins at its first character, what is reported at the node is reported there, and
its text is what the text has between the two characters. -/
structure Source.Locates (source : Source) (node : Node) (first last : ℕ) : Prop where
  line : (source.positionOf node).line = 1 + (source.text.toList.take first).count '\n'
  column : (source.positionOf node).column = 1 + (lineOf (source.text.toList.take first)).length
  found : fromPosition source.text.toList (source.positionOf node) = source.text.toList.drop first
  reported : ∀ (rule : Rule) (finding : Rule.Finding), finding.node = node →
    (rule.violation source finding).line = (source.positionOf node).line ∧
      (rule.violation source finding).column = (source.positionOf node).column
  text : source.textOf node = String.ofList ((source.text.toList.take last).drop first)

section OfText

variable (path : String) {text : String} (root : Node) {node : Node} {first last : ℕ}

theorem positionOf_of_covers (h : node.Covers text.toList first last) :
    (Source.ofText path text root).positionOf node = positionAfter (text.toList.take first) := by
  rw [Source.positionOf_eq, h.start]
  exact positionAt_byteOf text.toList first

theorem textOf_of_covers (h : node.Covers text.toList first last) :
    (Source.ofText path text root).textOf node =
      String.ofList ((text.toList.take last).drop first) := by
  have hslice : sliceBytes (Text.encode text) node.start node.stop =
      encodeChars ((text.toList.take last).drop first) := by
    rw [h.start, h.stop]
    exact Text.slice_encodeChars text.toList first last
  rw [Source.textOf, Source.ofText, hslice, Text.decodeLossy_encodeChars]

end OfText

/-- **Nodes are located by characters**, in every text and every tree, and no two nodes that start in
different places have one position. -/
theorem nodes_located (path text : String) (root : Node) :
    let source := Source.ofText path text root
    ∀ node first last, node.Covers text.toList first last →
      source.Locates node first last ∧
        ∀ other first' last', other.Covers text.toList first' last' →
          (source.positionOf other = source.positionOf node ↔ other.start = node.start) := by
  intro source node first last hnode
  have hposition : source.positionOf node = positionAfter (text.toList.take first) :=
    positionOf_of_covers path root hnode
  constructor
  · exact {
      line := by rw [hposition]; rfl
      column := by rw [hposition]; rfl
      found := by rw [hposition]; exact fromPosition_positionAfter text.toList first
      reported := by rintro rule finding rfl; exact ⟨rfl, rfl⟩
      text := textOf_of_covers path root hnode }
  · intro other first' last' hother
    constructor
    · intro hsame
      have hdrop : text.toList.drop first' = text.toList.drop first := by
        rw [← fromPosition_positionAfter, ← fromPosition_positionAfter, ← hposition,
          ← positionOf_of_covers path root hother, hsame]
      have hlength := congrArg List.length hdrop
      rw [List.length_drop, List.length_drop] at hlength
      have hfirst := hother.first_le
      have hfirst' := hnode.first_le
      rw [hother.start, hnode.start, show first' = first by omega]
    · intro hstart
      rw [source.positionOf_eq, source.positionOf_eq, hstart]

/-- A text with characters of one, two, three and four bytes on three lines. -/
def mixedText : String := "let é\n\n  \"€😀\";\n"

/-- The part of this text in quotes, and what follows it. -/
theorem nodes_located_mixedText :
    let literal : Node := .mk "string" 10 19 none true []
    let semicolon : Node := .mk ";" 19 20 none false []
    let root : Node := .mk "program" 0 21 none true [literal, semicolon]
    let source := Source.ofText "a.ts" mixedText root
    literal.Covers mixedText.toList 9 13 ∧ semicolon.Covers mixedText.toList 13 14 ∧
      source.Locates literal 9 13 ∧ source.positionOf literal = ⟨3, 3⟩ ∧
      source.textOf literal = "\"€😀\"" ∧ source.positionOf semicolon ≠ source.positionOf literal := by
  intro literal semicolon root source
  have hliteral : literal.Covers mixedText.toList 9 13 :=
    ⟨by decide +kernel, by decide +kernel, by decide +kernel, by decide +kernel⟩
  have hsemicolon : semicolon.Covers mixedText.toList 13 14 :=
    ⟨by decide +kernel, by decide +kernel, by decide +kernel, by decide +kernel⟩
  obtain ⟨hlocates, hdistinct⟩ := nodes_located "a.ts" mixedText root literal 9 13 hliteral
  refine ⟨hliteral, hsemicolon, hlocates, by decide +kernel, ?_, fun hsame => ?_⟩
  · rw [hlocates.text]
    decide +kernel
  · exact absurd ((hdistinct semicolon 13 14 hsemicolon).mp hsame) (by decide)

end Lintel.Syntax
