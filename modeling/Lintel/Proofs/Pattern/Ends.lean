import Lintel.Pattern.Basic
import Lintel.Proofs.Text.Parts
import Mathlib.Data.List.Basic
import Mathlib.Order.Nat

/-!
# Where matches end

A pattern has a row of spots where its matches end, in the order in which they are tried (`ends`); matching the
pattern and going on is going on from the first of them from which one can (`run_eq`). The spots are described
one constructor at a time. A pattern that takes no slash and must reach the end of a text looks at what follows
the last slash only.

* `ends`: the spots where matches end; **`run_eq`**: they are what is tried;
* `mem_ends_seq`, `mem_ends_either`, `mem_ends_one`, `mem_ends_anchor`, `mem_ends_ahead`, `mem_ends_star`: the
  spots of patterns without groups;
* `takesNoSlash`, `reachesEnd`: patterns without slashes, and patterns that end with their text;
  `no_slash_of_mem_ends`, `atEnd_of_mem_ends`: what their matches take and where they end;
* `ends_append`: a match does not depend on what stands before it;
* **`exists_mem_ends_append`**, **`isFoundIn_append`**: such a pattern matches in a path where it matches in
  its last component.
-/

namespace Lintel.Pattern

open Text (EndsWithSlash)

variable {text : Array Char} {cs front : List Char} {p q : Pattern} {set : CharSet} {s t : Spot}
  {i : ℕ}

/-! ## What is tried -/

/-- The spots after a number of steps. -/
def endsTimes (step : Spot → List Spot) : ℕ → Spot → List Spot
  | 0, s => [s]
  | count + 1, s => (step s).flatMap (endsTimes step count)

/-- The spots after up to a number of steps. -/
def endsUpTo (step : Spot → List Spot) (reluctant : Bool) : ℕ → Option ℕ → Spot → List Spot
  | 0, _, s => [s]
  | count + 1, last, s =>
    if last == some s.place then [s]
    else
      let further := (step s).flatMap (endsUpTo step reluctant count (some s.place))
      if reluctant then s :: further else further ++ [s]

/-- The spots where matches end, in the order in which they are tried. -/
@[simp]
def ends (text : Array Char) : Pattern → Spot → List Spot
  | .empty, s => [s]
  | .one set, s =>
    match text[s.place]? with
    | some c => if set.contains c then [s.moveTo (s.place + 1)] else []
    | none => []
  | .seq p q, s => (ends text p s).flatMap (ends text q)
  | .either p q, s => ends text p s ++ ends text q s
  | .repeated least most reluctant p, s =>
    (endsTimes (ends text p) least s).flatMap
      (endsUpTo (ends text p) reluctant (furtherSteps text.size least most) none)
  | .anchor condition, s => if holds text s.place condition then [s] else []
  | .ahead negated p, s => (look negated (ends text p s).head? s).toList
  | .behind negated width p, s =>
    let found := if width ≤ s.place then (ends text p (s.moveTo (s.place - width))).head? else none
    (look negated found s).toList
  | .capture group p, s => (ends text p (s.mark (2 * group))).map (·.mark (2 * group + 1))
  | .atomic p, s => (ends text p s).head?.toList
  | .same group rule, s =>
    match s.span? group with
    | some (first, last) =>
      if standsAgain text rule first last s.place then [s.moveTo (s.place + (last - first))] else []
    | none => []
  | .ifGroup group yes no, s => if (s.span? group).isSome then ends text yes s else ends text no s

theorem findSome?_flatMap {α β γ : Type} (l : List α) (f : α → List β) (g : β → Option γ) :
    (l.flatMap f).findSome? g = l.findSome? fun a => (f a).findSome? g := by
  induction l with
  | nil => rfl
  | cons a l ih =>
    rw [List.flatMap_cons, List.findSome?_append, ih, List.findSome?_cons]
    cases (f a).findSome? g <;> rfl

theorem findSome?_some {α : Type} (l : List α) : l.findSome? some = l.head? := by
  cases l <;> rfl

theorem findSome?_toList {α β : Type} (o : Option α) (f : α → Option β) :
    o.toList.findSome? f = o.bind f := by
  cases o with
  | none => rfl
  | some a => cases h : f a <;> simp [h]

section Steps

variable {step : Step} {outs : Spot → List Spot}

theorem times_eq (hstep : ∀ s rest, step s rest = (outs s).findSome? rest) (count : ℕ) (s : Spot)
    (rest : Rest) : times step count s rest = (endsTimes outs count s).findSome? rest := by
  induction count generalizing s with
  | zero => simp [times, endsTimes]
  | succ count ih =>
    rw [times, endsTimes, hstep, findSome?_flatMap]
    simp only [ih]

theorem upTo_eq (hstep : ∀ s rest, step s rest = (outs s).findSome? rest) (reluctant : Bool) (count : ℕ)
    (last : Option ℕ) (s : Spot) (rest : Rest) :
    upTo step reluctant count last s rest = (endsUpTo outs reluctant count last s).findSome? rest := by
  induction count generalizing s last with
  | zero => simp [upTo, endsUpTo]
  | succ count ih =>
    rw [upTo, endsUpTo]
    split
    · simp
    · have hfurther : (step s fun t => upTo step reluctant count (some s.place) t rest) =
          ((outs s).flatMap (endsUpTo outs reluctant count (some s.place))).findSome? rest := by
        rw [hstep, findSome?_flatMap]
        simp only [ih]
      simp only [hfurther]
      cases reluctant with
      | true => cases h : rest s <;> simp [h]
      | false => simp [List.findSome?_append]

end Steps

/-- **Matching a pattern and going on** is going on from the first spot where a match ends and this succeeds. -/
theorem run_eq (text : Array Char) (p : Pattern) (s : Spot) (rest : Rest) :
    run text p s rest = (ends text p s).findSome? rest := by
  induction p generalizing s rest with
  | empty => simp [run, ends]
  | one set =>
    rw [run, ends]
    cases text[s.place]? with
    | none => rfl
    | some c => by_cases hc : set.contains c = true <;> simp [hc]
  | seq p q ihp ihq =>
    rw [run, ends, ihp, findSome?_flatMap]
    simp only [ihq]
  | either p q ihp ihq =>
    rw [run, ends, ihp, ihq, List.findSome?_append]
    cases (ends text p s).findSome? rest <;> rfl
  | repeated least most reluctant p ih =>
    rw [run, ends, times_eq ih, findSome?_flatMap]
    simp only [upTo_eq ih]
  | anchor condition =>
    rw [run, ends]
    by_cases h : holds text s.place condition = true <;> simp [h]
  | ahead negated p ih => rw [run, ends, ih, findSome?_some, findSome?_toList]
  | behind negated width p ih =>
    rw [run, ends]
    simp only [ih, findSome?_some, findSome?_toList]
  | capture group p ih => rw [run, ends, ih, List.findSome?_map]; rfl
  | atomic p ih => rw [run, ends, ih, findSome?_some, findSome?_toList]
  | same group rule =>
    rw [run, ends]
    cases s.span? group with
    | none => rfl
    | some span =>
      dsimp only
      split <;> simp
  | ifGroup group yes no ihYes ihNo =>
    rw [run, ends]
    split
    · exact ihYes s rest
    · exact ihNo s rest

theorem isFoundIn_iff {s : String} :
    p.isFoundIn s = true ↔ ∃ i ≤ s.toList.length, ∃ t, t ∈ ends s.toList.toArray p ⟨i, []⟩ := by
  unfold isFoundIn
  simp only [List.any_eq_true, run_eq, findSome?_some, List.isSome_head?, List.mem_range, List.size_toArray,
    Nat.lt_succ_iff, ne_eq, List.eq_nil_iff_forall_not_mem, not_forall, not_not]

/-! ## The spots of patterns without groups -/

theorem mem_ends_empty : t ∈ ends text .empty s ↔ t = s := by
  rw [ends, List.mem_singleton]

theorem mem_ends_one : t ∈ ends text (.one set) s ↔
    t = s.moveTo (s.place + 1) ∧ ∃ c, text[s.place]? = some c ∧ set.contains c = true := by
  rw [ends]
  cases text[s.place]? with
  | none => simp
  | some c => by_cases hc : set.contains c = true <;> simp [hc]

theorem mem_ends_seq : t ∈ ends text (.seq p q) s ↔ ∃ u ∈ ends text p s, t ∈ ends text q u := by
  rw [ends, List.mem_flatMap]

theorem mem_ends_either : t ∈ ends text (.either p q) s ↔ t ∈ ends text p s ∨ t ∈ ends text q s := by
  rw [ends, List.mem_append]

theorem mem_ends_anchor {condition : Anchor} :
    t ∈ ends text (.anchor condition) s ↔ t = s ∧ holds text s.place condition = true := by
  rw [ends]
  by_cases h : holds text s.place condition = true <;> simp [h]

theorem mem_ends_ahead : t ∈ ends text (.ahead true p) s ↔ t = s ∧ ¬ ∃ u, u ∈ ends text p s := by
  rw [ends]
  cases h : ends text p s with
  | nil => simp [look]
  | cons u us =>
    refine iff_of_false (by simp [look]) fun hnone => hnone.2 ⟨u, List.mem_cons_self⟩

/-- The set takes all characters from one place up to another. -/
def TakesAll (text : Array Char) (set : CharSet) (i j : ℕ) : Prop :=
  ∀ m, i ≤ m → m < j → ∃ c, text[m]? = some c ∧ set.contains c = true

theorem TakesAll.le_size {j : ℕ} (h : TakesAll text set i j) (hij : i < j) : j ≤ text.size := by
  obtain ⟨c, hc, -⟩ := h (j - 1) (by omega) (by omega)
  have hlast := (Array.getElem?_eq_some_iff.mp hc).1
  omega

/-- Steps over single characters lead from one place to the next, as long as the set takes them. -/
theorem mem_endsUpTo_one {count : ℕ} (last : Option ℕ) (hlast : ∀ m ∈ last, m < s.place) :
    t ∈ endsUpTo (ends text (.one set)) false count last s ↔
      ∃ j, t = s.moveTo j ∧ s.place ≤ j ∧ j ≤ s.place + count ∧ TakesAll text set s.place j := by
  induction count generalizing s last with
  | zero =>
    rw [endsUpTo, List.mem_singleton]
    constructor
    · rintro rfl
      exact ⟨t.place, rfl, le_rfl, le_rfl, fun m hm hlt => absurd hlt (by omega)⟩
    · rintro ⟨j, rfl, hle, hmost, -⟩
      obtain rfl : j = s.place := by omega
      rfl
  | succ count ih =>
    have hfresh : (last == some s.place) = false := by
      rw [beq_eq_false_iff_ne]
      rintro rfl
      exact (hlast s.place rfl).ne rfl
    have hnext : ∀ m ∈ some s.place, m < (s.moveTo (s.place + 1)).place := by
      rintro m ⟨⟩
      exact Nat.lt_succ_self _
    rw [endsUpTo, hfresh]
    simp only [Bool.false_eq_true, if_false, List.mem_append, List.mem_flatMap, List.mem_singleton,
      mem_ends_one]
    constructor
    · rintro (⟨u, ⟨rfl, c, hc, htaken⟩, ht⟩ | rfl)
      · obtain ⟨j, rfl, hle, hmost, htakes⟩ := (ih (some s.place) hnext).mp ht
        refine ⟨j, rfl, Nat.le_of_succ_le hle, ?_, fun m hm hlt => ?_⟩
        · simp only [Spot.moveTo] at hmost
          omega
        · rcases hm.eq_or_lt with rfl | hm
          · exact ⟨c, hc, htaken⟩
          · exact htakes m hm hlt
      · exact ⟨t.place, rfl, le_rfl, by omega, fun m hm hlt => absurd hlt (by omega)⟩
    · rintro ⟨j, rfl, hle, hmost, htakes⟩
      rcases hle.eq_or_lt with heq | hlt
      · exact .inr (by rw [← heq]; rfl)
      · refine .inl ⟨_, ⟨rfl, htakes s.place le_rfl hlt⟩, ?_⟩
        rw [ih (some s.place) hnext]
        refine ⟨j, rfl, hlt, ?_, fun m hm => htakes m (Nat.le_of_succ_le hm)⟩
        simp only [Spot.moveTo]
        omega

/-- Any number of characters of a set. -/
theorem mem_ends_star : t ∈ ends text (.repeated 0 none false (.one set)) s ↔
    ∃ j, t = s.moveTo j ∧ s.place ≤ j ∧ TakesAll text set s.place j := by
  have hends : ends text (.repeated 0 none false (.one set)) s =
      endsUpTo (ends text (.one set)) false (text.size + 1) none s := by
    rw [ends]
    exact List.flatMap_singleton _ _
  rw [hends, mem_endsUpTo_one none (by simp)]
  constructor
  · rintro ⟨j, rfl, hle, -, htakes⟩
    exact ⟨j, rfl, hle, htakes⟩
  · rintro ⟨j, rfl, hle, htakes⟩
    refine ⟨j, rfl, hle, ?_, htakes⟩
    rcases hle.eq_or_lt with rfl | hlt
    · exact Nat.le_add_right _ _
    · have := htakes.le_size hlt
      omega

/-! ## Patterns of last components -/

/-- The pattern is made of single characters, groups and the end of the text, and takes no slash. -/
def takesNoSlash : Pattern → Bool
  | empty => true
  | one set => !set.contains '/'
  | seq first second => first.takesNoSlash && second.takesNoSlash
  | either first second => first.takesNoSlash && second.takesNoSlash
  | capture _ body => body.takesNoSlash
  | anchor .lastLineEnd => true
  | _ => false

/-- The pattern can only match up to the end of the text, or up to a line feed before the end. -/
def reachesEnd : Pattern → Bool
  | anchor .lastLineEnd => true
  | seq _ second => second.reachesEnd
  | either first second => first.reachesEnd && second.reachesEnd
  | _ => false

/-- A match of a pattern without slashes takes no slash. -/
theorem no_slash_of_mem_ends (hp : p.takesNoSlash = true) (h : t ∈ ends cs.toArray p s) :
    s.place ≤ t.place ∧ ∀ m, s.place ≤ m → m < t.place → cs[m]? ≠ some '/' := by
  induction p generalizing s t with
  | empty =>
    obtain rfl := mem_ends_empty.mp h
    exact ⟨le_rfl, fun m hm hlt => absurd hlt (by omega)⟩
  | one set =>
    obtain ⟨rfl, c, hc, htaken⟩ := mem_ends_one.mp h
    refine ⟨Nat.le_succ s.place, fun m hm hlt hslash => ?_⟩
    obtain rfl : m = s.place := by
      simp only [Spot.moveTo] at hlt
      omega
    rw [List.getElem?_toArray, hslash] at hc
    cases hc
    simp [takesNoSlash, htaken] at hp
  | seq first second ihFirst ihSecond =>
    obtain ⟨hfirst, hsecond⟩ := Bool.and_eq_true_iff.mp hp
    obtain ⟨u, hu, ht⟩ := mem_ends_seq.mp h
    obtain ⟨hsu, hfront⟩ := ihFirst hfirst hu
    obtain ⟨hut, hback⟩ := ihSecond hsecond ht
    refine ⟨hsu.trans hut, fun m hm hlt => ?_⟩
    rcases Nat.lt_or_ge m u.place with hmu | hum
    · exact hfront m hm hmu
    · exact hback m hum hlt
  | either first second ihFirst ihSecond =>
    obtain ⟨hfirst, hsecond⟩ := Bool.and_eq_true_iff.mp hp
    exact (mem_ends_either.mp h).elim (ihFirst hfirst) (ihSecond hsecond)
  | capture group body ih =>
    obtain ⟨u, hu, rfl⟩ := List.mem_map.mp (by rwa [ends] at h)
    have hbody := ih hp hu
    exact hbody
  | anchor condition =>
    obtain ⟨rfl, -⟩ := mem_ends_anchor.mp h
    exact ⟨le_rfl, fun m hm hlt => absurd hlt (by omega)⟩
  | repeated | ahead | behind | atomic | same | ifGroup => cases hp

/-- A match of a pattern that reaches the end ends there. -/
theorem atEnd_of_mem_ends (hp : p.reachesEnd = true) (h : t ∈ ends cs.toArray p s) :
    t.place = cs.length ∨ (t.place + 1 = cs.length ∧ cs[t.place]? = some '\n') := by
  induction p generalizing s t with
  | anchor condition =>
    cases condition with
    | lastLineEnd =>
      obtain ⟨rfl, hholds⟩ := mem_ends_anchor.mp h
      simpa [holds] using hholds
    | _ => cases hp
  | seq first second ihFirst ihSecond =>
    obtain ⟨u, -, ht⟩ := mem_ends_seq.mp h
    exact ihSecond hp ht
  | either first second ihFirst ihSecond =>
    obtain ⟨hfirst, hsecond⟩ := Bool.and_eq_true_iff.mp hp
    exact (mem_ends_either.mp h).elim (ihFirst hfirst) (ihSecond hsecond)
  | empty | one | repeated | ahead | behind | capture | atomic | same | ifGroup => cases hp

/-- The spot in a text with so many more characters in front. -/
def Spot.shift (count : ℕ) (s : Spot) : Spot :=
  ⟨count + s.place, s.marks.map fun mark => (mark.1, count + mark.2)⟩

theorem mark_shift (count key : ℕ) (s : Spot) : (s.shift count).mark key = (s.mark key).shift count := rfl

/-- **A match does not depend on what stands before it.** -/
theorem ends_append (hp : p.takesNoSlash = true) (front : List Char) (s : Spot) :
    ends (front ++ cs).toArray p (s.shift front.length) =
      (ends cs.toArray p s).map (Spot.shift front.length) := by
  have hchar (i : ℕ) : (front ++ cs)[front.length + i]? = cs[i]? := by
    rw [List.getElem?_append_right (Nat.le_add_right _ _), Nat.add_sub_cancel_left]
  induction p generalizing s with
  | empty => rfl
  | one set =>
    simp only [ends, Spot.shift, List.getElem?_toArray, hchar]
    cases cs[s.place]? with
    | none => rfl
    | some c => by_cases hc : set.contains c = true <;> simp [hc, Spot.shift, Spot.moveTo, Nat.add_assoc]
  | seq first second ihFirst ihSecond =>
    obtain ⟨hfirst, hsecond⟩ := Bool.and_eq_true_iff.mp hp
    rw [ends, ends, ihFirst hfirst, List.flatMap_map, List.map_flatMap]
    exact List.flatMap_congr fun u _ => ihSecond hsecond u
  | either first second ihFirst ihSecond =>
    obtain ⟨hfirst, hsecond⟩ := Bool.and_eq_true_iff.mp hp
    rw [ends, ends, ihFirst hfirst, ihSecond hsecond, List.map_append]
  | capture group body ih =>
    rw [ends, ends, mark_shift, ih hp, List.map_map, List.map_map]
    rfl
  | anchor condition =>
    cases condition with
    | lastLineEnd =>
      have hholds : holds (front ++ cs).toArray (s.shift front.length).place .lastLineEnd =
          holds cs.toArray s.place .lastLineEnd := by
        simp only [holds, Spot.shift, List.size_toArray, List.length_append, List.getElem?_toArray, hchar,
          Nat.add_assoc, Nat.add_left_cancel_iff, Bool.beq_eq_decide_eq]
      rw [ends, ends, hholds]
      split <;> rfl
    | _ => cases hp
  | repeated | ahead | behind | atomic | same | ifGroup => cases hp

theorem ends_append_start (hp : p.takesNoSlash = true) (front : List Char) (i : ℕ) :
    ends (front ++ cs).toArray p ⟨front.length + i, []⟩ =
      (ends cs.toArray p ⟨i, []⟩).map (Spot.shift front.length) :=
  ends_append hp front ⟨i, []⟩

/-- **A match that takes no slash and reaches the end lies in the last component.** -/
theorem exists_mem_ends_append (hslash : p.takesNoSlash = true) (hend : p.reachesEnd = true)
    (hfront : EndsWithSlash front) :
    (∃ t, t ∈ ends (front ++ cs).toArray p ⟨i, []⟩) ↔
      ∃ k, i = front.length + k ∧ ∃ t, t ∈ ends cs.toArray p ⟨k, []⟩ := by
  constructor
  · rintro ⟨t, ht⟩
    obtain ⟨-, hnone⟩ := no_slash_of_mem_ends hslash ht
    have hafter : front.length ≤ i := by
      rcases hfront with rfl | ⟨above, rfl⟩
      · exact Nat.zero_le i
      · by_contra hbefore
        -- the slash would be taken
        have hchar : ((above ++ ['/']) ++ cs)[above.length]? = some '/' := by simp
        rw [List.length_append, List.length_singleton] at hbefore
        refine hnone above.length (by simp only; omega) ?_ hchar
        rcases atEnd_of_mem_ends hend ht with hlast | ⟨hlast, hfeed⟩
        · simp only [List.length_append, List.length_singleton] at hlast
          omega
        · by_contra hshort
          simp only [List.length_append, List.length_singleton] at hlast
          have hplace : t.place = above.length := by omega
          rw [hplace, hchar] at hfeed
          cases hfeed
    obtain ⟨k, rfl⟩ := Nat.exists_eq_add_of_le hafter
    rw [ends_append_start hslash] at ht
    obtain ⟨u, hu, -⟩ := List.mem_map.mp ht
    exact ⟨k, rfl, u, hu⟩
  · rintro ⟨k, rfl, t, ht⟩
    refine ⟨t.shift front.length, ?_⟩
    rw [ends_append_start hslash]
    exact List.mem_map_of_mem ht

/-- **A pattern that takes no slash and reaches the end is found in a path** exactly if it is found in its
last component. -/
theorem isFoundIn_append (hslash : p.takesNoSlash = true) (hend : p.reachesEnd = true)
    {dir name : String} (hdir : EndsWithSlash dir.toList) :
    p.isFoundIn (dir ++ name) = p.isFoundIn name := by
  rw [Bool.eq_iff_iff, isFoundIn_iff, isFoundIn_iff, String.toList_append]
  simp only [exists_mem_ends_append hslash hend hdir]
  constructor
  · rintro ⟨i, hi, k, rfl, hends⟩
    rw [List.length_append] at hi
    exact ⟨k, by omega, hends⟩
  · rintro ⟨k, hk, hends⟩
    refine ⟨dir.toList.length + k, ?_, k, rfl, hends⟩
    rw [List.length_append]
    omega

end Lintel.Pattern
