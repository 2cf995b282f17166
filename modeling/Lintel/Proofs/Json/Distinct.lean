import Lintel.Proofs.Json.Front

/-!
# Names in objects

A member with a name that an object already has takes the place of the old one. So no object that is read has
a name twice, and neither has one inside it (`Distinct`).

* `nodup_put`: setting a member keeps the names apart;
* `ReadsDistinct`, `readsDistinct`: what values, items and members are read as, by induction on the fuel;
* **`distinct_of_parse`**: what a text is read as.
-/

namespace Lintel.Json

variable {cs rest : List Char} {value : Json} {name : String} {members : List (String × Json)}

/-- The value is neither a list nor an object. -/
def isPlain : Json → Bool
  | .arr _ | .obj _ => false
  | _ => true

/-- No object in the value has a name twice. -/
inductive Distinct : Json → Prop
  | plain {value : Json} (hplain : value.isPlain = true) : Distinct value
  | arr {items : List Json} (hitems : ∀ item ∈ items, Distinct item) : Distinct (.arr items)
  | obj {members : List (String × Json)} (hnames : (members.map (·.1)).Nodup)
      (hvalues : ∀ member ∈ members, Distinct member.2) : Distinct (.obj members)

theorem distinct_obj_iff : Distinct (.obj members) ↔
    (members.map (·.1)).Nodup ∧ ∀ member ∈ members, Distinct member.2 := by
  constructor
  · intro h
    cases h with
    | plain hplain => cases hplain
    | obj hnames hvalues => exact ⟨hnames, hvalues⟩
  · rintro ⟨hnames, hvalues⟩
    exact .obj hnames hvalues

/-! ## Setting a member -/

theorem mem_put {member : String × Json} (h : member ∈ put name value members) :
    member = (name, value) ∨ member ∈ members := by
  induction members with
  | nil => exact .inl (List.mem_singleton.mp h)
  | cons first members ih =>
    rw [put] at h
    split_ifs at h
    · rcases List.mem_cons.mp h with h | h
      · exact .inl h
      · exact .inr (List.mem_cons_of_mem first h)
    · rcases List.mem_cons.mp h with h | h
      · exact .inr (List.mem_cons.mpr (.inl h))
      · exact (ih h).imp_right (List.mem_cons_of_mem first)

theorem nodup_put (h : (members.map (·.1)).Nodup) : ((put name value members).map (·.1)).Nodup := by
  induction members with
  | nil => exact List.nodup_singleton name
  | cons first members ih =>
    obtain ⟨hfirst, hrest⟩ := List.nodup_cons.mp h
    rw [put]
    by_cases hname : first.1 = name
    · simpa [hname] using List.nodup_cons.mpr ⟨hname ▸ hfirst, hrest⟩
    · have hother : (first.1 == name) = false := beq_eq_false_iff_ne.mpr hname
      rw [hother, if_neg Bool.false_ne_true, List.map_cons, List.nodup_cons]
      refine ⟨fun hmem => ?_, ih hrest⟩
      obtain ⟨member, hmember, heq⟩ := List.mem_map.mp hmem
      rcases mem_put hmember with rfl | hmember
      · exact hname heq.symm
      · exact hfirst (List.mem_map.mpr ⟨member, hmember, heq⟩)

theorem distinct_put (h : Distinct (.obj members)) (hvalue : Distinct value) :
    Distinct (.obj (put name value members)) := by
  obtain ⟨hnames, hvalues⟩ := distinct_obj_iff.mp h
  refine .obj (nodup_put hnames) fun member hmember => ?_
  rcases mem_put hmember with rfl | hmember
  · exact hvalue
  · exact hvalues member hmember

/-! ## What is read -/

theorem distinct_of_readNumber {start : List Char} {negative : Bool}
    (h : readNumber start negative cs = .ok (value, rest)) : Distinct value := by
  rw [readNumber_eq] at h
  dsimp only at h
  split_ifs at h
  unfold numberFrom at h
  split at h
  · split_ifs at h
    all_goals
      obtain ⟨rfl, -⟩ := Prod.mk.inj (Except.ok.inj h)
      exact .plain rfl
  · obtain ⟨rfl, -⟩ := Prod.mk.inj (Except.ok.inj h)
    exact .plain rfl

theorem distinct_of_readPlain (h : readPlain cs = .ok (value, rest)) : Distinct value := by
  unfold readPlain at h
  split at h
  · next found hword =>
    obtain rfl := Except.ok.inj h
    obtain ⟨word, hword, -⟩ := readWord?_eq_some_iff.mp hword
    have hwords : ∀ word ∈ words, word.2.isPlain = true := by decide
    exact .plain (hwords _ hword)
  · split at h
    · obtain ⟨⟨s, left⟩, -, hvalue⟩ := map_eq_ok.mp h
      obtain ⟨rfl, -⟩ := Prod.mk.inj hvalue
      exact .plain rfl
    · exact distinct_of_readNumber h
    · exact distinct_of_readNumber h

/-- What is read with so much fuel has no name twice, if what was read before has none. -/
structure ReadsDistinct (fuel : Nat) : Prop where
  value : ∀ {cs rest found}, readValue fuel cs = .ok (found, rest) → Distinct found
  items : ∀ {done cs rest found}, (∀ item ∈ done, Distinct item) →
    readItems fuel done cs = .ok (found, rest) → Distinct found
  members : ∀ {done cs rest found}, Distinct (.obj done) →
    readMembers fuel done cs = .ok (found, rest) → Distinct found

section Step

variable {fuel : Nat} {found : Json} (h : ReadsDistinct fuel)

include h

theorem distinct_of_readValue_succ (hread : readValue (fuel + 1) cs = .ok (found, rest)) :
    Distinct found := by
  unfold readValue at hread
  split at hread
  · split at hread
    · obtain ⟨rfl, -⟩ := Prod.mk.inj (Except.ok.inj hread)
      exact .arr fun _ hitem => absurd hitem List.not_mem_nil
    · exact h.items (fun _ hitem => absurd hitem List.not_mem_nil) hread
  · have hempty : Distinct (.obj []) := .obj List.nodup_nil fun _ hmember => absurd hmember List.not_mem_nil
    split at hread
    · obtain ⟨rfl, -⟩ := Prod.mk.inj (Except.ok.inj hread)
      exact hempty
    · exact h.members hempty hread
  · exact distinct_of_readPlain hread

theorem distinct_of_readItems_succ {done : List Json} (hdone : ∀ item ∈ done, Distinct item)
    (hread : readItems (fuel + 1) done cs = .ok (found, rest)) : Distinct found := by
  obtain ⟨item, after, hitem⟩ := exists_of_readItems_succ hread
  have hall : ∀ other ∈ item :: done, Distinct other :=
    List.forall_mem_cons.mpr ⟨h.value hitem, hdone⟩
  rw [readItems_succ hitem] at hread
  split at hread
  · obtain ⟨rfl, -⟩ := Prod.mk.inj (Except.ok.inj hread)
    exact .arr fun other hother => hall other (List.mem_reverse.mp hother)
  · exact h.items hall hread
  · cases hread

theorem distinct_of_readMembers_succ {done : List (String × Json)} (hdone : Distinct (.obj done))
    (hread : readMembers (fuel + 1) done cs = .ok (found, rest)) : Distinct found := by
  obtain ⟨tail, name, left, colon, value, after, rfl, hname, hcolon, hvalue⟩ :=
    exists_of_readMembers_succ hread
  have hput : Distinct (.obj (put name value done)) := distinct_put hdone (h.value hvalue)
  rw [readMembers_succ hname hcolon hvalue] at hread
  split at hread
  · obtain ⟨rfl, -⟩ := Prod.mk.inj (Except.ok.inj hread)
    exact hput
  · exact h.members hput hread
  · cases hread

end Step

theorem readsDistinct (fuel : Nat) : ReadsDistinct fuel := by
  induction fuel with
  | zero =>
    constructor
    · intro _ _ _ hread
      simp [readValue] at hread
    · intro _ _ _ _ _ hread
      simp [readItems] at hread
    · intro _ _ _ _ _ hread
      simp [readMembers] at hread
  | succ fuel ih =>
    exact ⟨distinct_of_readValue_succ ih, distinct_of_readItems_succ ih, distinct_of_readMembers_succ ih⟩

/-- **No object in what a text is read as has a name twice.** -/
theorem distinct_of_parse (h : parse cs = .ok value) : Distinct value := by
  obtain ⟨rest, hread, -⟩ := exists_of_parse h
  exact (readsDistinct _).value hread

end Lintel.Json
