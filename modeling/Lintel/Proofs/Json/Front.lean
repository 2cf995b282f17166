import Lintel.Proofs.Json.Plain

/-!
# Objects at the front of a text

A list or an object ends with its bracket, whatever follows. So does every value in it, since a comma or a
bracket stands after it.

* `Stable`, `stable`: values, items and members are read the same whatever follows, by induction on the
  fuel;
* **`parseFront_append`**: a text that holds an object is read the same at the front of a longer text.
-/

namespace Lintel.Json

variable {cs rest more : List Char} {value : Json}

/-! ## Lists and objects -/

theorem skipBlanks_append (h : skipBlanks cs ≠ []) : skipBlanks (cs ++ more) = skipBlanks cs ++ more := by
  unfold skipBlanks at h ⊢
  rw [List.dropWhile_append, if_neg (by simpa using h)]

theorem endsNumber_of_skipBlanks {sign : Char} {tail : List Char} (h : skipBlanks rest = sign :: tail)
    (hsign : sign = ',' ∨ sign = ']' ∨ sign = '\x7d') : EndsNumber rest := by
  cases rest with
  | nil => cases h
  | cons c rest =>
    refine ⟨c, rest, rfl, ?_⟩
    unfold skipBlanks at h
    by_cases hblank : (c == ' ' || c == '\t' || c == '\n' || c == '\r') = true
    · simp only [Bool.or_eq_true, beq_iff_eq] at hblank
      rcases hblank with ((rfl | rfl) | rfl) | rfl <;> decide
    · rw [List.dropWhile_cons, if_neg hblank] at h
      obtain rfl : c = sign := (List.cons.inj h).1
      rcases hsign with rfl | rfl | rfl <;> decide

section Nothing

variable {fuel : Nat} {found : Json × List Char}

theorem ne_nil_of_readValue (h : readValue fuel cs = .ok found) : cs ≠ [] := by
  rintro rfl
  cases fuel with
  | zero => cases h
  | succ fuel =>
    have hnothing : readValue (fuel + 1) [] = .error (.malformed .value []) := by
      rw [readValue]
      · rfl
      · simp
      · simp
    rw [hnothing] at h
    cases h

theorem ne_nil_of_readItems {done : List Json} (h : readItems fuel done cs = .ok found) : cs ≠ [] := by
  cases fuel with
  | zero => cases h
  | succ fuel =>
    rw [readItems] at h
    obtain ⟨item, hitem, -⟩ := bind_eq_ok.mp h
    exact ne_nil_of_readValue hitem

theorem ne_nil_of_readMembers {done : List (String × Json)} (h : readMembers fuel done cs = .ok found) :
    cs ≠ [] := by
  rintro rfl
  cases fuel with
  | zero => cases h
  | succ fuel => cases h

end Nothing

/-! ## Equations -/

section Equations

variable {fuel : Nat} {members : List (String × Json)} {name : String} {tail left colon after : List Char}

theorem readItems_succ {done : List Json} (hitem : readValue fuel cs = .ok (value, after)) :
    readItems (fuel + 1) done cs =
      match skipBlanks after with
      | ']' :: rest => .ok (.arr (value :: done).reverse, rest)
      | ',' :: rest => readItems fuel (value :: done) (skipBlanks rest)
      | rest => .error (.malformed .comma rest) := by
  rw [readItems, hitem]
  rfl

theorem exists_of_readItems_succ {done : List Json} {found : Json × List Char}
    (hread : readItems (fuel + 1) done cs = .ok found) :
    ∃ item after, readValue fuel cs = .ok (item, after) := by
  rw [readItems] at hread
  obtain ⟨⟨item, after⟩, hitem, -⟩ := bind_eq_ok.mp hread
  exact ⟨item, after, hitem⟩

theorem readMembers_succ (hname : readText ('"' :: tail) (tail.length + 1) [] tail = .ok (name, left))
    (hcolon : skipBlanks left = ':' :: colon)
    (hvalue : readValue fuel (skipBlanks colon) = .ok (value, after)) :
    readMembers (fuel + 1) members ('"' :: tail) =
      match skipBlanks after with
      | '\x7d' :: rest => .ok (.obj (put name value members), rest)
      | ',' :: rest => readMembers fuel (put name value members) (skipBlanks rest)
      | rest => .error (.malformed .comma rest) := by
  rw [readMembers, hname, ok_bind]
  dsimp only
  rw [hcolon]
  change (readValue fuel (skipBlanks colon) >>= _) = _
  rw [hvalue]
  rfl

theorem exists_of_readMembers_succ {found : Json × List Char}
    (hread : readMembers (fuel + 1) members cs = .ok found) : ∃ tail name left colon value after,
      cs = '"' :: tail ∧ readText cs (tail.length + 1) [] tail = .ok (name, left) ∧
        skipBlanks left = ':' :: colon ∧ readValue fuel (skipBlanks colon) = .ok (value, after) := by
  unfold readMembers at hread
  split at hread
  · next tail =>
    obtain ⟨⟨name, left⟩, hname, hrest⟩ := bind_eq_ok.mp hread
    dsimp only at hrest
    split at hrest
    · next colon hcolon =>
      obtain ⟨⟨value, after⟩, hvalue, -⟩ := bind_eq_ok.mp hrest
      exact ⟨tail, name, left, colon, value, after, rfl, hname, hcolon, hvalue⟩
    · cases hrest
  · cases hread

end Equations

/-- What is read with so much fuel is read with more, and the same whatever follows. -/
structure Stable (fuel : Nat) : Prop where
  value : ∀ {fuel' cs rest more found}, fuel ≤ fuel' → EndsNumber rest ∨ cs.head? = some '\x7b' →
    readValue fuel cs = .ok (found, rest) → readValue fuel' (cs ++ more) = .ok (found, rest ++ more)
  items : ∀ {fuel' done cs rest more found}, fuel ≤ fuel' →
    readItems fuel done cs = .ok (found, rest) → readItems fuel' done (cs ++ more) = .ok (found, rest ++ more)
  members : ∀ {fuel' done cs rest more found}, fuel ≤ fuel' →
    readMembers fuel done cs = .ok (found, rest) →
      readMembers fuel' done (cs ++ more) = .ok (found, rest ++ more)

section Step

variable {fuel fuel' : Nat} {found : Json} (h : Stable fuel) (hfuel : fuel ≤ fuel')

include h hfuel

theorem readValue_list {tail : List Char} (hread : readValue (fuel + 1) ('[' :: tail) = .ok (found, rest)) :
    readValue (fuel' + 1) ('[' :: tail ++ more) = .ok (found, rest ++ more) := by
  rw [readValue] at hread
  rw [List.cons_append, readValue]
  cases hblank : skipBlanks tail with
  | nil =>
    rw [hblank] at hread
    exact absurd rfl (ne_nil_of_readItems hread)
  | cons c items =>
    have happend : skipBlanks (tail ++ more) = c :: items ++ more := by
      rw [skipBlanks_append (by simp [hblank]), hblank]
    rw [hblank] at hread
    rw [happend, List.cons_append]
    by_cases hclose : c = ']'
    · subst hclose
      obtain ⟨rfl, rfl⟩ := Prod.mk.inj (Except.ok.inj hread)
      rfl
    · have hitems : readItems fuel [] (c :: items) = .ok (found, rest) := by simpa [hclose] using hread
      have happended : readItems fuel' [] (c :: items ++ more) = .ok (found, rest ++ more) :=
        h.items hfuel hitems
      simpa [hclose] using happended

theorem readValue_object {tail : List Char}
    (hread : readValue (fuel + 1) ('\x7b' :: tail) = .ok (found, rest)) :
    readValue (fuel' + 1) ('\x7b' :: tail ++ more) = .ok (found, rest ++ more) := by
  rw [readValue] at hread
  rw [List.cons_append, readValue]
  cases hblank : skipBlanks tail with
  | nil =>
    rw [hblank] at hread
    exact absurd rfl (ne_nil_of_readMembers hread)
  | cons c members =>
    have happend : skipBlanks (tail ++ more) = c :: members ++ more := by
      rw [skipBlanks_append (by simp [hblank]), hblank]
    rw [hblank] at hread
    rw [happend, List.cons_append]
    by_cases hclose : c = '\x7d'
    · subst hclose
      obtain ⟨rfl, rfl⟩ := Prod.mk.inj (Except.ok.inj hread)
      rfl
    · have hmembers : readMembers fuel [] (c :: members) = .ok (found, rest) := by
        simpa [hclose] using hread
      have happended : readMembers fuel' [] (c :: members ++ more) = .ok (found, rest ++ more) :=
        h.members hfuel hmembers
      simpa [hclose] using happended

theorem readValue_succ_append (hends : EndsNumber rest ∨ cs.head? = some '\x7b')
    (hread : readValue (fuel + 1) cs = .ok (found, rest)) :
    readValue (fuel' + 1) (cs ++ more) = .ok (found, rest ++ more) := by
  cases cs with
  | nil => exact absurd rfl (ne_nil_of_readValue hread)
  | cons c cs =>
    by_cases hlist : c = '['
    · subst hlist
      exact readValue_list h hfuel hread
    · by_cases hobject : c = '\x7b'
      · subst hobject
        exact readValue_object h hfuel hread
      · have hplain : ∀ fuel tail, readValue (fuel + 1) (c :: tail) = readPlain (c :: tail) := by
          intro fuel tail
          rw [readValue]
          · simp [hlist]
          · simp [hobject]
        have hnumber : EndsNumber rest := hends.resolve_right (by simpa using hobject)
        rw [hplain] at hread
        rw [List.cons_append, hplain]
        exact readPlain_append hread hnumber

theorem readItems_succ_append {done : List Json} (hread : readItems (fuel + 1) done cs = .ok (found, rest)) :
    readItems (fuel' + 1) done (cs ++ more) = .ok (found, rest ++ more) := by
  obtain ⟨item, after, hitem⟩ := exists_of_readItems_succ hread
  rw [readItems_succ hitem] at hread
  cases hblank : skipBlanks after with
  | nil =>
    rw [hblank] at hread
    cases hread
  | cons c next =>
    rw [hblank] at hread
    have hsign : c = ',' ∨ c = ']' := by
      by_contra hother
      rw [not_or] at hother
      simp [hother.1, hother.2] at hread
    have hnumber : EndsNumber after := endsNumber_of_skipBlanks hblank (by tauto)
    have hblank' : skipBlanks (after ++ more) = c :: (next ++ more) := by
      rw [skipBlanks_append (by simp [hblank]), hblank, List.cons_append]
    rw [readItems_succ (h.value hfuel (.inl hnumber) hitem), hblank']
    rcases hsign with rfl | rfl
    · have hitems : readItems fuel (item :: done) (skipBlanks next) = .ok (found, rest) := hread
      change readItems fuel' (item :: done) (skipBlanks (next ++ more)) = _
      rw [skipBlanks_append (ne_nil_of_readItems hitems)]
      exact h.items hfuel hitems
    · obtain ⟨rfl, rfl⟩ := Prod.mk.inj (Except.ok.inj hread)
      rfl

theorem readMembers_succ_append {members : List (String × Json)}
    (hread : readMembers (fuel + 1) members cs = .ok (found, rest)) :
    readMembers (fuel' + 1) members (cs ++ more) = .ok (found, rest ++ more) := by
  obtain ⟨tail, name, left, colon, value, after, rfl, hname, hcolon, hvalue⟩ :=
    exists_of_readMembers_succ hread
  rw [readMembers_succ hname hcolon hvalue] at hread
  cases hblank : skipBlanks after with
  | nil =>
    rw [hblank] at hread
    cases hread
  | cons c next =>
    rw [hblank] at hread
    have hsign : c = ',' ∨ c = '\x7d' := by
      by_contra hother
      rw [not_or] at hother
      simp [hother.1, hother.2] at hread
    have hnumber : EndsNumber after := endsNumber_of_skipBlanks hblank (by tauto)
    have hblank' : skipBlanks (after ++ more) = c :: (next ++ more) := by
      rw [skipBlanks_append (by simp [hblank]), hblank, List.cons_append]
    -- the name, the colon and the value stand in the longer text too
    have hname' : readText ('"' :: (tail ++ more)) ((tail ++ more).length + 1) [] (tail ++ more) =
        .ok (name, left ++ more) := readText_append (by simp) hname
    have hcolon' : skipBlanks (left ++ more) = ':' :: (colon ++ more) := by
      rw [skipBlanks_append (by simp [hcolon]), hcolon, List.cons_append]
    have hvalue' : readValue fuel' (skipBlanks (colon ++ more)) = .ok (value, after ++ more) := by
      rw [skipBlanks_append (ne_nil_of_readValue hvalue)]
      exact h.value hfuel (.inl hnumber) hvalue
    rw [List.cons_append, readMembers_succ hname' hcolon' hvalue', hblank']
    rcases hsign with rfl | rfl
    · have hmembers : readMembers fuel (put name value members) (skipBlanks next) = .ok (found, rest) := hread
      change readMembers fuel' (put name value members) (skipBlanks (next ++ more)) = _
      rw [skipBlanks_append (ne_nil_of_readMembers hmembers)]
      exact h.members hfuel hmembers
    · obtain ⟨rfl, rfl⟩ := Prod.mk.inj (Except.ok.inj hread)
      rfl

end Step

theorem stable (fuel : Nat) : Stable fuel := by
  induction fuel with
  | zero =>
    constructor
    · intro _ _ _ _ _ _ _ hread
      simp [readValue] at hread
    · intro _ _ _ _ _ _ _ hread
      simp [readItems] at hread
    · intro _ _ _ _ _ _ _ hread
      simp [readMembers] at hread
  | succ fuel ih =>
    have hsucc : ∀ {fuel'}, fuel + 1 ≤ fuel' → ∃ n, fuel' = n + 1 ∧ fuel ≤ n := fun {fuel'} hle =>
      ⟨fuel' - 1, by omega, by omega⟩
    constructor
    · intro fuel' cs rest more found hfuel hends hread
      obtain ⟨n, rfl, hn⟩ := hsucc hfuel
      exact readValue_succ_append ih hn hends hread
    · intro fuel' done cs rest more found hfuel hread
      obtain ⟨n, rfl, hn⟩ := hsucc hfuel
      exact readItems_succ_append ih hn hread
    · intro fuel' done cs rest more found hfuel hread
      obtain ⟨n, rfl, hn⟩ := hsucc hfuel
      exact readMembers_succ_append ih hn hread

/-! ## Whole texts -/

theorem skipBlanks_of_object (h : cs.head? = some '\x7b') : skipBlanks cs = cs := by
  obtain ⟨tail, rfl⟩ := List.head?_eq_some_iff.mp h
  rfl

theorem exists_of_parse (h : parse cs = .ok value) :
    ∃ rest, read (skipBlanks cs) = .ok (value, rest) ∧ skipBlanks rest = [] := by
  unfold parse at h
  split_ifs at h
  split at h
  · cases h
  · next found rest hread =>
    split at h
    · next hblank =>
      obtain rfl := Except.ok.inj h
      exact ⟨rest, hread, hblank⟩
    · cases h

/-- **An object at the front of a text is read the same whatever follows it.** -/
theorem parseFront_append (h : parse cs = .ok value) (hobject : cs.head? = some '\x7b') (more : List Char) :
    parseFront (cs ++ more) = .ok value := by
  obtain ⟨rest, hread, -⟩ := exists_of_parse h
  rw [skipBlanks_of_object hobject] at hread
  have hfuel : 2 * cs.length + 2 ≤ 2 * (cs ++ more).length + 2 := by
    rw [List.length_append]
    omega
  have happend : read (cs ++ more) = .ok (value, rest ++ more) :=
    (stable (2 * cs.length + 2)).value hfuel (.inr hobject) hread
  rw [parseFront, happend]

end Lintel.Json
