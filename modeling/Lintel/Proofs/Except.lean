import Mathlib.Data.List.Forall2
import Mathlib.Data.List.ReduceOption

/-!
# Computations that may fail

* `Ends`: the computation has a value; `ends_bind`, `ends_mapM`: so have its parts;
* `FailsOnlyWith`: if the computation fails, its error has some property; `failsOnlyWith_bind`,
  `FailsOnlyWith.mapM`: so have the errors of its parts;
* `mapM_eq_error`, `mapM_eq_error_of_pairwise`, `mapM_eq_error_iff_first`: a list of computations fails with
  the first error;
* `mapM_groups`, `mem_reduceOption_of_mapM`, `sublist_reduceOption_of_mapM`: lists of computations that may
  also yield nothing.
-/

namespace Lintel

variable {ε α β : Type}

theorem ok_bind (a : α) (f : α → Except ε β) : (Except.ok a >>= f) = f a := rfl

theorem error_bind (e : ε) (f : α → Except ε β) : (Except.error e >>= f) = .error e := rfl

theorem pure_eq_ok (a : α) : (pure a : Except ε α) = .ok a := rfl

theorem bind_eq_ok {x : Except ε α} {f : α → Except ε β} {b : β} :
    x >>= f = .ok b ↔ ∃ a, x = .ok a ∧ f a = .ok b := by
  cases x with
  | error e => simp [error_bind]
  | ok a => simp [ok_bind]

theorem map_eq_ok {x : Except ε α} {g : α → β} {b : β} :
    x.map g = .ok b ↔ ∃ a, x = .ok a ∧ g a = b := by
  cases x <;> simp [Except.map]

theorem map_eq_error {x : Except ε α} {g : α → β} {e : ε} : x.map g = .error e ↔ x = .error e := by
  cases x <;> simp [Except.map]

theorem toOption_eq_some {x : Except ε α} {a : α} : x.toOption = some a ↔ x = .ok a := by
  cases x <;> simp [Except.toOption]

theorem map_eq_bind (x : Except ε α) (g : α → β) : x.map g = x >>= fun a => .ok (g a) := by
  cases x <;> rfl

theorem mapM_eq_ok {f : α → Except ε β} {as : List α} {bs : List β} :
    as.mapM f = .ok bs ↔ List.Forall₂ (fun a b => f a = .ok b) as bs := by
  induction as generalizing bs with
  | nil => simp [pure_eq_ok, eq_comm]
  | cons a as ih =>
    rw [List.mapM_cons, bind_eq_ok, List.forall₂_cons_left_iff]
    constructor
    · rintro ⟨b, hb, hrest⟩
      obtain ⟨rest, hrest, heq⟩ := bind_eq_ok.mp hrest
      exact ⟨b, rest, hb, ih.mp hrest, (Except.ok.inj heq).symm⟩
    · rintro ⟨b, rest, hb, hrest, rfl⟩
      exact ⟨b, hb, bind_eq_ok.mpr ⟨rest, ih.mpr hrest, rfl⟩⟩

theorem exists_of_mapM_eq_ok {f : α → Except ε β} {as : List α} {bs : List β} {b : β}
    (h : as.mapM f = .ok bs) (hb : b ∈ bs) : ∃ a ∈ as, f a = .ok b := by
  rw [mapM_eq_ok] at h
  induction h with
  | nil => exact absurd hb List.not_mem_nil
  | @cons a _ as _ hab _ ih =>
    rcases List.mem_cons.mp hb with rfl | hb
    · exact ⟨a, List.mem_cons_self, hab⟩
    · obtain ⟨other, hother, heq⟩ := ih hb
      exact ⟨other, List.mem_cons_of_mem a hother, heq⟩

theorem mem_of_mapM_eq_ok {f : α → Except ε β} {as : List α} {bs : List β} {b : β}
    (h : as.mapM f = .ok bs) : b ∈ bs ↔ ∃ a ∈ as, f a = .ok b := by
  refine ⟨exists_of_mapM_eq_ok h, ?_⟩
  rintro ⟨a, ha, hab⟩
  rw [mapM_eq_ok] at h
  induction h with
  | nil => exact absurd ha List.not_mem_nil
  | @cons other c _ _ hother _ ih =>
    rcases List.mem_cons.mp ha with rfl | ha
    · exact Except.ok.inj (hab.symm.trans hother) ▸ List.mem_cons_self
    · exact List.mem_cons_of_mem c (ih ha)

theorem forall₂_flatten {γ : Type} {f : α → Except ε (List β)} {as : List α} {bss : List (List β)}
    {parts : α → List γ} {R : β → γ → Prop} (h : as.mapM f = .ok bss)
    (hf : ∀ a bs, f a = .ok bs → List.Forall₂ R bs (parts a)) :
    List.Forall₂ R bss.flatten (as.flatMap parts) := by
  rw [mapM_eq_ok] at h
  induction h with
  | nil => exact .nil
  | cons hab _ ih =>
    rw [List.flatten_cons, List.flatMap_cons]
    exact List.rel_append (hf _ _ hab) ih

theorem forall_mem_of_forall₂ {R : α → β → Prop} {P : α → Prop} {Q : β → Prop} {as : List α}
    {bs : List β} (h : List.Forall₂ R as bs) (hbs : ∀ b ∈ bs, Q b) (hR : ∀ a b, R a b → Q b → P a) :
    ∀ a ∈ as, P a := by
  induction h with
  | nil => exact fun _ ha => absurd ha List.not_mem_nil
  | cons hab _ ih =>
    obtain ⟨hb, hbs⟩ := List.forall_mem_cons.mp hbs
    exact List.forall_mem_cons.mpr ⟨hR _ _ hab hb, ih hbs⟩

/-! ## Computations that end -/

/-- The computation has a value. -/
def Ends (x : Except ε α) : Prop := ∃ a, x = .ok a

theorem exists_eq_ok_iff {x : Except ε α} : (∃ a, x = .ok a) ↔ Ends x := Iff.rfl

theorem ends_ok (a : α) : Ends (.ok a : Except ε α) := ⟨a, rfl⟩

theorem not_ends_error (e : ε) : ¬ Ends (.error e : Except ε α) := fun ⟨_, h⟩ => by cases h

theorem ends_iff_toBool {x : Except ε α} : Ends x ↔ x.toBool = true := by
  cases x with
  | error e => exact iff_of_false (not_ends_error e) (by simp [Except.toBool])
  | ok a => exact iff_of_true (ends_ok a) rfl

theorem ends_iff_forall_ne {x : Except ε α} : Ends x ↔ ∀ e, x ≠ .error e := by
  cases x with
  | error e => simp [not_ends_error]
  | ok a => simp [ends_ok]

theorem ends_bind {x : Except ε α} {f : α → Except ε β} :
    Ends (x >>= f) ↔ ∃ a, x = .ok a ∧ Ends (f a) := by
  cases x with
  | error e => simp [error_bind, not_ends_error]
  | ok a => simp [ok_bind]

theorem ends_map {x : Except ε α} {g : α → β} : Ends (x.map g) ↔ Ends x := by
  cases x with
  | error e => simp [Except.map, not_ends_error]
  | ok a => simp [Except.map, ends_ok]

theorem ends_mapM {f : α → Except ε β} {as : List α} :
    Ends (as.mapM f) ↔ ∀ a ∈ as, Ends (f a) := by
  induction as with
  | nil => simp [pure_eq_ok, ends_ok]
  | cons a as ih =>
    rw [List.mapM_cons, ends_bind, List.forall_mem_cons, ← ih]
    constructor
    · rintro ⟨b, hb, hrest⟩
      obtain ⟨rest, hrest, _⟩ := ends_bind.mp hrest
      exact ⟨⟨b, hb⟩, rest, hrest⟩
    · rintro ⟨⟨b, hb⟩, rest, hrest⟩
      exact ⟨b, hb, ends_bind.mpr ⟨rest, hrest, ends_ok _⟩⟩

/-- **A list of computations fails with the first error.** -/
theorem mapM_eq_error {f : α → Except ε β} {as : List α} {e : ε} :
    as.mapM f = .error e ↔ ∃ before a after, as = before ++ a :: after ∧
      (∀ b ∈ before, Ends (f b)) ∧ f a = .error e := by
  induction as with
  | nil => simp [pure_eq_ok]
  | cons a as ih =>
    rw [List.mapM_cons]
    cases ha : f a with
    | error found =>
      rw [error_bind, Except.error.injEq]
      constructor
      · rintro rfl
        exact ⟨[], a, as, rfl, fun _ hb => absurd hb List.not_mem_nil, ha⟩
      · rintro ⟨_ | ⟨b, before⟩, c, after, heq, hbefore, hc⟩
        · obtain ⟨rfl, -⟩ := List.cons.inj heq
          exact Except.error.inj (ha.symm.trans hc)
        · obtain ⟨rfl, -⟩ := List.cons.inj heq
          exact absurd (hbefore a List.mem_cons_self) (ha ▸ not_ends_error found)
    | ok b =>
      have hrest : ((do let bs ← as.mapM f; pure (b :: bs)) : Except ε (List β)) = .error e ↔
          as.mapM f = .error e := by
        cases as.mapM f <;> simp [error_bind, ok_bind, pure_eq_ok]
      rw [ok_bind, hrest, ih]
      constructor
      · rintro ⟨before, c, after, rfl, hbefore, hc⟩
        exact ⟨a :: before, c, after, rfl, List.forall_mem_cons.mpr ⟨⟨b, ha⟩, hbefore⟩, hc⟩
      · rintro ⟨_ | ⟨d, before⟩, c, after, heq, hbefore, hc⟩
        · obtain ⟨rfl, -⟩ := List.cons.inj heq
          rw [ha] at hc
          cases hc
        · obtain ⟨rfl, rfl⟩ := List.cons.inj heq
          exact ⟨before, c, after, rfl, (List.forall_mem_cons.mp hbefore).2, hc⟩

/-- **Along a list in order, a computation fails with its first error.** -/
theorem mapM_eq_error_of_pairwise {r : α → α → Prop} {f : α → Except ε β} {as : List α} {e : ε}
    (hr : ∀ a b, r a b → ¬ r b a) (h : as.Pairwise r) :
    as.mapM f = .error e ↔ ∃ a ∈ as, f a = .error e ∧ ∀ b ∈ as, r b a → Ends (f b) := by
  rw [mapM_eq_error]
  constructor
  · rintro ⟨before, a, after, rfl, hbefore, ha⟩
    refine ⟨a, by simp, ha, fun b hb hlt => ?_⟩
    have hlater := (List.pairwise_cons.mp (List.pairwise_append.mp h).2.1).1
    rcases List.mem_append.mp hb with hb | hb
    · exact hbefore b hb
    · rcases List.mem_cons.mp hb with rfl | hb
      · exact absurd hlt (hr b b hlt)
      · exact absurd hlt (hr a b (hlater b hb))
  · rintro ⟨a, ha, hfault, hfirst⟩
    obtain ⟨before, after, rfl⟩ := List.append_of_mem ha
    refine ⟨before, a, after, rfl, fun b hb => ?_, hfault⟩
    have hlt := (List.pairwise_append.mp h).2.2 b hb a List.mem_cons_self
    exact hfirst b (List.mem_append_left _ hb) hlt

/-- The same with a relation that says which computations of the list fail. -/
theorem mapM_eq_error_iff_first {r : α → α → Prop} {f : α → Except ε β} {as : List α} {e : ε}
    {breaks : α → ε → Prop} (hr : ∀ a b, r a b → ¬ r b a) (h : as.Pairwise r)
    (hbreaks : ∀ a e, breaks a e ↔ a ∈ as ∧ f a = .error e) :
    as.mapM f = .error e ↔ ∃ a, breaks a e ∧ ∀ b, r b a → ∀ other, ¬ breaks b other := by
  rw [mapM_eq_error_of_pairwise hr h]
  constructor
  · rintro ⟨a, hmem, hfault, hfirst⟩
    refine ⟨a, (hbreaks a e).mpr ⟨hmem, hfault⟩, fun b hlt other hother => ?_⟩
    obtain ⟨hmem', hfault'⟩ := (hbreaks b other).mp hother
    exact not_ends_error other (hfault' ▸ hfirst b hmem' hlt)
  · rintro ⟨a, ha, hfirst⟩
    obtain ⟨hmem, hfault⟩ := (hbreaks a e).mp ha
    refine ⟨a, hmem, hfault, fun b hmem' hlt => ?_⟩
    cases hb : f b with
    | ok c => exact ends_ok c
    | error other => exact absurd ((hbreaks b other).mpr ⟨hmem', hb⟩) (hfirst b hlt other)

/-! ## Computations that may yield nothing -/

section Options

variable {γ : Type} {f : α → Except ε (Option β)} {as : List α} {found : List (Option β)}

/-- Groups of such computations, one group after another, are all of them in one row. -/
theorem mapM_groups {group : γ → Except ε (List β)} {parts : γ → List α} {names : List γ}
    (h : ∀ name ∈ names, group name = ((parts name).mapM f).map List.reduceOption) :
    (names.mapM group).map List.flatten =
      ((names.flatMap parts).mapM f).map List.reduceOption := by
  induction names with
  | nil => rfl
  | cons name names ih =>
    obtain ⟨hname, hnames⟩ := List.forall_mem_cons.mp h
    have hrest := ih hnames
    rw [List.mapM_cons, List.flatMap_cons, List.mapM_append, hname]
    cases (parts name).mapM f with
    | error e => rfl
    | ok first =>
      cases hgroups : names.mapM group <;> cases hparts : (names.flatMap parts).mapM f <;>
        simp_all [Except.map, ok_bind, error_bind, pure_eq_ok, List.reduceOption_append]

theorem mem_reduceOption_of_mapM {b : β} (h : as.mapM f = .ok found) :
    b ∈ found.reduceOption ↔ ∃ a ∈ as, f a = .ok (some b) := by
  rw [List.reduceOption_mem_iff, mem_of_mapM_eq_ok h]

/-- What is found stands in the order of what it was found at. -/
theorem sublist_reduceOption_of_mapM {key : β → α} (h : as.mapM f = .ok found)
    (hkey : ∀ a ∈ as, ∀ b, f a = .ok (some b) → key b = a) :
    (found.reduceOption.map key).Sublist as := by
  rw [mapM_eq_ok] at h
  induction h with
  | nil => exact List.Sublist.slnil
  | @cons a option as _ ha _ ih =>
    obtain ⟨hkey_a, hkey⟩ := List.forall_mem_cons.mp hkey
    cases option with
    | none =>
      rw [List.reduceOption_cons_of_none]
      exact (ih hkey).cons a
    | some b =>
      rw [List.reduceOption_cons_of_some, List.map_cons, hkey_a b ha]
      exact (ih hkey).cons_cons a

end Options

/-! ## Computations that fail -/

/-- If the computation fails, its error has the property. -/
def FailsOnlyWith (P : ε → Prop) (x : Except ε α) : Prop := ∀ e, x = .error e → P e

section Fails

variable {P : ε → Prop}

theorem failsOnlyWith_ok (a : α) : FailsOnlyWith P (.ok a : Except ε α) := fun _ h => by cases h

theorem failsOnlyWith_error {e : ε} : FailsOnlyWith P (.error e : Except ε α) ↔ P e :=
  ⟨fun h => h e rfl, fun h _ he => Except.error.inj he ▸ h⟩

theorem FailsOnlyWith.imp {Q : ε → Prop} {x : Except ε α} (h : FailsOnlyWith P x)
    (hPQ : ∀ e, P e → Q e) : FailsOnlyWith Q x :=
  fun e he => hPQ e (h e he)

theorem failsOnlyWith_bind {x : Except ε α} {f : α → Except ε β} :
    FailsOnlyWith P (x >>= f) ↔ FailsOnlyWith P x ∧ ∀ a, x = .ok a → FailsOnlyWith P (f a) := by
  cases x with
  | error e => simp [error_bind, failsOnlyWith_error]
  | ok a => simp [ok_bind, failsOnlyWith_ok]

theorem failsOnlyWith_map {x : Except ε α} {g : α → β} :
    FailsOnlyWith P (x.map g) ↔ FailsOnlyWith P x := by
  cases x with
  | error e => simp [Except.map, failsOnlyWith_error]
  | ok a => simp [Except.map, failsOnlyWith_ok]

theorem FailsOnlyWith.bind {x : Except ε α} {f : α → Except ε β} (hx : FailsOnlyWith P x)
    (hf : ∀ a, FailsOnlyWith P (f a)) : FailsOnlyWith P (x >>= f) :=
  failsOnlyWith_bind.mpr ⟨hx, fun a _ => hf a⟩

theorem FailsOnlyWith.mapM {f : α → Except ε β} {as : List α}
    (h : ∀ a ∈ as, FailsOnlyWith P (f a)) : FailsOnlyWith P (as.mapM f) := by
  induction as with
  | nil => exact failsOnlyWith_ok []
  | cons a as ih =>
    obtain ⟨ha, has⟩ := List.forall_mem_cons.mp h
    rw [List.mapM_cons]
    exact ha.bind fun b => (ih has).bind fun bs => failsOnlyWith_ok _

theorem FailsOnlyWith.iff_ends {x : Except ε α} (h : FailsOnlyWith (fun e => ¬ P e) x) :
    FailsOnlyWith P x ↔ Ends x := by
  cases x with
  | error e =>
    simpa [failsOnlyWith_error, not_ends_error] using h e rfl
  | ok a => simp [failsOnlyWith_ok, ends_ok]

theorem failsOnlyWith_mapM_iff {f : α → Except ε β} {p : α → Bool} {as : List α}
    (hplain : ∀ a, p a = true → FailsOnlyWith (fun e => ¬ P e) (f a))
    (hfails : ∀ a, p a = false → ∃ e, f a = .error e ∧ P e) :
    FailsOnlyWith P (as.mapM f) ↔ ∀ a ∈ as.takeWhile p, Ends (f a) := by
  induction as with
  | nil => simp [pure_eq_ok, failsOnlyWith_ok]
  | cons a as ih =>
    rw [List.mapM_cons, failsOnlyWith_bind, List.takeWhile_cons]
    cases hp : p a with
    | false =>
      obtain ⟨e, he, hPe⟩ := hfails a hp
      simp [he, failsOnlyWith_error, hPe]
    | true =>
      rw [if_pos rfl, List.forall_mem_cons, (hplain a hp).iff_ends, ← ih]
      refine and_congr_right fun ⟨b, hb⟩ => ?_
      simp [hb, failsOnlyWith_bind, pure_eq_ok, failsOnlyWith_ok]

end Fails

end Lintel
