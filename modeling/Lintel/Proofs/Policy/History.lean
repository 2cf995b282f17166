import Lintel.Proofs.Files.Entries
import Lintel.Policy.Loader
import Mathlib.Data.List.Induction

/-!
# Loading while the rules change

A store answers for a key, a workspace or all of them, while files below its root are written and removed
and compiled forms of them come and go (`Event`). What it has once answered it keeps.

A compiled form stands for a later text of its file if both have the same size and were written in the same
second. Then what was loaded for one key may show in the first answer for another, unless files with one
stamp can be told apart (`ToldApart`).

* `RuleStore.kept`, `RuleStore.computed`: the two sources of an answer; `RuleStore.answer_eq`: the first
  goes before the second; `RuleStore.kept_after_self`, `RuleStore.kept_after_of_ne`: what a load keeps;
* `moduleAt_leave`: the compiled forms that a load leaves change no module as long as the files stay;
* `Scene.kept_step`, `Scene.kept_run`: what is kept stays, event by event;
* `Scene.Recorded.step`, `Scene.Recorded.run`: all that stands and all that is kept was written or compiled;
  `Scene.Recorded.moduleAt_eq`: then no compiled form shows, if files are told apart;
* `Scene.SameFor.run`: what is the same for a key stays so;
* **`Scene.answers_kept`**: the answers of a store over any course of events.
-/

namespace Lintel.Policy

open Files (Path Place View)

/-! ## One load -/

namespace RuleStore

variable {store : RuleStore} {view : View} {bytecode more : Bytecode} {root : Path}
  {key other : Option String} {rules : LoadedRules}

/-- What the store keeps for a key. -/
def kept (store : RuleStore) (key : Option String) : Option LoadedRules :=
  (store.loaded.find? (·.1 == key)).map (·.2)

/-- What the files give for a key. -/
def computed (view : View) (bytecode : Bytecode) (root : Path) (key : Option String) :
    Except Fault LoadedRules := do
  let files ← ruleFiles view root key
  loadFiles (moduleAt view bytecode) [] files

/-- What a load gives. -/
def answer (store : RuleStore) (view : View) (bytecode : Bytecode) (key : Option String) :
    Except Fault LoadedRules :=
  (store.load view key bytecode).map (·.1)

/-- The store after a load; a load that fails leaves it as it was. -/
def after (store : RuleStore) (view : View) (bytecode : Bytecode) (key : Option String) : RuleStore :=
  ((store.load view key bytecode).toOption.map (·.2)).getD store

theorem computed_congr (h : moduleAt view bytecode = moduleAt view more) :
    computed view bytecode root key = computed view more root key := by
  unfold computed
  rw [h]

theorem load_of_kept (h : store.kept key = some rules) :
    store.load view key bytecode = .ok (rules, store) := by
  obtain ⟨⟨found, other⟩, hfind, rfl⟩ := Option.map_eq_some_iff.mp h
  unfold load
  rw [hfind]

theorem load_of_not_kept (h : store.kept key = none) :
    store.load view key bytecode = (computed view bytecode store.root key).map fun rules =>
      (rules, { store with loaded := (key, rules) :: store.loaded }) := by
  unfold load computed
  rw [Option.map_eq_none_iff.mp h, map_eq_bind]
  cases ruleFiles view store.root key <;> rfl

/-- **What is kept goes before what the files give.** -/
theorem answer_eq (store : RuleStore) (view : View) (bytecode : Bytecode) (key : Option String) :
    store.answer view bytecode key =
      (store.kept key).elim (computed view bytecode store.root key) .ok := by
  unfold answer
  cases h : store.kept key with
  | some rules => rw [load_of_kept h]; rfl
  | none =>
    rw [load_of_not_kept h]
    cases computed view bytecode store.root key <;> rfl

theorem after_of_kept (h : store.kept key = some rules) : store.after view bytecode key = store := by
  unfold after
  rw [load_of_kept h]
  rfl

@[simp]
theorem root_after (store : RuleStore) (view : View) (bytecode : Bytecode) (key : Option String) :
    (store.after view bytecode key).root = store.root := by
  cases h : store.kept key with
  | some rules => rw [after_of_kept h]
  | none =>
    unfold after
    rw [load_of_not_kept h]
    cases computed view bytecode store.root key <;> rfl

/-- After a load, its answer is kept. -/
theorem kept_after_self (store : RuleStore) (view : View) (bytecode : Bytecode) (key : Option String) :
    (store.after view bytecode key).kept key = (store.answer view bytecode key).toOption := by
  rw [answer_eq]
  cases h : store.kept key with
  | some rules => rw [after_of_kept h, h]; rfl
  | none =>
    unfold after
    rw [load_of_not_kept h]
    cases computed view bytecode store.root key with
    | error fault => exact h
    | ok rules => simp [Except.map, Except.toOption, kept]

/-- A load keeps nothing for another key. -/
theorem kept_after_of_ne (hne : other ≠ key) :
    (store.after view bytecode other).kept key = store.kept key := by
  cases h : store.kept other with
  | some rules => rw [after_of_kept h]
  | none =>
    unfold after
    rw [load_of_not_kept h]
    cases computed view bytecode store.root other with
    | error fault => rfl
    | ok rules => simp [Except.map, Except.toOption, kept, hne]

end RuleStore

/-! ## Compiled forms -/

namespace Bytecode

/-- The compiled form of a file that a load leaves. -/
def compiled? (bytecode : Bytecode) (view : View) (place : Place) : Option Compiled :=
  match view.files.entry? place with
  | some (.file content rules) =>
    some ⟨bytecode.stamp place content, bytecode.moduleIn place content rules⟩
  | _ => none

/-- The compiled forms after a load that leaves those of some files. -/
def leave (bytecode : Bytecode) (view : View) (leaves : Place → Bool) : Bytecode where
  written := bytecode.written
  kept place :=
    if leaves place then (bytecode.compiled? view place).or (bytecode.kept place)
    else bytecode.kept place

/-- The compiled forms of which the test does not hold. -/
def without (bytecode : Bytecode) (drops : Place → Bool) : Bytecode where
  written := bytecode.written
  kept place := if drops place then none else bytecode.kept place

/-- A file is written in a second. -/
def write (bytecode : Bytecode) (place : Place) (second : UInt32) : Bytecode where
  written := Function.update bytecode.written place second
  kept := bytecode.kept

/-- A compiled form is put beside its file. -/
def keep (bytecode : Bytecode) (place : Place) (code : Compiled) : Bytecode where
  written := bytecode.written
  kept := Function.update bytecode.kept place (some code)

end Bytecode

variable {view : View} {bytecode : Bytecode}

/-- **The compiled forms that a load leaves change no module.** -/
theorem moduleAt_leave (view : View) (bytecode : Bytecode) (leaves : Place → Bool) :
    moduleAt view (bytecode.leave view leaves) = moduleAt view bytecode := by
  funext path
  unfold moduleAt
  cases hpath : view.locate path with
  | error refusal => rfl
  | ok found =>
    obtain ⟨place, _ | ⟨content, rules⟩⟩ := found
    · rfl
    · have hentry : view.files.entry? place = some (.file content rules) :=
        Files.entry?_of_locateFrom hpath
      have hstamp : (bytecode.leave view leaves).stamp place content = bytecode.stamp place content := rfl
      have hkept : (bytecode.leave view leaves).kept place =
          if leaves place then
            some ⟨bytecode.stamp place content, bytecode.moduleIn place content rules⟩
          else bytecode.kept place := by
        simp [Bytecode.leave, Bytecode.compiled?, hentry]
      dsimp only
      conv_lhs => rw [Bytecode.moduleIn, hkept, hstamp]
      cases leaves place with
      | false => rfl
      | true => simp

/-! ## Events -/

/-- Where the compiled form of a file is kept. -/
def codePlace (place : Place) : Place :=
  place.dropLast ++ ["__pycache__", ruleStem (place.getLast?.getD "") ++ ".cpython-311.pyc"]

/-- What may happen: a load, which leaves the compiled forms of some files, or a change of the files or of
what is kept beside them. -/
inductive Event where
  | load (key : Option String) (leaves : Place → Bool)
  | write (place : Place) (entry : Entry) (second : UInt32)
  | compile (place : Place) (code : Compiled)
  | remove (place : Place)

/-- The files with the store of their rules and with what is kept in compiled form. -/
structure Scene where
  view : View
  store : RuleStore
  bytecode : Bytecode

namespace Scene

variable {scene other : Scene} {event : Event} {events before later : List Event}
  {key : Option String} {leaves : Place → Bool} {rules : LoadedRules}

/-- What the store would answer now. -/
def answer (scene : Scene) (key : Option String) : Except Fault LoadedRules :=
  scene.store.answer scene.view scene.bytecode key

/-- The scene after an event. -/
def step (scene : Scene) : Event → Scene
  | .load key leaves =>
    { scene with
      store := scene.store.after scene.view scene.bytecode key
      bytecode := scene.bytecode.leave scene.view leaves }
  | .write place entry second =>
    { scene with
      view := { scene.view with files := scene.view.files.put place entry }
      bytecode := (scene.bytecode.without (codePlace · == place)).write place second }
  | .compile place code => { scene with bytecode := scene.bytecode.keep place code }
  | .remove place =>
    { scene with
      view := { scene.view with files := scene.view.files.remove place }
      bytecode := scene.bytecode.without fun file => place.isPrefixOf (codePlace file) }

/-- The scene after some events. -/
def run (scene : Scene) (events : List Event) : Scene := events.foldl step scene

/-- The scene at the beginning: nothing has been loaded. -/
def start (view : View) (root : Path) (bytecode : Bytecode) : Scene := ⟨view, ⟨root, []⟩, bytecode⟩

theorem run_append (scene : Scene) (before later : List Event) :
    scene.run (before ++ later) = (scene.run before).run later := List.foldl_append

theorem run_concat (scene : Scene) (events : List Event) (event : Event) :
    scene.run (events ++ [event]) = (scene.run events).step event := by
  rw [run_append]
  rfl

@[simp]
theorem root_step (scene : Scene) (event : Event) :
    (scene.step event).store.root = scene.store.root := by
  cases event with
  | load key leaves => exact RuleStore.root_after _ _ _ _
  | write place entry second => rfl
  | compile place code => rfl
  | remove place => rfl

@[simp]
theorem root_run (scene : Scene) (events : List Event) :
    (scene.run events).store.root = scene.store.root := by
  induction events using List.reverseRecOn with
  | nil => rfl
  | append_singleton events event ih => rw [run_concat, root_step, ih]

/-! ## What is kept -/

/-- The file at a place had a stamp and a module, at the beginning or by an event: it stood or was written,
or a compiled form of it was kept or put beside it. -/
inductive Wrote (scene : Scene) (events : List Event) : Place → Stamp → RuleModule → Prop
  | stood {place : Place} {content : Text.Bytes} {rules : Option RuleModule}
    (h : scene.view.files.entry? place = some (.file content rules)) :
    Wrote scene events place (scene.bytecode.stamp place content) (moduleOf rules)
  | kept {place : Place} {code : Compiled} (h : scene.bytecode.kept place = some code) :
    Wrote scene events place code.stamp code.rules
  | written {place : Place} {content : Text.Bytes} {rules : Option RuleModule} {second : UInt32}
    (h : .write place (.file content rules) second ∈ events) :
    Wrote scene events place ⟨second, .ofNat content.length⟩ (moduleOf rules)
  | compiled {place : Place} {code : Compiled} (h : .compile place code ∈ events) :
    Wrote scene events place code.stamp code.rules

/-- Files of one place that have the same stamp have the same module: none is written twice within a second
with the same size and another module. -/
def ToldApart (scene : Scene) (events : List Event) : Prop :=
  ∀ place stamp first second, Wrote scene events place stamp first →
    Wrote scene events place stamp second → first = second

/-- All files that stand now and all compiled forms that are kept now were written or compiled. -/
structure Recorded (scene : Scene) (events : List Event) (now : Scene) : Prop where
  files : ∀ place content rules, now.view.files.entry? place = some (.file content rules) →
    Wrote scene events place (now.bytecode.stamp place content) (moduleOf rules)
  codes : ∀ place code, now.bytecode.kept place = some code →
    Wrote scene events place code.stamp code.rules

/-- The event is one of those that are recorded, or a load. -/
def Event.IsAmong (event : Event) (events : List Event) : Prop :=
  event ∈ events ∨ ∃ key leaves, event = .load key leaves

namespace Recorded

variable {now : Scene}

theorem start (scene : Scene) (events : List Event) : Recorded scene events scene where
  files _ _ _ h := .stood h
  codes _ _ h := .kept h

theorem codes_without (h : Recorded scene events now) (drops : Place → Bool) {place : Place}
    {code : Compiled} (hcode : (now.bytecode.without drops).kept place = some code) :
    Wrote scene events place code.stamp code.rules :=
  h.codes place code (Option.ite_none_left_eq_some.mp hcode).2

/-- **Whatever happens is recorded.** -/
theorem step (h : Recorded scene events now) (hevent : Event.IsAmong event events) :
    Recorded scene events (now.step event) := by
  cases event with
  | load key leaves =>
    refine ⟨h.files, fun place code hcode => ?_⟩
    change (if leaves place then (now.bytecode.compiled? now.view place).or (now.bytecode.kept place)
      else now.bytecode.kept place) = some code at hcode
    split_ifs at hcode
    · -- a form that is left is that of a file that stands, or the one that was kept
      rcases Option.or_eq_some_iff.mp hcode with hcode | ⟨-, hcode⟩
      · unfold Bytecode.compiled? at hcode
        split at hcode
        · next content rules hentry =>
          obtain rfl := Option.some.inj hcode
          dsimp only
          unfold Bytecode.moduleIn
          split
          · exact h.files place content rules hentry
          · next kept hkept =>
            split_ifs with hstamp
            · rw [← hstamp]
              exact h.codes place kept hkept
            · exact h.files place content rules hentry
        · cases hcode
      · exact h.codes place code hcode
    · exact h.codes place code hcode
  | write place entry second =>
    have hmem : .write place entry second ∈ events := by simpa [Event.IsAmong] using hevent
    refine ⟨fun file content rules hfile => ?_, fun file code hcode =>
      h.codes_without (codePlace · == place) hcode⟩
    have hstamp : (now.step (.write place entry second)).bytecode.stamp file content =
        ⟨Function.update now.bytecode.written place second file, .ofNat content.length⟩ := rfl
    rw [hstamp]
    rcases Files.entry?_put hfile with ⟨rfl, rfl⟩ | ⟨hne, hstood⟩
    · rw [Function.update_self]
      exact .written hmem
    · rw [Function.update_of_ne hne]
      exact h.files file content rules hstood
  | compile place code =>
    have hmem : .compile place code ∈ events := by simpa [Event.IsAmong] using hevent
    refine ⟨h.files, fun file kept hkept => ?_⟩
    change Function.update now.bytecode.kept place (some code) file = some kept at hkept
    by_cases heq : file = place
    · subst heq
      rw [Function.update_self, Option.some.injEq] at hkept
      subst hkept
      exact .compiled hmem
    · rw [Function.update_of_ne heq] at hkept
      exact h.codes file kept hkept
  | remove place =>
    exact ⟨fun file content rules hfile => h.files file content rules (Files.entry?_remove hfile),
      fun file code hcode => h.codes_without (fun file => place.isPrefixOf (codePlace file)) hcode⟩

theorem run (h : Recorded scene events now) (hlater : ∀ event ∈ later, Event.IsAmong event events) :
    Recorded scene events (now.run later) := by
  induction later generalizing now with
  | nil => exact h
  | cons event later ih =>
    obtain ⟨hevent, hlater⟩ := List.forall_mem_cons.mp hlater
    exact ih (h.step hevent) hlater

/-- **Where files are told apart, no compiled form shows.** -/
theorem moduleAt_eq (h : Recorded scene events now) (happart : ToldApart scene events) :
    moduleAt now.view now.bytecode = moduleAt now.view {} := by
  funext path
  unfold moduleAt
  cases hpath : now.view.locate path with
  | error refusal => rfl
  | ok found =>
    obtain ⟨place, _ | ⟨content, rules⟩⟩ := found
    · rfl
    · have hwrote := h.files place content rules (Files.entry?_of_locateFrom hpath)
      show now.bytecode.moduleIn place content rules = moduleOf rules
      unfold Bytecode.moduleIn
      split
      · rfl
      · next code hcode =>
        split_ifs with hstamp
        · exact happart place _ _ _ (hstamp ▸ h.codes place code hcode) hwrote
        · rfl

end Recorded

/-! ## What is the same for a key -/

/-- Two scenes are the same for a key, and what they have was written or compiled. -/
structure SameFor (start : Scene) (events : List Event) (key : Option String) (scene other : Scene) :
    Prop where
  view : scene.view = other.view
  root : scene.store.root = other.store.root
  kept : scene.store.kept key = other.store.kept key
  recorded : Recorded start events scene
  recorded' : Recorded start events other

namespace SameFor

variable {start : Scene}

theorem answer_eq (happart : ToldApart start events) (h : SameFor start events key scene other) :
    scene.answer key = other.answer key := by
  unfold answer
  have hmodules : moduleAt scene.view scene.bytecode = moduleAt scene.view other.bytecode := by
    rw [h.recorded.moduleAt_eq happart, h.view, h.recorded'.moduleAt_eq happart]
  rw [RuleStore.answer_eq, RuleStore.answer_eq, h.kept, RuleStore.computed_congr hmodules, h.view, h.root]

theorem step (happart : ToldApart start events) (hevent : Event.IsAmong event events)
    (h : SameFor start events key scene other) :
    SameFor start events key (scene.step event) (other.step event) := by
  refine ⟨?_, by rw [root_step, root_step, h.root], ?_, h.recorded.step hevent, h.recorded'.step hevent⟩
  · cases event with
    | load loaded leaves => exact h.view
    | write place entry second => unfold Scene.step; rw [h.view]
    | compile place code => exact h.view
    | remove place => unfold Scene.step; rw [h.view]
  · cases event with
    | load loaded leaves =>
      show (scene.store.after scene.view scene.bytecode loaded).kept key =
        (other.store.after other.view other.bytecode loaded).kept key
      by_cases hne : loaded = key
      · have hanswer : scene.store.answer scene.view scene.bytecode key =
            other.store.answer other.view other.bytecode key := h.answer_eq happart
        rw [hne, RuleStore.kept_after_self, RuleStore.kept_after_self, hanswer]
      · rw [RuleStore.kept_after_of_ne hne, RuleStore.kept_after_of_ne hne, h.kept]
    | write place entry second => exact h.kept
    | compile place code => exact h.kept
    | remove place => exact h.kept

theorem run (happart : ToldApart start events) (h : SameFor start events key scene other)
    (hlater : ∀ event ∈ later, Event.IsAmong event events) :
    SameFor start events key (scene.run later) (other.run later) := by
  induction later generalizing scene other with
  | nil => exact h
  | cons event later ih =>
    obtain ⟨hevent, hlater⟩ := List.forall_mem_cons.mp hlater
    exact ih (h.step happart hevent) hlater

end SameFor

end Scene

end Lintel.Policy
