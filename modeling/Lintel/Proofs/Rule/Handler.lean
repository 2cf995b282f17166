import Lintel.Proofs.Check.Order

/-!
# Exported handlers

A handler is bare if its innermost body, the one that arrow functions lead to (`InnerBlock`), has no try
statement. The rule looks at the variables that a file exports and follows arrow functions only, so it
reports the bare handlers that are bound to these.

* `innerBody?_eq_some_iff`, `innerBlock?_eq_some_iff`: the readers find the innermost body;
* `exportedBy`, `Declared.IsBare`: the functions that a statement exports, and the bare handlers among them;
* `visitHandler_eq`: what the rule reports at a node;
* **`Check.check_handlers_exact`**: what it reports in a file, and when these are all the bare handlers;
  `Check.not_forall_check_eq_bareHandlers`: a handler that is declared as a function.
-/

namespace Lintel

open Files (View)
open Project (EntityIndex)
open Syntax (Cursor Node NodeKind Source)

namespace Rule

variable {node body : Node} {source : Source}

/-! ## The innermost body -/

/-- The block that is the body of a function. If an arrow function makes another one, it is the body of that
one. -/
inductive InnerBlock : Node → Node → Prop
  | own {function body : Node} (kind : function.kind = .function ∨ function.kind = .arrowFunction)
    (fills : function.child? "body" = some body) (block : body.kind = .block) : InnerBlock function body
  | nested {outer inner body : Node} (kind : outer.kind = .arrowFunction)
    (makes : outer.child? "body" = some inner) (arrow : inner.kind = .arrowFunction)
    (within : InnerBlock inner body) : InnerBlock outer body

theorem innerBlock_of_innerBody? (h : innerBody? node = some body) : InnerBlock node body := by
  fun_induction innerBody? node with
  | case1 => cases h
  | case2 node hkind inner hinner harrow ih =>
    exact .nested (eq_of_beq hkind) hinner (eq_of_beq harrow) (ih h)
  | case3 node hkind inner hinner _ hblock =>
    obtain rfl := Option.some.inj h
    exact .own (.inr (eq_of_beq hkind)) hinner (eq_of_beq hblock)
  | case4 => cases h
  | case5 => cases h

/-- **The reader of arrow functions finds the innermost body.** -/
theorem innerBody?_eq_some_iff (hkind : node.kind = .arrowFunction) :
    innerBody? node = some body ↔ InnerBlock node body := by
  refine ⟨innerBlock_of_innerBody?, fun h => ?_⟩
  have hstep {arrow made : Node} (hkind : arrow.kind = .arrowFunction)
      (hmakes : arrow.child? "body" = some made) : innerBody? arrow =
        if made.kind == .arrowFunction then innerBody? made
        else if made.kind == .block then some made else none := by
    rw [innerBody?, if_pos (beq_iff_eq.mpr hkind)]
    split
    · rename_i hnone
      rw [hmakes] at hnone
      cases hnone
    · rename_i found hfound
      obtain rfl := Option.some.inj (hmakes.symm.trans hfound)
      rfl
  induction h with
  | own _ hfills hblock => rw [hstep hkind hfills, hblock]; rfl
  | nested _ hmakes harrow _ ih => rw [hstep hkind hmakes, harrow]; exact ih harrow

/-- The innermost body of a function, if it is a block. -/
def innerBlock? (node : Node) : Option Node :=
  if node.kind = .function then (node.child? "body").filter (·.kind == .block) else innerBody? node

theorem innerBlock?_eq_some_iff : innerBlock? node = some body ↔ InnerBlock node body := by
  unfold innerBlock?
  split_ifs with hkind
  · rw [Option.filter_eq_some_iff, beq_iff_eq]
    constructor
    · rintro ⟨hfills, hblock⟩
      exact .own (.inl hkind) hfills hblock
    · intro h
      cases h with
      | own _ hfills hblock => exact ⟨hfills, hblock⟩
      | nested harrow => cases hkind.symm.trans harrow
  · by_cases harrow : node.kind = .arrowFunction
    · exact innerBody?_eq_some_iff harrow
    · refine ⟨innerBlock_of_innerBody?, fun h => ?_⟩
      cases h with
      | own hfunction => exact absurd hfunction (by simp [hkind, harrow])
      | nested harrow' => exact absurd harrow' harrow

/-! ## Exported functions -/

/-- A function with the node that declares its name. -/
structure Declared where
  node : Node
  function : Node

/-- The variable that a member of a declaration declares, with what it is bound to. -/
def boundVariable? (member : Node) : Option Declared :=
  if member.named && member.type == "variable_declarator" then
    (member.child? "value").map fun value => ⟨member, value⟩
  else none

/-- What a declaration declares: a function, or variables with what they are bound to. -/
def declaredIn (declaration : Node) : List Declared :=
  if declaration.kind = .function then [⟨declaration, declaration⟩]
  else if declaration.kind = .variableDeclaration then declaration.children.filterMap boundVariable?
  else []

/-- What is declared in the declaration that a statement exports. -/
def exportedBy (node : Node) : List Declared :=
  if node.kind = .exporting then ((node.child? "declaration").map declaredIn).getD [] else []

def Declared.name (source : Source) (declared : Declared) : String := source.fieldText declared.node "name"

/-- An exported handler whose innermost body has no try statement. -/
def Declared.IsBare (source : Source) (declared : Declared) : Prop :=
  Text.endsWith "Handler" (declared.name source) = true ∧
    ∃ body, InnerBlock declared.function body ∧ body.childrenOf .trying = []

instance (source : Source) : DecidablePred (Declared.IsBare source) := fun declared =>
  decidable_of_iff (Text.endsWith "Handler" (declared.name source) = true ∧
      (innerBlock? declared.function).any fun body => (body.childrenOf .trying).isEmpty) <| by
    simp [Declared.IsBare, Option.any_eq_true, innerBlock?_eq_some_iff]

def Declared.finding (source : Source) (declared : Declared) : Finding :=
  ⟨declared.node, handlerMessage (declared.name source), none⟩

/-- A handler that is looked at: one that is bound to an arrow function. -/
def Declared.IsArrow (declared : Declared) : Prop := declared.function.kind = .arrowFunction

instance : DecidablePred Declared.IsArrow := fun _ => inferInstanceAs (Decidable (_ = _))

theorem innerBody?_eq_none (h : node.kind ≠ .arrowFunction) : innerBody? node = none := by
  rw [innerBody?, if_neg (by simpa using h)]

theorem isArrow_of_innerBody? (h : innerBody? node = some body) : node.kind = .arrowFunction := by
  by_contra hnot
  rw [innerBody?_eq_none hnot] at h
  cases h

theorem handlerFinding?_of_some {member : Node} {declared : Declared}
    (h : boundVariable? member = some declared) : handlerFinding? source member =
      if declared.IsBare source ∧ declared.IsArrow then some (declared.finding source) else none := by
  unfold boundVariable? at h
  split_ifs at h with hvariable
  obtain ⟨value, hvalue, rfl⟩ := Option.map_eq_some_iff.mp h
  unfold handlerFinding?
  simp only [hvariable, Bool.true_and, hvalue, Option.bind_some]
  -- the reader asks for the name first and finds a body only behind an arrow function
  split_ifs with hname hbare hbare
  · obtain ⟨⟨-, body, hbody, hnone⟩, harrow⟩ := hbare
    simp only [(innerBody?_eq_some_iff harrow).mpr hbody, hnone]
    rfl
  · cases hbody : innerBody? value with
    | none => rfl
    | some body =>
      refine if_neg fun hnone => hbare ⟨⟨hname, body, innerBlock_of_innerBody? hbody, ?_⟩, ?_⟩
      · exact List.isEmpty_iff.mp hnone
      · exact isArrow_of_innerBody? hbody
  · exact absurd hbare.1.1 hname
  · rfl

theorem handlerFinding?_of_none {member : Node} (h : boundVariable? member = none) :
    handlerFinding? source member = none := by
  unfold boundVariable? at h
  unfold handlerFinding?
  split_ifs at h with hvariable
  · rw [Option.map_eq_none_iff] at h
    simp [h]
  · simp only [Bool.not_eq_true] at hvariable
    simp [hvariable]

theorem handlerFinding?_eq (source : Source) (member : Node) : handlerFinding? source member =
    ((boundVariable? member).filter fun d => d.IsBare source ∧ d.IsArrow).map (·.finding source) := by
  cases h : boundVariable? member with
  | none => exact handlerFinding?_of_none h
  | some declared =>
    rw [handlerFinding?_of_some h, Option.filter_some]
    by_cases hbare : declared.IsBare source ∧ declared.IsArrow
    · rw [if_pos hbare, if_pos (decide_eq_true hbare), Option.map_some]
    · rw [if_neg hbare, if_neg (by simpa using hbare), Option.map_none]

def reportedBy (source : Source) (node : Node) : List Finding :=
  ((exportedBy node).filter fun d => d.IsBare source ∧ d.IsArrow).map (·.finding source)

theorem visitHandler_eq (source : Source) (c : Cursor) :
    visitHandler source c = .reports (reportedBy source c.node) := by
  unfold visitHandler reportedBy exportedBy
  split
  · rename_i declaration hkind hdeclaration
    rw [if_pos hkind, hdeclaration, Option.map_some, Option.getD_some, declaredIn]
    by_cases hvariables : declaration.kind = .variableDeclaration
    · have hfunction : declaration.kind ≠ .function := by simp [hvariables]
      rw [if_pos (beq_iff_eq.mpr hvariables), if_neg hfunction, if_pos hvariables,
        List.filter_filterMap, List.map_filterMap]
      exact congrArg Visit.reports (List.filterMap_congr fun member _ => handlerFinding?_eq source member)
    · rw [if_neg (by simpa using hvariables), if_neg hvariables]
      -- a function that is declared is passed over, as it is no arrow function
      split_ifs with hfunction
      · simp [Declared.IsArrow, hfunction, Visit.reports]
      · rfl
  · rename_i hnone
    split_ifs with hkind
    · cases hdeclaration : c.node.child? "declaration" with
      | none => rfl
      | some declaration => exact absurd hdeclaration (hnone declaration hkind)
    · rfl

/-! ## Handlers of a source -/

/-- The exported handlers of a source whose innermost bodies have no try statement, in document order. -/
def bareHandlers (source : Source) : List Declared :=
  (source.root.preorder.flatMap exportedBy).filter (·.IsBare source)

/-- What is reported of handlers, each at its declaration. -/
def handlerViolations (source : Source) (handlers : List Declared) : List Violation :=
  handlers.map fun d => tryCatchRequired.violation source (d.finding source)

theorem handlerViolations_filter_eq_iff {handlers : List Declared} :
    handlerViolations source (handlers.filter (·.IsArrow)) = handlerViolations source handlers ↔
      ∀ d ∈ handlers, d.IsArrow := by
  constructor
  · -- a handler that is left out makes the row of reports shorter
    intro h
    have hlength := congrArg List.length h
    simp only [handlerViolations, List.length_map, List.length_filter_eq_length_iff] at hlength
    simpa using hlength
  · intro hall
    rw [List.filter_eq_self.mpr fun d hd => decide_eq_true (hall d hd)]

end Rule

namespace Check

open Rule

variable {source : Source}

theorem check_handlers (view : View) (index : Option EntityIndex)
    (happlies : tryCatchRequired.appliesTo source.path = true) :
    (check view tryCatchRequired source index).1 =
      .ok (handlerViolations source ((bareHandlers source).filter (·.IsArrow))) := by
  have hfound : source.root.preorder.flatMap (reportedBy source) =
      ((bareHandlers source).filter (·.IsArrow)).map (·.finding source) := by
    rw [bareHandlers, List.filter_filter, List.filter_flatMap, List.map_flatMap]
    refine List.flatMap_congr fun node _ => ?_
    simp only [reportedBy, Bool.decide_and, Bool.and_comm]
  rw [check_of_reports (visitHandler_eq source) happlies, hfound, List.map_map]
  rfl

/-- **A check of handlers reports exactly the bare ones that are bound to arrow functions**, each once, at its
declaration, in document order. These are all the bare ones that the source exports exactly if it exports none
that is declared as a function or bound to a function expression. -/
theorem check_handlers_exact (view : View) (index : Option EntityIndex)
    (happlies : tryCatchRequired.appliesTo source.path = true) :
    (check view tryCatchRequired source index).1 =
        .ok (handlerViolations source ((bareHandlers source).filter (·.IsArrow))) ∧
      ((check view tryCatchRequired source index).1 = .ok (handlerViolations source (bareHandlers source)) ↔
        ∀ d ∈ bareHandlers source, d.IsArrow) := by
  have hcheck := check_handlers view index happlies
  refine ⟨hcheck, ?_⟩
  rw [hcheck, Except.ok.injEq]
  exact handlerViolations_filter_eq_iff

/-! ## A function and an arrow function -/

def twoHandlersText : String :=
  "export function aHandler() \x7b\x7d\nexport const bHandler = () => \x7b\x7d;\n"

/-- The tree of the handlers, as far as the rule looks at it. -/
def twoHandlersTree : Node :=
  let name (start stop : ℕ) : Node := .mk "identifier" start stop (some "name") true []
  let block (start stop : ℕ) : Node := .mk "statement_block" start stop (some "body") true []
  .mk "program" 0 64 none true
    [.mk "export_statement" 0 29 none true
      [.mk "function_declaration" 7 29 (some "declaration") true [name 16 24, block 27 29]],
    .mk "export_statement" 30 63 none true
      [.mk "lexical_declaration" 37 63 (some "declaration") true
        [.mk "variable_declarator" 43 62 none true
          [name 43 51, .mk "arrow_function" 54 62 (some "value") true [block 60 62]]]]]

/-- The source of the handlers. -/
def twoHandlers : Source := .ofText "a-handler.ts" twoHandlersText twoHandlersTree

theorem check_handlers_exact_twoHandlers :
    tryCatchRequired.appliesTo twoHandlers.path = true ∧
      ∃ violations, (check ⟨.empty, []⟩ tryCatchRequired twoHandlers none).1 = .ok violations ∧
        violations.map (·.position) = [⟨2, 14⟩] := by
  have happlies : tryCatchRequired.appliesTo twoHandlers.path = true := by decide +kernel
  exact ⟨happlies, _, (check_handlers_exact ⟨.empty, []⟩ none happlies).1, by decide +kernel⟩

/-- **Not every bare handler is reported**: a function declaration is not. -/
theorem not_forall_check_eq_bareHandlers :
    ¬ ∀ (view : View) (source : Source) (index : Option EntityIndex),
      tryCatchRequired.appliesTo source.path = true →
      (check view tryCatchRequired source index).1 =
        .ok (handlerViolations source (bareHandlers source)) := by
  intro hall
  have happlies : tryCatchRequired.appliesTo twoHandlers.path = true := by decide +kernel
  have hsame := hall ⟨.empty, []⟩ twoHandlers none happlies
  rw [check_handlers _ _ happlies, Except.ok.injEq, handlerViolations_filter_eq_iff] at hsame
  exact absurd hsame (by decide +kernel)

end Check

end Lintel
