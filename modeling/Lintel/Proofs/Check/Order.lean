import Lintel.Proofs.Check.Visit
import Lintel.Proofs.Except
import Lintel.Proofs.Syntax.Order

/-!
# The order of violations

A rule that reports at a node and inside it is told of the outer nodes first. What it reports at the members
of an outer node may then lie after what it reports at the members of a node inside one of them.

* `Visit.findings`, `Visit.Blind`: what a visit reports, and visits that do not look at earlier reports;
  `violations_eq`, `check_of_reports`: what a check reports, node by node;
* `Rule.Within`: a rule that reports within the visited nodes only; `within_of_mem_builtin`: the built-in
  rules do;
* **`check_in_order_iff`**: exactly when the violations of a built-in rule come in the order of the source.
-/

namespace Lintel

open Files (View)
open Project (EntityIndex)
open Rule (Finding Violation Visit)
open Syntax (Cursor Node Source Position)

/-! ## What a visit reports -/

namespace Rule.Visit

/-- What a visit reports, told the names of the entities, and of no earlier reports. -/
def findings (answer : Option (Except Fault (List String))) : Visit → Except Fault (List Finding)
  | .done => .ok []
  | .report finding next => (next.findings answer).map (finding :: ·)
  | .fail fault => .error fault
  | .consult next => (next answer).findings answer
  | .lookBack next => (next []).findings answer

/-- The visit never looks at earlier reports. -/
def Blind : Visit → Prop
  | .done => True
  | .report _ next => next.Blind
  | .fail _ => True
  | .consult next => ∀ answer, (next answer).Blind
  | .lookBack _ => False

variable {answer : Option (Except Fault (List String))} {shown : Finding → Violation}

theorem result_of_blind {visit : Visit} (h : visit.Blind) (before : List Violation) :
    visit.result answer shown before =
      (visit.findings answer).map fun found => before ++ found.map shown := by
  induction visit generalizing before with
  | done => simp [result, findings, Except.map]
  | fail fault => rfl
  | report finding next ih =>
    rw [result, ih h, findings]
    cases next.findings answer <;> simp [Except.map]
  | consult next ih => exact ih answer (h answer) before
  | lookBack next ih => exact absurd h fun h => h

theorem blind_reports (found : List Finding) : (reports found).Blind := by
  induction found with
  | nil => exact trivial
  | cons finding found ih => exact ih

theorem findings_reports (found : List Finding) : (reports found).findings answer = .ok found := by
  induction found with
  | nil => rfl
  | cons finding found ih =>
    have hstep : (reports (finding :: found)).findings answer =
        ((reports found).findings answer).map (finding :: ·) := rfl
    rw [hstep, ih]
    rfl

/-- The visit reports at most once, at the given node. -/
inductive Single (node : Node) : Visit → Prop
  | done : Single node .done
  | report (message : String) : Single node (.at node message)
  | withNames {next : Option (List String) → Visit} (h : ∀ names, Single node (next names)) :
    Single node (.withNames next)

theorem Single.blind {node : Node} {visit : Visit} (h : visit.Single node) : visit.Blind := by
  induction h with
  | done => exact trivial
  | report message => exact trivial
  | withNames h ih =>
    rintro (_ | _ | names)
    · exact ih none
    · exact trivial
    · exact ih (some names)

theorem Single.findings_mem {node : Node} {visit : Visit} (h : visit.Single node)
    {found : List Finding} (hfound : visit.findings answer = .ok found) :
    found = [] ∨ ∃ message, found = [⟨node, message, none⟩] := by
  induction h with
  | done => exact .inl (Except.ok.inj hfound).symm
  | report message => exact .inr ⟨message, (Except.ok.inj hfound).symm⟩
  | withNames h ih =>
    rcases answer with _ | _ | names
    · exact ih none hfound
    · cases hfound
    · exact ih (some names) hfound

/-- The visit reports at children of a child of the given node, if at all. -/
inductive Members (node : Node) : Visit → Prop
  | done : Members node .done
  | reports {child : Node} (hchild : child ∈ node.children) {find : Node → Option Finding}
    (hfind : ∀ member finding, find member = some finding → finding.node = member) :
    Members node (.reports (child.children.filterMap find))

theorem Members.blind {node : Node} {visit : Visit} (h : visit.Members node) : visit.Blind := by
  cases h with
  | done => exact trivial
  | reports => exact blind_reports _

end Rule.Visit

/-! ## What a rule reports -/

/-- What a rule reports at a node, nothing if it breaks down there. -/
def Rule.foundAt (rule : Rule) (source : Source) (answer : Option (Except Fault (List String)))
    (node : Node) : List Finding :=
  ((rule.visitor source (.top node)).findings answer).toOption.getD []

/-- The rule reports within the nodes that it visits, in order, and looks at nothing but the node. -/
structure Rule.Within (rule : Rule) : Prop where
  blind : ∀ source node, (rule.visitor source (.top node)).Blind
  nodeOnly : ∀ source (c : Cursor), rule.visitor source c = rule.visitor source (.top c.node)
  found : ∀ source answer, Node.FoundWithin (rule.foundAt source answer) (·.node.start)

/-- The rule reports at the nodes themselves, if at all. -/
def Rule.AtNodes (rule : Rule) : Prop :=
  ∀ source answer node, ∀ finding ∈ rule.foundAt source answer node, finding.node = node

namespace Rule

variable {rule : Rule}

theorem foundAt_of_single (h : ∀ source c, (rule.visitor source c).Single c.node)
    (source : Source) (answer : Option (Except Fault (List String))) (node : Node) :
    rule.foundAt source answer node = [] ∨
      ∃ message, rule.foundAt source answer node = [⟨node, message, none⟩] := by
  have hsingle := h source (.top node)
  rw [foundAt]
  cases hfound : (rule.visitor source (.top node)).findings answer with
  | error fault => exact .inl rfl
  | ok found => exact hsingle.findings_mem hfound

theorem atNodes_of_single (h : ∀ source c, (rule.visitor source c).Single c.node) :
    rule.AtNodes := by
  intro source answer node finding hfinding
  rcases foundAt_of_single h source answer node with hnone | ⟨message, hone⟩
  · rw [hnone] at hfinding
    exact absurd hfinding List.not_mem_nil
  · rw [hone, List.mem_singleton] at hfinding
    rw [hfinding]

theorem within_of_single (h : ∀ source c, (rule.visitor source c).Single c.node)
    (hnode : ∀ source (c : Cursor), rule.visitor source c = rule.visitor source (.top c.node)) :
    rule.Within where
  blind source node := (h source (.top node)).blind
  nodeOnly := hnode
  found source answer := by
    refine ⟨fun node hnode finding hfinding => ?_, fun node _ => ?_⟩
    · rw [atNodes_of_single h source answer node finding hfinding]
      exact ⟨Nat.le_refl _, Node.le_of_inOrders (Node.inOrder_eq node ▸ hnode)⟩
    · rcases foundAt_of_single h source answer node with hnone | ⟨message, hone⟩
      · rw [hnone]
        exact List.Pairwise.nil
      · rw [hone]
        exact List.pairwise_singleton _ _

theorem within_of_members (h : ∀ source c, (rule.visitor source c).Members c.node)
    (hnode : ∀ source (c : Cursor), rule.visitor source c = rule.visitor source (.top c.node)) :
    rule.Within where
  blind source node := (h source (.top node)).blind
  nodeOnly := hnode
  found source answer := by
    have hfound : ∀ node, node.inOrder = true →
        (∀ finding ∈ rule.foundAt source answer node,
          node.start ≤ finding.node.start ∧ finding.node.start ≤ node.stop) ∧
        (rule.foundAt source answer node).Pairwise fun x y => x.node.start ≤ y.node.start := by
      intro node horder
      have hmembers := h source (.top node)
      rw [foundAt]
      generalize rule.visitor source (.top node) = visit at hmembers
      cases hmembers with
      | done => exact ⟨fun _ h => absurd h List.not_mem_nil, List.Pairwise.nil⟩
      | reports hchild hfind =>
        rw [Visit.findings_reports]
        exact Node.found_of_child horder hchild fun member finding hfinding =>
          congrArg Node.start (hfind member finding hfinding)
    exact ⟨fun node horder => (hfound node horder).1, fun node horder => (hfound node horder).2⟩

/-! ## The built-in rules -/

theorem single_visitExternalImport (source : Source) (c : Cursor) :
    (visitExternalImport source c).Single c.node := by
  rw [visitExternalImport]
  split
  · dsimp only
    split_ifs
    · exact .done
    · exact .report _
  · exact .done

theorem single_visitLogger (source : Source) (c : Cursor) : (visitLogger source c).Single c.node := by
  rw [visitLogger]
  split
  · rw [visitLoggerImport]
    split
    · exact .done
    · split_ifs
      · exact .report _
      · exact .done
  · rw [visitLoggerCall]
    split
    · exact .done
    · dsimp only
      split_ifs
      · exact .report _
      · exact .done
  · exact .done

theorem single_visitConstruction (source : Source) (c : Cursor) :
    (visitConstruction source c).Single c.node := by
  rw [visitConstruction]
  dsimp only
  split_ifs
  · refine .withNames fun known => ?_
    split_ifs
    · exact .report _
    · exact .done
  · exact .done

theorem single_visitFetch (source : Source) (c : Cursor) : (visitFetch source c).Single c.node := by
  rw [visitFetch]
  split
  · split_ifs
    · exact .report _
    · exact .done
  · exact .done

theorem methodFinding?_node {source : Source} {className : String} {member : Node} {finding : Finding}
    (h : methodFinding? source className member = some finding) : finding.node = member := by
  rw [methodFinding?] at h
  split_ifs at h
  cases h
  rfl

theorem members_visitUseCase (source : Source) (c : Cursor) :
    (visitUseCase source c).Members c.node := by
  rw [visitUseCase]
  split
  · rename_i body hbody
    split_ifs
    · rw [Node.childrenOf, List.filterMap_filter]
      refine .reports (List.mem_of_find?_eq_some hbody) fun member finding h => ?_
      split_ifs at h
      exact methodFinding?_node h
    · exact .done
  · exact .done

theorem handlerFinding?_node {source : Source} {declarator : Node} {finding : Finding}
    (h : handlerFinding? source declarator = some finding) : finding.node = declarator := by
  rw [handlerFinding?] at h
  split_ifs at h
  split at h
  · cases h
  · split_ifs at h
    cases h
    rfl

theorem members_visitHandler (source : Source) (c : Cursor) :
    (visitHandler source c).Members c.node := by
  rw [visitHandler]
  split
  · rename_i declaration hdeclaration
    split_ifs
    · exact .reports (List.mem_of_find?_eq_some hdeclaration) fun _ _ => handlerFinding?_node
    · exact .done
  · exact .done

/-- The rules that report at members of the nodes that they visit. -/
def memberRules : List Rule := [noPrivateMethods, tryCatchRequired]

theorem of_mem_builtin {rule : Rule} (h : rule ∈ builtin) :
    rule.Within ∧ (rule ∈ memberRules ∨ rule.AtNodes) := by
  simp only [builtin, List.mem_cons, List.not_mem_nil, or_false] at h
  rcases h with rfl | rfl | rfl | rfl | rfl | rfl
  · exact ⟨within_of_single single_visitExternalImport fun _ _ => rfl,
      .inr (atNodes_of_single single_visitExternalImport)⟩
  · exact ⟨within_of_single single_visitLogger fun _ _ => rfl,
      .inr (atNodes_of_single single_visitLogger)⟩
  · exact ⟨within_of_members members_visitHandler fun _ _ => rfl, .inl (by simp [memberRules])⟩
  · exact ⟨within_of_single single_visitConstruction fun _ _ => rfl,
      .inr (atNodes_of_single single_visitConstruction)⟩
  · exact ⟨within_of_members members_visitUseCase fun _ _ => rfl, .inl (by simp [memberRules])⟩
  · exact ⟨within_of_single single_visitFetch fun _ _ => rfl,
      .inr (atNodes_of_single single_visitFetch)⟩

end Rule

/-! ## The violations of a check -/

/-- The position of a violation. -/
def Rule.Violation.position (violation : Violation) : Position := ⟨violation.line, violation.column⟩

/-- Each violation does not come after those that follow it. -/
def InSourceOrder (violations : List Violation) : Prop :=
  violations.Pairwise fun v w => v.position.NotAfter w.position

instance (violations : List Violation) : Decidable (InSourceOrder violations) :=
  inferInstanceAs (Decidable (List.Pairwise _ _))

namespace Check

variable {view : View} {rule : Rule} {source : Source} {index : Option EntityIndex}
  {answer : Option (Except Fault (List String))} {violations : List Violation}

theorem results_eq_ok (hrule : rule.Within) {cursors : List Cursor} {before : List Violation}
    (h : results rule source answer before cursors = .ok violations) :
    violations = before ++ ((cursors.map (·.node)).flatMap (rule.foundAt source answer)).map
      (rule.violation source) := by
  induction cursors generalizing before with
  | nil => simpa using (Except.ok.inj h).symm
  | cons c cursors ih =>
    rw [results_cons, hrule.nodeOnly, Visit.result_of_blind (hrule.blind source c.node), bind_eq_ok] at h
    obtain ⟨after, hafter, hrest⟩ := h
    obtain ⟨found, hfound, rfl⟩ := map_eq_ok.mp hafter
    have hat : rule.foundAt source answer c.node = found := by
      rw [Rule.foundAt, hfound]
      rfl
    rw [ih hrest, List.map_cons, List.flatMap_cons, hat, List.map_append, List.append_assoc]

/-- The violations of a check are those that the rule finds at the nodes, in document order. -/
theorem violations_eq (hrule : rule.Within) (happlies : rule.appliesTo source.path = true)
    (h : (check view rule source index).1 = .ok violations) :
    violations = (source.root.preorder.flatMap (rule.foundAt source (answerOf view index))).map
      (rule.violation source) := by
  rw [check_eq view rule source index happlies] at h
  rw [results_eq_ok hrule h, List.nil_append, Syntax.walk_map_node]

/-- Visits that only report do not break a check off. -/
theorem check_of_reports {found : Node → List Finding}
    (h : ∀ c, rule.visitor source c = .reports (found c.node)) (happlies : rule.appliesTo source.path = true) :
    (check view rule source index).1 =
      .ok ((source.root.preorder.flatMap found).map (rule.violation source)) := by
  have hresults (before : List Violation) (cursors : List Cursor) :
      results rule source (answerOf view index) before cursors =
        .ok (before ++ ((cursors.map (·.node)).flatMap found).map (rule.violation source)) := by
    induction cursors generalizing before with
    | nil => simp [results, pure_eq_ok]
    | cons c cursors ih =>
      rw [results_cons, h, Visit.result_of_blind (Visit.blind_reports _), Visit.findings_reports,
        map_eq_bind, ok_bind, ok_bind, ih]
      simp
  rw [check_eq view rule source index happlies, hresults, List.nil_append, Syntax.walk_map_node]

/-- A report does not come after another one. -/
def NotAfter (source : Source) (x y : Finding) : Prop :=
  (source.positionOf x.node).NotAfter (source.positionOf y.node)

/-- **The violations of a built-in rule come in the order of the source** exactly if the rule reports
nothing at an outer node that lies after what it reports at a node inside it; that is so of every rule but
those that report at members of the nodes that they visit. -/
theorem check_in_order_iff (view : View) {rule : Rule} (hrule : rule ∈ Rule.builtin) {source : Source}
    (horder : source.root.inOrder = true) (hinside : source.root.stop ≤ source.bytes.length)
    (happlies : rule.appliesTo source.path = true) (index : Option EntityIndex)
    {violations : List Violation} (h : (check view rule source index).1 = .ok violations) :
    (InSourceOrder violations ↔ Node.NestedInOrder (rule.foundAt source (answerOf view index))
      (NotAfter source) [source.root]) ∧
    (rule ∉ Rule.memberRules → InSourceOrder violations) := by
  obtain ⟨hwithin, hat⟩ := Rule.of_mem_builtin hrule
  set found := rule.foundAt source (answerOf view index) with hfound
  have hfoundWithin := hwithin.found source (answerOf view index)
  have hroot : Node.inOrders source.root.start source.root.stop [source.root] = true :=
    Node.inOrders_cons.mpr ⟨Nat.le_refl _, horder, by simp [Node.inOrders]⟩
  have hpositions : ∀ x y : Finding, x.node.start ≤ y.node.start →
      y.node.start ≤ source.bytes.length → NotAfter source x y := by
    intro x y hle hlimit
    rw [NotAfter, Source.positionOf_eq, Source.positionOf_eq]
    exact Syntax.notAfter_positionAt hle hlimit
  have hiff : InSourceOrder violations ↔ Node.NestedInOrder found (NotAfter source) [source.root] := by
    rw [← Node.pairwise_flatMap_preorders_iff hfoundWithin hpositions hroot hinside, InSourceOrder,
      violations_eq hwithin happlies h, List.pairwise_map, Node.preorders, Node.preorders,
      List.append_nil]
    rfl
  refine ⟨hiff, fun hnot => hiff.mpr ?_⟩
  -- a report at the outer node itself comes before all that is inside
  intro outer houter inner hinner x hx y hy
  have hatNodes := hat.resolve_left hnot
  obtain ⟨-, houterStop, houterOrder⟩ := Node.range_of_mem_preorders hroot houter
  obtain ⟨hstart, hstop, hinnerOrder⟩ :=
    Node.range_of_mem_preorders (Node.inOrder_eq outer ▸ houterOrder) hinner
  have hrange := Node.le_of_inOrders (Node.inOrder_eq inner ▸ hinnerOrder)
  refine hpositions x y ?_ ?_ <;>
    rw [hatNodes source _ inner y hy]
  · rw [hatNodes source _ outer x hx]
    exact hstart
  · omega

/-! ## Classes in methods of classes -/

/-- A use case in a method of another one; a method of the outer one follows. -/
def nestedText : String :=
  "class AUseCaseImpl \x7b\n"
    ++ "  first() \x7b class BUseCaseImpl \x7b inner() \x7b\x7d \x7d \x7d\n"
    ++ "  second() \x7b\x7d\n\x7d\n"

/-- The tree of the use cases, as far as rules look at it. -/
def nestedTree : Node :=
  let method (start nameStop stop : ℕ) (body : List Node) : Node :=
    .mk "method_definition" start stop none true
      (.mk "property_identifier" start nameStop (some "name") true [] :: body)
  let useCase (start stop : ℕ) (methods : List Node) : Node :=
    .mk "class_declaration" start stop none true
      [.mk "type_identifier" (start + 6) (start + 18) (some "name") true [],
        .mk "class_body" (start + 19) stop (some "body") true methods]
  .mk "program" 0 84 none true
    [useCase 0 83 [method 23 28 68 [useCase 33 66 [method 54 59 64 []]], method 71 77 82 []]]

/-- The source of the use cases. -/
def nestedUseCases : Source := .ofText "a-use-case.ts" nestedText nestedTree

/-- **The violations of a built-in rule need not come in the order of the source.** -/
theorem not_forall_inSourceOrder :
    ¬ ∀ rule ∈ Rule.builtin, ∀ (view : View) (source : Source) (index : Option EntityIndex)
        (violations : List Violation), source.root.inOrder = true →
      source.root.stop ≤ source.bytes.length → (check view rule source index).1 = .ok violations →
      InSourceOrder violations := by
  intro hall
  have hsource := hall Rule.noPrivateMethods (by simp [Rule.builtin]) ⟨.empty, []⟩ nestedUseCases none
  have hviolations : ((check ⟨.empty, []⟩ Rule.noPrivateMethods nestedUseCases none).1.toOption.map
      fun violations => decide (InSourceOrder violations)) = some false := by
    decide +kernel
  cases hcheck : (check ⟨.empty, []⟩ Rule.noPrivateMethods nestedUseCases none).1 with
  | error fault =>
    rw [hcheck] at hviolations
    cases hviolations
  | ok violations =>
    have horder := hsource violations (by decide +kernel) (by decide +kernel) hcheck
    rw [hcheck] at hviolations
    exact absurd horder (of_decide_eq_false (Option.some.inj hviolations))

theorem check_in_order_iff_nested :
    let rule := Rule.noPrivateMethods
    rule ∈ Rule.builtin ∧ nestedUseCases.root.inOrder = true ∧
      nestedUseCases.root.stop ≤ nestedUseCases.bytes.length ∧
      rule.appliesTo nestedUseCases.path = true ∧
      ∃ violations, (check ⟨.empty, []⟩ rule nestedUseCases none).1 = .ok violations ∧
        (InSourceOrder violations ↔ Node.NestedInOrder
          (rule.foundAt nestedUseCases (answerOf ⟨.empty, []⟩ none)) (NotAfter nestedUseCases)
          [nestedUseCases.root]) ∧
        (rule ∉ Rule.memberRules → InSourceOrder violations) := by
  have hrule : Rule.noPrivateMethods ∈ Rule.builtin := by simp [Rule.builtin]
  have horder : nestedUseCases.root.inOrder = true := by decide +kernel
  have hinside : nestedUseCases.root.stop ≤ nestedUseCases.bytes.length := by decide +kernel
  have happlies : Rule.noPrivateMethods.appliesTo nestedUseCases.path = true := by decide +kernel
  have hends : Ends (check ⟨.empty, []⟩ Rule.noPrivateMethods nestedUseCases none).1 :=
    ends_iff_toBool.mpr (by decide +kernel)
  obtain ⟨violations, h⟩ := hends
  exact ⟨hrule, horder, hinside, happlies, violations, h,
    check_in_order_iff _ hrule horder hinside happlies none h⟩

end Check

end Lintel
