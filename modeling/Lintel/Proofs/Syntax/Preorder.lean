import Lintel.Proofs.Syntax.Order
import Mathlib.Data.List.Forall2
import Mathlib.Data.List.Lex
import Mathlib.Logic.Function.Iterate

/-!
# The visit of a tree

A tree is visited with a stack of pending nodes: in each turn the last one is taken off and visited, and its
children are put there in reverse, so that the first of them comes next. A node is known by its address, the
numbers of the children on the way to it, since a tree may hold the same node at several places.

* `Cursor.turn`: one turn; `getElem?_walkStack`: what the turns visit, one after another; `walkStack_append`:
  pending trees are visited one after another;
* `Cursor.at?`: what stands at an address; `Node.addresses`: the addresses of a tree, `mem_addresses_iff`;
* `Precedes`: the order of addresses, in which a node comes before what is below it, and this before the next
  sibling; `pairwise_addresses`;
* `forall₂_walk`: the nodes are visited at their addresses, one after another;
* **`walk_exact`**: the visit ends, and goes through the nodes of the tree in document order.
-/

namespace Lintel.Syntax

variable {c : Cursor} {nodes : List Node} {a b : List ℕ} {i j : ℕ}

/-! ## Turns -/

namespace Cursor

/-- One turn of a visit: the last pending node is taken off, and its children are put there in reverse. -/
def turn (stack : List Cursor) : List Cursor :=
  match stack.getLast? with
  | none => []
  | some c => stack.dropLast ++ c.children.reverse

theorem turn_append_singleton (rest : List Cursor) (c : Cursor) :
    turn (rest ++ [c]) = rest ++ c.children.reverse := by
  simp [turn]

theorem iterate_turn_nil (n : ℕ) : turn^[n] [] = [] := Function.iterate_fixed rfl n

end Cursor

open Cursor (turn)

/-- **What the turns visit**: after any number of them, the node that is next is the last on the stack. -/
theorem getElem?_walkStack (stack : List Cursor) (n : ℕ) :
    (walkStack stack)[n]? = (turn^[n] stack.reverse).getLast? := by
  induction n generalizing stack with
  | zero => cases stack <;> simp [walkStack]
  | succ n ih =>
    cases stack with
    | nil => simp [walkStack, Cursor.iterate_turn_nil]
    | cons c rest =>
      rw [walkStack, List.getElem?_cons_succ, ih, Function.iterate_succ_apply, List.reverse_cons,
        Cursor.turn_append_singleton, List.reverse_append]

/-- Pending trees are visited one after another, each as if it were alone. -/
theorem walkStack_append (stack rest : List Cursor) :
    walkStack (stack ++ rest) = walkStack stack ++ walkStack rest := by
  match stack with
  | [] => simp [walkStack]
  | c :: stack =>
    have ih := walkStack_append (c.children ++ stack) rest
    rw [List.cons_append, walkStack, walkStack, ← List.append_assoc, ih, List.cons_append]
termination_by Cursor.pending stack
decreasing_by exact Cursor.pending_children c stack

namespace Node

theorem length_preorders (nodes : List Node) : (preorders nodes).length = sizes nodes := by
  induction nodes using rowInduction with
  | nil => rfl
  | cons node nodes below rest =>
    have hsize : node.size = 1 + sizes node.children := by cases node; rfl
    rw [preorders, preorder_eq, List.length_append, List.length_cons, below, rest, sizes, hsize,
      Nat.add_comm 1]

theorem length_preorder (root : Node) : root.preorder.length = root.size := by
  simpa [preorders, sizes] using length_preorders [root]

end Node

/-! ## Addresses -/

/-- What stands at an address, which has the number of a child for each step on the way. -/
def Cursor.at? (c : Cursor) : List ℕ → Option Cursor
  | [] => some c
  | i :: address => c.children[i]?.bind fun child => child.at? address

/-- One address comes before another: it is on the way to the other, or where they part it takes an earlier
child. -/
def Precedes (a b : List ℕ) : Prop :=
  (a <+: b ∧ a ≠ b) ∨ ∃ way i j, i < j ∧ way ++ [i] <+: a ∧ way ++ [j] <+: b

namespace Precedes

theorem nil_cons (i : ℕ) (a : List ℕ) : Precedes [] (i :: a) := .inl ⟨List.nil_prefix, by simp⟩

theorem cons (h : Precedes a b) (i : ℕ) : Precedes (i :: a) (i :: b) := by
  rcases h with ⟨hway, hne⟩ | ⟨way, j, k, hlt, ha, hb⟩
  · exact .inl ⟨List.cons_prefix_cons.mpr ⟨rfl, hway⟩, by simpa using hne⟩
  · exact .inr ⟨i :: way, j, k, hlt, List.cons_prefix_cons.mpr ⟨rfl, ha⟩,
      List.cons_prefix_cons.mpr ⟨rfl, hb⟩⟩

theorem of_lt (h : i < j) (a b : List ℕ) : Precedes (i :: a) (j :: b) :=
  .inr ⟨[], i, j, h, by simp, by simp⟩

theorem lt (h : Precedes a b) : a < b := by
  rcases h with ⟨⟨rest, rfl⟩, hne⟩ | ⟨way, i, j, hlt, ⟨below, rfl⟩, ⟨beside, rfl⟩⟩
  · obtain ⟨k, rest, rfl⟩ := List.exists_cons_of_ne_nil (show rest ≠ [] by rintro rfl; simp at hne)
    simpa using List.append_left_lt (List.nil_lt_cons k rest)
  · rw [List.append_assoc, List.append_assoc]
    exact List.append_left_lt (List.cons_lt_cons_iff.mpr (.inl hlt))

end Precedes

namespace Node

mutual

/-- The addresses of a tree, the root first. -/
def addresses : Node → List (List ℕ)
  | mk _ _ _ _ _ children => [] :: addressesFrom 0 children

/-- The addresses of the trees of a row, which is numbered from `i` on. -/
def addressesFrom (i : ℕ) : List Node → List (List ℕ)
  | [] => []
  | node :: nodes => node.addresses.map (i :: ·) ++ addressesFrom (i + 1) nodes

end

theorem addresses_eq (node : Node) : node.addresses = [] :: addressesFrom 0 node.children := by
  cases node
  rfl

theorem mem_addressesFrom : a ∈ addressesFrom i nodes ↔
    ∃ j rest node, a = (i + j) :: rest ∧ nodes[j]? = some node ∧ rest ∈ node.addresses := by
  induction nodes generalizing i with
  | nil => simp [addressesFrom]
  | cons node nodes ih =>
    rw [addressesFrom, List.mem_append, List.mem_map, ih]
    constructor
    · rintro (⟨rest, hrest, rfl⟩ | ⟨j, rest, inner, rfl, hinner, hrest⟩)
      · exact ⟨0, rest, node, rfl, rfl, hrest⟩
      · exact ⟨j + 1, rest, inner, by rw [Nat.add_assoc, Nat.add_comm 1], hinner, hrest⟩
    · rintro ⟨_ | j, rest, inner, rfl, hinner, hrest⟩
      · obtain rfl := Option.some.inj hinner
        exact .inl ⟨rest, hrest, rfl⟩
      · exact .inr ⟨j, rest, inner, by rw [Nat.add_assoc, Nat.add_comm 1], hinner, hrest⟩

theorem pairwise_addressesFrom (i : ℕ) (nodes : List Node) :
    (addressesFrom i nodes).Pairwise Precedes := by
  induction nodes using rowInduction generalizing i with
  | nil => exact List.Pairwise.nil
  | cons node nodes below rest =>
    rw [addressesFrom, List.pairwise_append, List.pairwise_map, addresses_eq, List.pairwise_cons]
    refine ⟨⟨fun a ha => ?_, (below 0).imp fun h => h.cons i⟩, rest (i + 1), ?_⟩
    · obtain ⟨j, rest, -, rfl, -⟩ := mem_addressesFrom.mp ha
      exact .cons (.nil_cons _ _) i
    · intro a ha b hb
      obtain ⟨rest, -, rfl⟩ := List.mem_map.mp ha
      obtain ⟨j, beside, -, rfl, -⟩ := mem_addressesFrom.mp hb
      exact .of_lt (by omega) rest beside

theorem pairwise_addresses (root : Node) : root.addresses.Pairwise Precedes := by
  rw [addresses_eq, List.pairwise_cons]
  refine ⟨fun a ha => ?_, pairwise_addressesFrom 0 root.children⟩
  obtain ⟨j, rest, -, rfl, -⟩ := mem_addressesFrom.mp ha
  exact .nil_cons _ _

end Node

theorem Cursor.getElem?_children (c : Cursor) (i : ℕ) :
    c.children[i]? = c.node.children[i]?.map fun child => ⟨child, c.node :: c.above⟩ := by
  rw [Cursor.children, List.getElem?_map]

/-- **The addresses of a tree** are those at which something stands. -/
theorem mem_addresses_iff : a ∈ c.node.addresses ↔ ∃ inner, c.at? a = some inner := by
  induction a generalizing c with
  | nil => simp [Node.addresses_eq, Cursor.at?]
  | cons i a ih =>
    rw [Node.addresses_eq, List.mem_cons, Node.mem_addressesFrom, Cursor.at?, Cursor.getElem?_children]
    cases hchild : c.node.children[i]? with
    | none => simp [hchild]
    | some child => simp [hchild, ← ih]

theorem forall₂_walkStack (i : ℕ) (nodes above : List Node) :
    List.Forall₂ (fun a c => ∃ j rest node, a = (i + j) :: rest ∧ nodes[j]? = some node ∧
        Cursor.at? ⟨node, above⟩ rest = some c)
      (Node.addressesFrom i nodes) (walkStack (nodes.map fun node => ⟨node, above⟩)) := by
  induction nodes using Node.rowInduction generalizing i above with
  | nil => simp [Node.addressesFrom, walkStack]
  | cons node nodes below rest =>
    have hwalk : walkStack ((node :: nodes).map fun node => ⟨node, above⟩) =
        (⟨node, above⟩ :: walkStack (Cursor.children ⟨node, above⟩)) ++
          walkStack (nodes.map fun node => ⟨node, above⟩) := by
      rw [List.map_cons, walkStack, walkStack_append, List.cons_append]
    rw [hwalk, Node.addressesFrom, Node.addresses_eq, List.map_cons]
    -- the first tree of the row: its root, then what is below it; after it the trees that follow
    refine List.rel_append (.cons ⟨0, [], node, rfl, rfl, rfl⟩ ?_) ((rest (i + 1) above).imp ?_)
    · rw [List.forall₂_map_left_iff]
      refine (below 0 (node :: above)).imp ?_
      rintro a c ⟨j, rest, child, rfl, hchild, hc⟩
      refine ⟨0, _, node, rfl, rfl, ?_⟩
      rw [Cursor.at?, Cursor.getElem?_children, Nat.zero_add, hchild]
      exact hc
    · rintro a c ⟨j, rest, inner, rfl, hinner, hc⟩
      exact ⟨j + 1, rest, inner, by rw [Nat.add_assoc, Nat.add_comm 1], hinner, hc⟩

/-- **The nodes of a tree are visited at their addresses**, one after another. -/
theorem forall₂_walk (root : Node) :
    List.Forall₂ (fun a c => (Cursor.top root).at? a = some c) root.addresses (walk root) := by
  rw [walk, walkStack, Node.addresses_eq, List.append_nil]
  refine .cons rfl ((forall₂_walkStack 0 root.children [root]).imp ?_)
  rintro a c ⟨j, rest, child, rfl, hchild, hc⟩
  have htop : (Cursor.top root).children[0 + j]? = some ⟨child, [root]⟩ := by
    rw [Cursor.getElem?_children, Nat.zero_add]
    exact congrArg _ hchild
  rw [Cursor.at?, htop]
  exact hc

/-! ## The visit -/

/-- The row has the addresses of all nodes of a tree, each one once, and in document order. -/
structure InDocumentOrder (root : Node) (row : List (List ℕ)) : Prop where
  all : ∀ a, a ∈ row ↔ ∃ c, (Cursor.top root).at? a = some c
  once : row.Nodup
  ordered : ∀ (i j : ℕ) (a b : List ℕ), row[i]? = some a → row[j]? = some b → (i < j ↔ Precedes a b)

/-- **The addresses of a tree come in document order**, and in no other. -/
theorem inDocumentOrder_addresses (root : Node) : InDocumentOrder root root.addresses := by
  have hpairwise := Node.pairwise_addresses root
  refine ⟨fun a => mem_addresses_iff (c := .top root), hpairwise.imp fun h => h.lt.ne, ?_⟩
  intro i j a b ha hb
  have hbefore {i j : ℕ} {a b : List ℕ} (ha : root.addresses[i]? = some a)
      (hb : root.addresses[j]? = some b) (hlt : i < j) : Precedes a b := by
    obtain ⟨hi, rfl⟩ := List.getElem?_eq_some_iff.mp ha
    obtain ⟨hj, rfl⟩ := List.getElem?_eq_some_iff.mp hb
    exact List.pairwise_iff_getElem.mp hpairwise i j hi hj hlt
  refine ⟨hbefore ha hb, fun hprecedes => ?_⟩
  rcases Nat.lt_trichotomy i j with hlt | rfl | hlt
  · exact hlt
  · obtain rfl := Option.some.inj (ha.symm.trans hb)
    exact absurd hprecedes.lt (lt_irrefl _)
  · exact absurd (hbefore hb ha hlt).lt (lt_asymm hprecedes.lt)

/-- **The visit of a tree ends** after as many turns as the tree has nodes, each of which visits the node that
is last on the stack. What it goes through is the row of nodes in preorder: every node of the tree once, a node
before those below it, and these before the siblings that follow. -/
theorem walk_exact (root : Node) :
    (∀ n, (Cursor.turn^[n] [.top root] = [] ↔ root.size ≤ n) ∧
      (walk root)[n]? = (Cursor.turn^[n] [.top root]).getLast?) ∧
    (walk root).map (·.node) = root.preorder ∧
    ∃ row, InDocumentOrder root row ∧
      List.Forall₂ (fun a c => (Cursor.top root).at? a = some c) row (walk root) := by
  have hvisit (n : ℕ) : (walk root)[n]? = (Cursor.turn^[n] [.top root]).getLast? :=
    getElem?_walkStack [.top root] n
  have hlength : (walk root).length = root.size := by
    rw [← Node.length_preorder, ← walk_map_node, List.length_map]
  refine ⟨fun n => ⟨?_, hvisit n⟩, walk_map_node root, root.addresses, inDocumentOrder_addresses root,
    forall₂_walk root⟩
  rw [← List.getLast?_eq_none_iff, ← hvisit, List.getElem?_eq_none_iff, hlength]

end Lintel.Syntax
