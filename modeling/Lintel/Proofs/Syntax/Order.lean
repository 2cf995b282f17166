import Lintel.Proofs.Text.Encoded
import Lintel.Syntax.Source
import Mathlib.Data.List.Basic
import Mathlib.Data.List.Pairwise

/-!
# Document order

In a well-formed tree the children of a node lie within its range, one after another. The line and the column
of a byte come in the order of the bytes, whatever the bytes are.

* `Node.inOrder`: the tree is well-formed; `Node.range_of_mem_preorders`: so are the trees within it;
* `walk_map_node`: the nodes that are visited are those of the tree, in document order;
* **`Node.pairwise_flatMap_preorders_iff`**: what is found at the nodes of a tree comes in order exactly if
  what is found at a node never lies after what is found below it;
* `Position.NotAfter`: the order of lines and, within a line, of columns;
* **`notAfter_positionAt`**: a byte that does not come after another has no later position.
-/

namespace Lintel.Syntax

namespace Node

mutual

/-- The range of the node is one, and its children lie in it in document order; so do theirs. -/
def inOrder : Node → Bool
  | mk _ start stop _ _ children => inOrders start stop children

/-- The nodes lie one after another from `low` up to `high`. -/
def inOrders (low high : Nat) : List Node → Bool
  | [] => low ≤ high
  | node :: nodes => low ≤ node.start && inOrder node && inOrders node.stop high nodes

end

theorem inOrders_cons {low high : ℕ} {node : Node} {nodes : List Node} :
    inOrders low high (node :: nodes) = true ↔
      low ≤ node.start ∧ node.inOrder = true ∧ inOrders node.stop high nodes = true := by
  simp [inOrders, and_assoc]

theorem inOrder_eq (node : Node) : node.inOrder = inOrders node.start node.stop node.children := by
  cases node
  rfl

theorem preorder_eq (node : Node) : node.preorder = node :: preorders node.children := by
  cases node
  rfl

theorem preorders_eq_flatMap (nodes : List Node) : preorders nodes = nodes.flatMap preorder := by
  induction nodes with
  | nil => rfl
  | cons node nodes ih => rw [preorders, ih, List.flatMap_cons]

theorem preorders_append (nodes more : List Node) :
    preorders (nodes ++ more) = preorders nodes ++ preorders more := by
  simp only [preorders_eq_flatMap, List.flatMap_append]

end Node

theorem walkStack_map_node (stack : List Cursor) :
    (walkStack stack).map (·.node) = Node.preorders (stack.map (·.node)) := by
  match stack with
  | [] => rw [walkStack]; rfl
  | c :: rest =>
    have ih := walkStack_map_node (c.children ++ rest)
    have hchildren : c.children.map (·.node) = c.node.children := by
      simp [Cursor.children, Function.comp_def]
    rw [walkStack, List.map_cons, ih, List.map_append, hchildren, Node.preorders_append,
      List.map_cons, Node.preorders, Node.preorder_eq, List.cons_append]
termination_by Cursor.pending stack
decreasing_by exact Cursor.pending_children c rest

/-- **The nodes are visited in document order.** -/
theorem walk_map_node (root : Node) : (walk root).map (·.node) = root.preorder := by
  rw [walk, walkStack_map_node]
  exact List.append_nil _

namespace Node

@[elab_as_elim]
theorem rowInduction {P : List Node → Prop} (nil : P [])
    (cons : ∀ node nodes, P node.children → P nodes → P (node :: nodes)) : ∀ nodes, P nodes
  | [] => nil
  | mk type start stop field named children :: nodes =>
    cons _ _ (rowInduction nil cons children) (rowInduction nil cons nodes)

theorem mem_preorders_cons {below node : Node} {nodes : List Node} :
    below ∈ preorders (node :: nodes) ↔
      below = node ∨ below ∈ preorders node.children ∨ below ∈ preorders nodes := by
  rw [preorders, preorder_eq, List.mem_append, List.mem_cons, or_assoc]

theorem le_of_inOrders {low high : ℕ} {nodes : List Node} (h : inOrders low high nodes = true) :
    low ≤ high := by
  induction nodes using rowInduction generalizing low high with
  | nil => simpa [inOrders] using h
  | cons node nodes below rest =>
    obtain ⟨hlow, hnode, hnodes⟩ := inOrders_cons.mp h
    have := below (inOrder_eq node ▸ hnode)
    have := rest hnodes
    omega

/-- A well-formed tree lies within its range, and so do the trees in it, which are well-formed too. -/
theorem range_of_mem_preorders {low high : ℕ} {nodes : List Node} (h : inOrders low high nodes = true)
    {inner : Node} (hinner : inner ∈ preorders nodes) :
    low ≤ inner.start ∧ inner.stop ≤ high ∧ inner.inOrder = true := by
  induction nodes using rowInduction generalizing low high with
  | nil => exact absurd hinner List.not_mem_nil
  | cons node nodes below rest =>
    obtain ⟨hlow, hnode, hnodes⟩ := inOrders_cons.mp h
    have hchildren := inOrder_eq node ▸ hnode
    have hrange := le_of_inOrders hchildren
    have hhigh := le_of_inOrders hnodes
    rcases mem_preorders_cons.mp hinner with rfl | hbelow | hrest
    · exact ⟨hlow, hhigh, hnode⟩
    · obtain ⟨hstart, hstop, hinner⟩ := below hchildren hbelow
      exact ⟨by omega, by omega, hinner⟩
    · obtain ⟨hstart, hstop, hinner⟩ := rest hnodes hrest
      exact ⟨by omega, by omega, hinner⟩

theorem mem_preorders_of_mem {node : Node} {nodes : List Node} (h : node ∈ nodes) :
    node ∈ preorders nodes := by
  rw [preorders_eq_flatMap, List.mem_flatMap]
  exact ⟨node, h, by rw [preorder_eq]; exact List.mem_cons_self⟩

theorem pairwise_start_of_inOrders {low high : ℕ} {nodes : List Node}
    (h : inOrders low high nodes = true) : nodes.Pairwise fun a b => a.start ≤ b.start := by
  induction nodes generalizing low with
  | nil => exact List.Pairwise.nil
  | cons node nodes ih =>
    obtain ⟨_, hnode, hnodes⟩ := inOrders_cons.mp h
    refine List.Pairwise.cons (fun later hlater => ?_) (ih hnodes)
    have hstop := (range_of_mem_preorders hnodes (mem_preorders_of_mem hlater)).1
    have hrange := le_of_inOrders (inOrder_eq node ▸ hnode)
    omega

/-! ## What is found at nodes -/

section Found

variable {α : Type} {found : Node → List α} {place : α → ℕ} {R : α → α → Prop} {limit : ℕ}

/-- What is found at a node lies in its range and comes in order. -/
structure FoundWithin (found : Node → List α) (place : α → ℕ) : Prop where
  range : ∀ node, node.inOrder = true → ∀ x ∈ found node, node.start ≤ place x ∧ place x ≤ node.stop
  sorted : ∀ node, node.inOrder = true → (found node).Pairwise fun x y => place x ≤ place y

theorem FoundWithin.place_mem (hfound : FoundWithin found place) {low high : ℕ} {nodes : List Node}
    (h : inOrders low high nodes = true) {x : α} (hx : x ∈ (preorders nodes).flatMap found) :
    low ≤ place x ∧ place x ≤ high := by
  obtain ⟨inner, hinner, hx⟩ := List.mem_flatMap.mp hx
  obtain ⟨hlow, hhigh, hinner⟩ := range_of_mem_preorders h hinner
  have := hfound.range inner hinner x hx
  omega

theorem found_of_child {node child : Node} (h : node.inOrder = true) (hchild : child ∈ node.children)
    {find : Node → Option α} (hplace : ∀ member x, find member = some x → place x = member.start) :
    (∀ x ∈ child.children.filterMap find, node.start ≤ place x ∧ place x ≤ node.stop) ∧
      (child.children.filterMap find).Pairwise fun x y => place x ≤ place y := by
  have hnode := inOrder_eq node ▸ h
  obtain ⟨hstart, hstop, hchild⟩ := range_of_mem_preorders hnode (mem_preorders_of_mem hchild)
  have hmembers := inOrder_eq child ▸ hchild
  refine ⟨fun x hx => ?_, ?_⟩
  · obtain ⟨member, hmember, hx⟩ := List.mem_filterMap.mp hx
    obtain ⟨hlow, hhigh, horder⟩ := range_of_mem_preorders hmembers (mem_preorders_of_mem hmember)
    have hrange := le_of_inOrders (inOrder_eq member ▸ horder)
    rw [hplace member x hx]
    omega
  · refine List.Pairwise.filterMap find ?_ (pairwise_start_of_inOrders hmembers)
    intro a b hle x hx y hy
    rw [hplace a x hx, hplace b y hy]
    exact hle

/-- What is found at nodes is in order where no node has anything after what is found below it. -/
def NestedInOrder (found : Node → List α) (R : α → α → Prop) (nodes : List Node) : Prop :=
  ∀ outer ∈ preorders nodes, ∀ inner ∈ preorders outer.children,
    ∀ x ∈ found outer, ∀ y ∈ found inner, R x y

theorem nestedInOrder_cons {node : Node} {nodes : List Node} :
    NestedInOrder found R (node :: nodes) ↔
      (∀ inner ∈ preorders node.children, ∀ x ∈ found node, ∀ y ∈ found inner, R x y) ∧
        NestedInOrder found R node.children ∧ NestedInOrder found R nodes := by
  simp only [NestedInOrder, mem_preorders_cons, or_imp, forall_and, forall_eq]

/-- **What is found in a tree comes in order** exactly if that is so of each node and what is below it:
nodes of which none is above the other are in order anyway. -/
theorem pairwise_flatMap_preorders_iff (hfound : FoundWithin found place)
    (hR : ∀ x y, place x ≤ place y → place y ≤ limit → R x y) {low high : ℕ} {nodes : List Node}
    (h : inOrders low high nodes = true) (hlimit : high ≤ limit) :
    ((preorders nodes).flatMap found).Pairwise R ↔ NestedInOrder found R nodes := by
  induction nodes using rowInduction generalizing low high with
  | nil => simp [preorders, NestedInOrder]
  | cons node nodes below rest =>
    obtain ⟨_, hnode, hnodes⟩ := inOrders_cons.mp h
    have hchildren := inOrder_eq node ▸ hnode
    have hhigh := le_of_inOrders hnodes
    -- the findings at the node are in order, and so are those of this tree and of the ones that follow
    have hown : (found node).Pairwise R := by
      refine (List.Pairwise.and_mem.mp (hfound.sorted node hnode)).imp ?_
      rintro x y ⟨_, hy, hle⟩
      have := hfound.range node hnode y hy
      exact hR x y hle (by omega)
    have hapart : ∀ x ∈ found node ++ (preorders node.children).flatMap found,
        ∀ y ∈ (preorders nodes).flatMap found, R x y := by
      intro x hx y hy
      have hyrange := hfound.place_mem hnodes hy
      have hxrange : place x ≤ node.stop := by
        rcases List.mem_append.mp hx with hx | hx
        · exact (hfound.range node hnode x hx).2
        · exact (hfound.place_mem hchildren hx).2
      exact hR x y (by omega) (by omega)
    have hbelow := below hchildren (by omega)
    have hrest := rest hnodes hlimit
    rw [nestedInOrder_cons, preorders, preorder_eq, List.cons_append, List.flatMap_cons,
      List.flatMap_append, ← List.append_assoc, List.pairwise_append, List.pairwise_append, hbelow,
      hrest]
    simp only [List.mem_flatMap]
    constructor
    · rintro ⟨⟨-, hbelow, hacross⟩, hrest, -⟩
      exact ⟨fun inner hinner x hx y hy => hacross x hx y ⟨inner, hinner, hy⟩, hbelow, hrest⟩
    · rintro ⟨hacross, hbelow, hrest⟩
      refine ⟨⟨hown, hbelow, fun x hx y ⟨inner, hinner, hy⟩ => hacross inner hinner x hx y hy⟩,
        hrest, fun x hx y hy => hapart x hx y (List.mem_flatMap.mpr hy)⟩

end Found

end Node

/-! ## Positions -/

open Text (Bytes decodeLossy)

/-- The position does not come after another one. -/
def Position.NotAfter (a b : Position) : Prop :=
  a.line < b.line ∨ (a.line = b.line ∧ a.column ≤ b.column)

instance (a b : Position) : Decidable (a.NotAfter b) := inferInstanceAs (Decidable (_ ∨ _))

/-- The position of a byte. -/
def positionAt (bytes : Bytes) (i : ℕ) : Position :=
  let before := bytes.take i
  let inLine := bytesInLine before
  ⟨before.count lineFeed + 1, (decodeLossy (sliceBytes bytes (i - inLine) i)).length + 1⟩

theorem Source.positionOf_eq (source : Source) (node : Node) :
    source.positionOf node = positionAt source.bytes node.start := rfl

theorem bytesInLine_le (before : Bytes) : bytesInLine before ≤ before.length := by
  rw [bytesInLine]
  exact Nat.le_trans (List.takeWhile_prefix _).length_le (Nat.le_of_eq List.length_reverse)

theorem bytesInLine_append {before more : Bytes} (h : lineFeed ∉ more) :
    bytesInLine (before ++ more) = bytesInLine before + more.length := by
  have hall : ∀ b ∈ more.reverse, (b != lineFeed) = true := by
    intro b hb
    rw [bne_iff_ne]
    rintro rfl
    exact h (List.mem_reverse.mp hb)
  rw [bytesInLine, List.reverse_append, List.takeWhile_append_of_pos hall, List.length_append,
    List.length_reverse, bytesInLine, Nat.add_comm]

/-- **Positions come in the order of the bytes.** -/
theorem notAfter_positionAt {bytes : Bytes} {i j : ℕ} (hij : i ≤ j) (hj : j ≤ bytes.length) :
    (positionAt bytes i).NotAfter (positionAt bytes j) := by
  obtain ⟨more, rfl⟩ := Nat.exists_eq_add_of_le hij
  have hsplit : bytes.take (i + more) = bytes.take i ++ (bytes.drop i).take more := List.take_add
  have hlength : ((bytes.drop i).take more).length = more := by
    rw [List.length_take, List.length_drop]
    omega
  have hcount : (bytes.take (i + more)).count lineFeed =
      (bytes.take i).count lineFeed + ((bytes.drop i).take more).count lineFeed := by
    rw [hsplit, List.count_append]
  simp only [Position.NotAfter, positionAt, hcount]
  by_cases hfeed : lineFeed ∈ (bytes.drop i).take more
  · have := List.count_pos_iff.mpr hfeed
    exact .inl (by omega)
  · -- the same line: its first byte is the same, and more of its bytes come before
    have hinLine := bytesInLine_le (bytes.take i)
    rw [List.length_take] at hinLine
    right
    rw [List.count_eq_zero.mpr hfeed, hsplit, bytesInLine_append hfeed, hlength]
    generalize bytesInLine (bytes.take i) = inLine at *
    refine ⟨rfl, Nat.add_le_add_right ?_ 1⟩
    rw [show i + more - (inLine + more) = i - inLine by omega, sliceBytes, sliceBytes,
      show i + more - (i - inLine) = (i - (i - inLine)) + more by omega, List.take_add]
    exact Text.length_decodeLossy_append _ _

end Lintel.Syntax
