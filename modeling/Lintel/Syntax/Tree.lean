import Lintel.Text.Bytes

/-!
# Syntax trees

A node has a grammatical type, covers a range of bytes, may fill a named field of its parent, and has
children. `walk` visits a tree with a stack of pending nodes, each with the nodes above it; the visits
come in document order, a node before its children (`Node.preorder`).
-/

namespace Lintel.Syntax

/-- A node of a syntax tree. Tokens that the grammar does not name are not `named`. -/
inductive Node where
  | mk (type : String) (start stop : Nat) (field : Option String) (named : Bool)
      (children : List Node)
  deriving Inhabited

namespace Node

/-- The grammatical type. -/
def type : Node → String
  | mk type _ _ _ _ _ => type

/-- The first byte. -/
def start : Node → Nat
  | mk _ start _ _ _ _ => start

/-- The byte after the last. -/
def stop : Node → Nat
  | mk _ _ stop _ _ _ => stop

/-- The field of the parent that the node fills. -/
def field : Node → Option String
  | mk _ _ _ field _ _ => field

/-- The grammar names the node. -/
def named : Node → Bool
  | mk _ _ _ _ named _ => named

/-- The children in document order. -/
def children : Node → List Node
  | mk _ _ _ _ _ children => children

/-- The node as the filler of a field. -/
def inField (name : String) : Node → Node
  | mk type start stop _ named children => mk type start stop (some name) named children

/-- The first child in a field. -/
def child? (node : Node) (name : String) : Option Node :=
  node.children.find? (·.field == some name)

mutual

/-- The number of nodes. -/
def size : Node → Nat
  | mk _ _ _ _ _ children => 1 + sizes children

/-- The number of nodes of a row of trees. -/
def sizes : List Node → Nat
  | [] => 0
  | node :: nodes => size node + sizes nodes

end

mutual

/-- The nodes in document order, each before its children. -/
def preorder : Node → List Node
  | node@(mk _ _ _ _ _ children) => node :: preorders children

/-- The nodes of a row of trees. -/
def preorders : List Node → List Node
  | [] => []
  | node :: nodes => preorder node ++ preorders nodes

end

theorem size_lt_of_mem {node child : Node} (h : child ∈ node.children) : child.size < node.size := by
  obtain ⟨_, _, _, _, _, children⟩ := node
  simp only [Node.children] at h
  simp only [size]
  induction children with
  | nil => simp at h
  | cons x xs ih =>
    simp only [sizes]
    rcases List.mem_cons.1 h with rfl | h
    · omega
    · have := ih h
      omega

theorem size_lt_of_child? {node child : Node} {name : String} (h : node.child? name = some child) :
    child.size < node.size :=
  size_lt_of_mem (List.mem_of_find?_eq_some h)

end Node

/-- A node with the nodes above it, nearest first. -/
structure Cursor where
  node : Node
  above : List Node

namespace Cursor

/-- The root of a tree. -/
def top (root : Node) : Cursor := ⟨root, []⟩

/-- The children with the nodes above them. -/
def children (c : Cursor) : List Cursor := c.node.children.map fun child => ⟨child, c.node :: c.above⟩

/-- The number of nodes below the pending ones, themselves included. -/
def pending (stack : List Cursor) : Nat := Node.sizes (stack.map (·.node))

theorem sizes_append (xs ys : List Node) :
    Node.sizes (xs ++ ys) = Node.sizes xs + Node.sizes ys := by
  induction xs with
  | nil => simp [Node.sizes]
  | cons x xs ih => simp [Node.sizes, ih, Nat.add_assoc]

theorem pending_children (c : Cursor) (rest : List Cursor) :
    pending (c.children ++ rest) < pending (c :: rest) := by
  have h : c.children.map (·.node) = c.node.children := by
    simp [children, Function.comp_def]
  simp only [pending, List.map_append, List.map_cons, h, sizes_append, Node.sizes]
  cases hn : c.node with
  | mk _ _ _ _ _ cs => simp [Node.children, Node.size]

end Cursor

/-- Visits the pending nodes: the next one, then its children, then the others. -/
def walkStack : List Cursor → List Cursor
  | [] => []
  | c :: rest => c :: walkStack (c.children ++ rest)
termination_by stack => Cursor.pending stack
decreasing_by exact Cursor.pending_children c rest

/-- Every node of a tree, in document order, each before its children. -/
def walk (root : Node) : List Cursor := walkStack [.top root]

end Lintel.Syntax
