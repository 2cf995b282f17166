import Lintel.Syntax.Tree

/-!
# Places in document order

The nodes of a tree are numbered in document order, each before its children (`places`). The children of
a node and the nodes above it are found by their numbers.
-/

namespace Lintel.Syntax

/-- The nodes of a tree by their numbers. -/
def places (root : Node) : Array Node := ((walk root).map (·.node)).toArray

/-- The numbers of nodes that follow one another from a number on, each with its node. -/
def numberedFrom : Nat → List Node → List (Nat × Node)
  | _, [] => []
  | i, node :: nodes => (i, node) :: numberedFrom (i + node.size) nodes

/-- The children of the node with a number. -/
def childrenAt (nodes : Array Node) (i : Nat) : List (Nat × Node) :=
  numberedFrom (i + 1) ((nodes[i]?.map (·.children)).getD [])

/-- The nodes above the node with a number, nearest first. -/
def aboveAt (nodes : Array Node) (i : Nat) : List (Nat × Node) :=
  ((List.range i).reverse.filterMap fun k => nodes[k]?.map fun node => (k, node)).filter
    fun (k, node) => i < k + node.size

end Lintel.Syntax
