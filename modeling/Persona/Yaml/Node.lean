import Persona.Yaml.Scalar

/-!
# Documents that were read

A document is a tree of nodes, some of which carry an anchor. An alias stands for
the node with an anchor, which may be one that it is itself a part of; so an alias
only names its target, and the document keeps the nodes with anchors beside the
tree. Keys of a mapping can be any nodes.
-/

namespace Persona.Yaml

/-- A node. An alias has the name of its anchor and the number of its target. -/
inductive Node where
  | scalar (value : Scalar)
  | list (items : List Node)
  | mapping (entries : List (Node × Node))
  | alias (name : Text) (target : Nat)

/-- Nothing: a plain scalar without text. -/
def Node.absent : Node := .scalar { quoted := false, text := [] }

/-- Two keys count as the same if they are of one kind and, as far as they are written
out, have the same text. -/
def Node.sameKey : Node → Node → Bool
  | .scalar a, .scalar b => a.text == b.text
  | .alias a _, .alias b _ => a == b
  | .list _, .list _ => true
  | .mapping _, .mapping _ => true
  | _, _ => false

/-- A document: its root and the nodes with anchors, by their numbers. It was read from
`size` tokens, of which each node took at least one. -/
structure Document where
  root : Node
  anchored : List (Nat × Node) := []
  size : Nat := 0

/-- What a node stands for: an alias stands for its target. -/
def Document.resolve (d : Document) : Node → Option Node
  | .alias _ target => d.anchored.lookup target
  | node => some node

end Persona.Yaml
