import Persona.Yaml.Node

/-!
# Going through a document

A document is decoded by going through its nodes. An alias has its target gone
through once more, so that a short text can stand for very many nodes. Therefore the
nodes are counted, and a document is refused once nearly all of those gone through
stood behind an alias.

A node of the wrong kind makes a document malformed, but the nodes behind it are
still gone through. Other faults stop at once.
-/

namespace Persona.Yaml

/-- What a node can be decoded to if nothing is expected of it. A mapping is a record if
all its keys are texts. -/
inductive Shape where
  | scalar
  | list
  | record
  | mapping
deriving DecidableEq, Repr

/-- The name by which a shape is reported. -/
def Shape.text : Shape → Text
  | .scalar => "interface \x7b\x7d"
  | .list => "[]interface \x7b\x7d"
  | .record => "map[string]interface \x7b\x7d"
  | .mapping => "map[interface \x7b\x7d]interface \x7b\x7d"

/-- Why the rest of a document is not gone through: it is malformed, or a value that
cannot be compared was to be looked up as a key. -/
inductive Stop where
  | malformed
  | incomparable (shape : Shape)
deriving DecidableEq, Repr

/-- How far a document was gone through: the nodes so far, those of them behind an alias,
whether the present node is, and whether a node was of the wrong kind. -/
structure Progress where
  nodes : Nat := 0
  aliased : Nat := 0
  inAlias : Bool := false
  faulty : Bool := false
deriving DecidableEq, Repr

namespace Progress

/-- The number of nodes up to which nearly all may stand behind aliases. -/
def shortDocument : Nat := 400000

/-- The number of nodes from which on few may stand behind aliases. -/
def longDocument : Nat := 4000000

/-- The share of the nodes that may stand behind aliases: 99 percent in a short document
and 10 percent in a long one, in between on the line from one to the other. -/
def allowedShare (nodes : Nat) : Binary64 :=
  let percent (n : Nat) : Binary64 := .ofRatio false n 100
  let whole (n : Nat) : Binary64 := .ofRatio false n 1
  if nodes ≤ shortDocument then percent 99
  else if longDocument ≤ nodes then percent 10
  else
    let way := Binary64.div (whole (nodes - shortDocument))
      (whole (longDocument - shortDocument))
    .sub (percent 99) (.mul (percent 89) way)

/-- Too many of the nodes stand behind aliases. Small numbers are never too many. -/
def isExcessive (p : Progress) : Bool :=
  100 < p.aliased && 1000 < p.nodes &&
    (allowedShare p.nodes).lt (.div (.ofRatio false p.aliased 1) (.ofRatio false p.nodes 1))

/-- One more node. -/
def next (p : Progress) : Progress :=
  { p with nodes := p.nodes + 1, aliased := if p.inAlias then p.aliased + 1 else p.aliased }

end Progress

/-- A part of a document that is decoded. -/
abbrev Decoder (α : Type) := StateT Progress (Except Stop) α

namespace Decoder

/-- Count one more node. -/
def count : Decoder Unit := do
  modify Progress.next
  if (← get).isExcessive then throw .malformed

/-- The node is of the wrong kind. -/
def mismatch : Decoder Unit := modify fun p => { p with faulty := true }

/-- Decode what stands behind an alias. -/
def behindAlias {α : Type} (decode : Decoder α) : Decoder α := do
  let outside := (← get).inAlias
  modify fun p => { p with inAlias := true }
  let value ← decode
  modify fun p => { p with inAlias := outside }
  return value

end Decoder

namespace Document

/-- Decode a node, or in place of an alias its target. -/
def visit {α : Type} (d : Document) (node : Node) (decode : Node → Decoder α) : Decoder α := do
  Decoder.count
  match node with
  | .alias _ target =>
    match d.anchored.lookup target with
    | some node =>
      Decoder.behindAlias do
        Decoder.count
        decode node
    | none => throw .malformed
  | node => decode node

/-- Decode a whole document. -/
def decode {α : Type} (d : Document) (root : Node → Decoder α) : Except Stop α := do
  let (value, progress) ← (do Decoder.count; root d.root : Decoder α).run {}
  if progress.faulty then throw .malformed else return value

end Document

end Persona.Yaml
