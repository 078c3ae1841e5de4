import Persona.Yaml.Decoder

/-!
# Decoding without expectation

The keys of a mapping that brings in others are decoded as what they are, so that
they can be looked up. Lists and mappings cannot be: one that is a key ends the
decoding, as a malformed document does.
-/

namespace Persona.Yaml

/-- No two keys count as the same. -/
def distinctKeys : List (Node × Node) → Bool
  | [] => true
  | (key, _) :: entries =>
    entries.all (fun other => !key.sameKey other.1) && distinctKeys entries

/-- The key of an entry that brings in other entries. -/
def Node.isMergeKey : Node → Bool
  | .scalar s =>
    s.text = "<<" && (if s.isUntagged then !s.quoted else s.tagName? = some "merge")
  | _ => false

/-- A scalar that is a text and not marked as anything else. -/
def Scalar.isWord (s : Scalar) : Bool :=
  if s.isUntagged then (match s.meaning? with
    | some (.text _) => true
    | _ => false)
  else s.tagName? = some "str"

namespace Document

/-- The keys of a mapping are texts, those that bring in others aside. -/
def hasWordKeys (d : Document) (entries : List (Node × Node)) : Bool :=
  entries.all fun (key, _) =>
    key.isMergeKey || (match d.resolve key with
      | some (.scalar s) => s.isWord
      | _ => false)

/-- The mapping that a node brings in, written out or named by an alias. -/
def isMapping (d : Document) (node : Node) : Bool :=
  match d.resolve node with
  | some (.mapping _) => true
  | _ => false

/-- Decode the mappings that an entry brings in: one, or a list that is written out.
Anything else is malformed. -/
def forMerged {α : Type} (d : Document) (decode : α → Node → Decoder α) (value : α)
    (node : Node) :
    Decoder α :=
  let nodes := match node with
    | .list items => items
    | node => [node]
  nodes.foldlM (fun value node =>
    if d.isMapping node then d.visit node (decode value) else throw .malformed) value

mutual

/-- Decode a node to whatever it is, as deep as the `fuel` allows. A node that contains
itself is malformed. A mapping that repeats a key has no shape. -/
def readShape (d : Document) : (fuel : Nat) → Node → Decoder (Option Shape)
  | 0, _ => throw .malformed
  | fuel + 1, node => d.visit node fun
    | .scalar s => if s.meaning?.isSome then return some .scalar else throw .malformed
    | .list items => do
      for item in items do
        let _ ← readShape d fuel item
      return some .list
    | .mapping entries => do
      let words := d.hasWordKeys entries
      if ← readMapping d fuel words false entries then
        return some (if words then .record else .mapping)
      else return none
    | .alias _ _ => throw .malformed

/-- Decode the entries of a mapping and those it brings in, and say whether its keys are
distinct. `words` says that only texts can be keys. -/
def readMapping (d : Document) : (fuel : Nat) → (words merged : Bool) → List (Node × Node) →
    Decoder Bool
  | 0, _, _, _ => throw .malformed
  | fuel + 1, words, merged, entries => do
    if !distinctKeys entries then
      Decoder.mismatch
      return false
    else
      for (key, value) in entries do
        if !key.isMergeKey then
          match ← readShape d fuel key with
          | none => pure ()
          | some .scalar =>
            let _ ← readShape d fuel value
          | some shape =>
            if words then Decoder.mismatch
            else if merged then throw (.incomparable shape)
            else throw .malformed
      match entries.find? fun entry => entry.1.isMergeKey with
      | none => return true
      | some (_, node) =>
        d.forMerged (fun _ node =>
          match node with
          | .mapping entries => do
            let _ ← readMapping d fuel words true entries
          | _ => throw .malformed) () node
        return true

end

/-- Decode the keys of a mapping so that they can be looked up. -/
def readKeys (d : Document) (fuel : Nat) (entries : List (Node × Node)) : Decoder Unit := do
  for (key, _) in entries do
    match ← d.readShape fuel key with
    | none | some .scalar => pure ()
    | some shape => throw (.incomparable shape)

end Document

end Persona.Yaml
