import Persona.Yaml.Shape

/-!
# Decoding mappings into structures

A structure is decoded from a mapping field by field. Entries whose names are not
known are passed over, and fields that are not mentioned keep their values. An entry
can also bring in all entries of another mapping, or of several: such a merged entry
counts only if its name does not occur otherwise, and of several the first one
counts.
-/

namespace Persona.Yaml

/-- The fields of a structure: how each of them is set from a node. -/
abbrev Fields (α : Type) := List (Text × (α → Node → Decoder α))

namespace Document

/-- Decode a scalar. Nothing leaves the value as it was, and so does one of the
wrong kind. -/
def readScalar {α : Type} (d : Document) (read : Scalar → Meaning → Option α) (old : α)
    (node : Node) :
    Decoder α :=
  d.visit node fun
    | .scalar s =>
      match s.meaning? with
      | none => throw .malformed
      | some .absent => return old
      | some meaning =>
        match read s meaning with
        | some value => return value
        | none => do
          Decoder.mismatch
          return old
    | _ => do
      Decoder.mismatch
      return old

/-- The text of a scalar that means something. -/
def textOfScalar (s : Scalar) : Meaning → Text
  | .text value => value
  | _ => s.text

/-- Decode a text; whatever a scalar means, it can be a text. -/
def readText (d : Document) : Text → Node → Decoder Text :=
  d.readScalar fun s meaning => some (textOfScalar s meaning)

/-- Decode a key to its name. It has to be a scalar; one that means nothing
has no name. -/
def readName (d : Document) (key : Node) : Decoder (Option Text) :=
  d.readScalar (fun s meaning => some (some (textOfScalar s meaning))) none key

/-- Decode the entries of a mapping but for those it brings in. A name that was `seen` is
not set again: a merged mapping may repeat it, while the mapping itself may not. -/
def readOwn {α : Type} (d : Document) (fields : Fields α) (merged : Bool) (value : α)
    (seen : List Text) :
    List (Node × Node) → Decoder (α × List Text)
  | [] => return (value, seen)
  | (key, node) :: entries => do
    if key.isMergeKey then readOwn d fields merged value seen entries
    else
      let name? ← d.readName key
      match name?, name?.bind (fields.lookup ·) with
      | some name, some read =>
        if seen.contains name then
          if !merged then Decoder.mismatch
          readOwn d fields merged value seen entries
        else
          let new ← read value node
          readOwn d fields merged new (name :: seen) entries
      | _, _ => readOwn d fields merged value seen entries

/-- Decode the entries of a mapping and those it brings in. A mapping that brings in
itself is malformed; no other one is nested as deep as the document has tokens. -/
def readEntries {α : Type} (d : Document) (fields : Fields α) :
    (fuel : Nat) → (merged : Bool) → (value : α) → (seen : List Text) → List (Node × Node) →
      Decoder (α × List Text)
  | 0, _, _, _, _ => throw .malformed
  | fuel + 1, merged, value, seen, entries => do
    if !distinctKeys entries then
      Decoder.mismatch
      return (value, seen)
    else
      let own ← readOwn d fields merged value seen entries
      match entries.find? fun entry => entry.1.isMergeKey with
      | none => return own
      | some (_, node) =>
        if !merged then d.readKeys (fuel + 1) entries
        d.forMerged (fun (value, seen) node =>
          match node with
          | .mapping entries => readEntries d fields fuel true value seen entries
          | _ => throw .malformed) own node

/-- Decode a structure over what was there before. -/
def readFields {α : Type} (d : Document) (fields : Fields α) (old : α) (node : Node) :
    Decoder α :=
  d.visit node fun
    | .mapping entries => do
      let (value, _) ← d.readEntries fields (d.size + 1) false old [] entries
      return value
    | .scalar s =>
      match s.meaning? with
      | none => throw .malformed
      | some .absent => return old
      | some _ => do
        Decoder.mismatch
        return old
    | _ => do
      Decoder.mismatch
      return old

end Document

end Persona.Yaml
