import Persona.Text.Character

/-!
# Templates without values

A percent sign starts a placeholder: flags, an index in brackets, a width, a
precision and the character that says how a value is shown. A text that is used
as a template with no values at all keeps everything else; a placeholder turns
into a note about what is missing, and `%%` into one percent sign.
-/

namespace Persona.Template

/-- The characters that may stand as flags behind the percent sign. -/
def isFlag (b : UInt8) : Bool := b = 35 || b = 48 || b = 43 || b = 45 || b = 32

/-- A number is too long when what stands before its last digit exceeds a million. -/
def isTooLong (digits : Text) : Bool := 1000000 < Text.digitsValue digits.dropLast

/-- Skip a number, and say whether there was one. A number that is too long swallows the
rest of the text and counts as none. -/
def skipNumber (text : Text) : Bool × Text :=
  let digits : Text := text.takeWhile Text.isDigitByte
  if isTooLong digits then (false, []) else (!digits.isEmpty, text.drop digits.length)

/-- A placeholder of which a part is read: what follows, what has been noted, whether an
index is out of place or names no value, and whether an index was read last. -/
structure Placeholder where
  rest : Text
  notes : Text := []
  badIndex : Bool := false
  afterIndex : Bool := false

namespace Placeholder

/-- Read an index in brackets, if there is one. There are no values, so every index is
bad; brackets that hold no number are passed over, and a bracket that is not closed is
only itself. -/
def index (p : Placeholder) : Placeholder :=
  match p.rest with
  | 91 :: more =>
    let inside : Text := more.takeWhile (· != 93)
    if more.length < 2 || inside.length = more.length then
      { p with rest := more, badIndex := true, afterIndex := false }
    else
      { p with rest := more.drop (inside.length + 1), badIndex := true,
               afterIndex := !inside.isEmpty && inside.all Text.isDigitByte &&
                 !isTooLong inside }
  | _ => { p with afterIndex := false }

/-- Read the width. One that is to be taken from the values is noted as missing; one
behind an index is out of place. -/
def width (p : Placeholder) : Placeholder :=
  match p.rest with
  | 42 :: more =>
    { p with rest := more, notes := p.notes ++ "%!(BADWIDTH)", afterIndex := false }
  | _ =>
    let (present, rest) := skipNumber p.rest
    { p with rest := rest, badIndex := p.badIndex || (p.afterIndex && present) }

/-- Read the precision, if there is one. A point that ends the text starts none. -/
def precision (p : Placeholder) : Placeholder :=
  match p.rest with
  | 46 :: next :: more =>
    let q := index { p with rest := next :: more, badIndex := p.badIndex || p.afterIndex }
    match q.rest with
    | 42 :: rest =>
      { q with rest := rest, notes := q.notes ++ "%!(BADPREC)", afterIndex := false }
    | _ => { q with rest := (skipNumber q.rest).2 }
  | _ => p

/-- Read the character that closes the placeholder. -/
def verb (p : Placeholder) : Placeholder :=
  match p.rest with
  | [] => { p with notes := p.notes ++ "%!(NOVERB)" }
  | 37 :: rest => { p with rest := rest, notes := p.notes ++ "%" }
  | first :: rest =>
    let c := Character.read first rest
    let missing : Text := if p.badIndex then "(BADINDEX)" else "(MISSING)"
    { p with rest := rest.drop (c.width - 1),
             notes := p.notes ++ "%!" ++ Character.encode c.code ++ missing }

/-- Read a placeholder behind its percent sign. -/
def read (text : Text) : Placeholder :=
  let p := (index { rest := text.dropWhile isFlag }).width.precision
  (if p.afterIndex then p else p.index).verb

end Placeholder

/-- Write a template whose first `pending` bytes belong to a placeholder
already written. -/
def expandAfter : (pending : Nat) → Text → Text
  | _, [] => []
  | pending + 1, _ :: rest => expandAfter pending rest
  | 0, b :: rest =>
    if b = 37 then
      let p := Placeholder.read rest
      p.notes ++ expandAfter (rest.length - p.rest.length) rest
    else b :: expandAfter 0 rest

/-- A template written without any values. -/
def expand (template : Text) : Text := expandAfter 0 template

end Persona.Template
