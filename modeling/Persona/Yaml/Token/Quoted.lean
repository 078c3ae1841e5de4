import Persona.Yaml.Token.Gap

/-!
# Quoted scalars

Between single quotes two quotes stand for one, and there is no other escape.
Between double quotes a backslash starts an escape; before a line break it hides the
break. A mark between documents may not stand at the beginning of a line.
-/

namespace Persona.Yaml

/-- The character whose code is written by hexadecimal digits. -/
def hexCharacter? (digits : List Nat) : Option Nat := do
  let code ← digits.foldl (fun value d => do return (← value) * 16 + (← hexCode? d)) (some 0)
  if (0xD800 ≤ code && code ≤ 0xDFFF) || 0x10FFFF < code then none else some code

/-- The character for a letter behind a backslash. -/
def escaped? (letter : Nat) : Option Nat :=
  [(48, 0), (97, 7), (98, 8), (116, 9), (9, 9), (110, 10), (118, 11), (102, 12), (114, 13),
   (101, 27), (32, 32), (34, 34), (39, 39), (92, 92), (78, 0x85), (95, 0xA0), (76, 0x2028),
   (80, 0x2029)].lookup letter

/-- The number of hexadecimal digits behind a letter that stands behind a backslash. -/
def hexDigits? (letter : Nat) : Option Nat := [(120, 2), (117, 4), (85, 8)].lookup letter

/-- The character of an escape behind its backslash, and how many characters the escape
takes there. -/
def escape? : List Nat → Option (Nat × Nat)
  | [] => none
  | letter :: rest =>
    match hexDigits? letter with
    | some count =>
      if rest.length < count then none
      else (hexCharacter? (rest.take count)).map fun code => (code, count + 1)
    | none => (escaped? letter).map fun code => (code, 1)

/-- The text of a quoted scalar up to its closing quote, and what follows that. The first
`pending` characters belong to something already read, and `lineStart` says that a break
was read last. -/
def quotedAfter (quote : Nat) : (pending : Nat) → (lineStart : Bool) → Gap → List Nat →
    Option (List Nat × List Nat)
  | _, _, _, [] => none
  | pending + 1, lineStart, gap, _ :: rest => quotedAfter quote pending lineStart gap rest
  | 0, lineStart, gap, code :: rest =>
    if isBlankCode code then quotedAfter quote 0 false (gap.blank code) rest
    else if isBreakCode code then quotedAfter quote 0 true (gap.newLine code) rest
    else if lineStart && isAnyMark (code :: rest) then none
    else if code = quote then
      if quote = 39 && rest.head? = some 39 then
        (quotedAfter quote 1 false .none rest).map fun (more, left) =>
          (gap.text ++ 39 :: more, left)
      else some (gap.text, rest)
    else if quote = 34 && code = 92 then
      if (rest.head?.map isBreakCode).getD false then
        (quotedAfter quote 1 true (.continued []) rest).map fun (more, left) =>
          (gap.text ++ more, left)
      else
        match escape? rest with
        | none => none
        | some (character, length) =>
          (quotedAfter quote length false .none rest).map fun (more, left) =>
            (gap.text ++ character :: more, left)
    else
      (quotedAfter quote 0 false .none rest).map fun (more, left) =>
        (gap.text ++ code :: more, left)

/-- The text of a quoted scalar behind its opening quote, and what follows it. -/
def quoted? (quote : Nat) (codes : List Nat) : Option (List Nat × List Nat) :=
  quotedAfter quote 0 false .none codes

end Persona.Yaml
