import Persona.Grammar.Expression

/-!
# Lists of entries

A section is a list of entries between braces, separated by semicolons; the last
entry may have one too. A malformed entry is skipped up to the next semicolon at
its own nesting depth, counted from the start of the entry and not from where it
failed. When the list ends before such a semicolon the entry's error is final.
-/

namespace Persona.Grammar

open Grammar.Parser

variable {α : Type}

/-- The tokens after the next semicolon outside all brackets opened since, `depth` of
which are open. A closing brace of the enclosing list or the end comes first: none. -/
def afterSeparator? : (depth : Nat) → List Token → Option (List Token)
  | _, [] => none
  | depth, token :: rest =>
    match token.kind with
    | .braceOpen => afterSeparator? (depth + 1) rest
    | .parenOpen => afterSeparator? (depth + 1) rest
    | .parenClose => afterSeparator? (depth - 1) rest
    | .braceClose => if depth = 0 then none else afterSeparator? (depth - 1) rest
    | .semicolon => if depth = 0 then some rest else afterSeparator? depth rest
    | _ => afterSeparator? depth rest

/-- Read an entry, or skip it and note why. -/
def recovering (list : Text) (entry : Parser α) : Parser (Option α) := fun setting tokens =>
  let reply := entry setting tokens
  match reply.outcome with
  | .ok (value, left) => ⟨reply.events, .ok (some value, left)⟩
  | .error e =>
    match afterSeparator? 0 tokens with
    | some left => ⟨reply.events ++ [.skipped list e], .ok (none, left)⟩
    | none => ⟨reply.events, .error e⟩

/-- An entry with the separator after it. Before the closing brace it needs none, and
where `optional` holds it never does. -/
def separated (list : Text) (optional : Bool) (entry : Parser α) : Parser α := do
  let value ← entry
  let token ← current
  if token.kind = .semicolon then
    let _ ← advance
    return value
  else if token.kind = .braceClose || optional then return value
  else failAt token (.expectedSeparator list token)

/-- The entries up to the closing brace, with the brace. Each entry, read or skipped,
takes at least one token, so `fuel` above the number of tokens is never used up. -/
def entriesWithin (list : Text) (optional : Bool) (entry : Parser α) :
    (fuel : Nat) → Parser (List α)
  | 0 => fail fun _ => .unclosedList list
  | fuel + 1 => do
    let token ← current
    if token.kind = .braceClose then
      let _ ← advance
      return []
    else if token.kind = .endOfInput then failAt token (.unclosedList list)
    else
      let value ← recovering list (separated list optional entry)
      let values ← entriesWithin list optional entry fuel
      return value.toList ++ values

/-- A list of entries between braces. -/
def entries (list : Text) (optional : Bool) (entry : Parser α) : Parser (List α) := do
  let _ ← expect .braceOpen
  fun setting tokens => entriesWithin list optional entry (tokens.length + 1) setting tokens

end Persona.Grammar
