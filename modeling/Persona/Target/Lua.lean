import Persona.Personality
import Persona.Number.Layout

/-!
# The Lua target

A Lua 5.1 module that returns a table of strengths by trait and of levels by
domain and topic. Strings are escaped byte by byte: a control byte is written
with three decimal digits, so a digit after it cannot be taken for a part of it.
-/

namespace Persona.Lua

/-- One byte inside a string literal. -/
def escapeByte (b : UInt8) : Text :=
  if b = 92 then "\\\\"
  else if b = 34 then "\\\""
  else if b = 10 then "\\n"
  else if b = 13 then "\\r"
  else if b = 9 then "\\t"
  else if b < 0x20 || b = 0x7F then "\\" ++ Layout.padded 3 b.toNat
  else [b]

/-- A string literal. -/
def literal (text : Text) : Text := "\"" ++ text.flatMap escapeByte ++ "\""

/-- A trait entry. -/
def traitLine (t : Trait) : Text :=
  "  [" ++ literal t.name ++ "] = " ++ t.strength.text ++ ",\n"

/-- A topic entry. -/
def topicLine (t : Topic) : Text :=
  "    [" ++ literal t.name ++ "] = " ++ literal t.level.text ++ ",\n"

/-- A domain entry. -/
def domainLines (d : Domain) : Text :=
  "  [" ++ literal d.name ++ "] = \x7b\n" ++ d.topics.flatMap topicLine ++ "  \x7d,\n"

/-- The module for a personality. -/
def emit (p : Personality) : Text :=
  "local personality = \x7b\x7d\n\n" ++
  "personality.name = " ++ literal p.name ++ "\n\n" ++
  "personality.traits = \x7b\n" ++ p.traits.flatMap traitLine ++ "\x7d\n\n" ++
  "personality.knowledge = \x7b\n" ++ p.knowledge.flatMap domainLines ++ "\x7d\n\n" ++
  "return personality\n"

end Persona.Lua
