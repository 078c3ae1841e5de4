import Persona.Validation
import Persona.Logged
import Persona.Structured
import Persona.Text.Blank
import Persona.Text.Lower
import Persona.Target.Lua
import Persona.Target.Sql
import Persona.Target.Cypher
import Persona.Target.Prompt

/-!
# Compiling

A validated personality is written for a target. Five targets are built in;
others can be registered by name and take the place of a built-in one of the same
name. Nothing is written for a personality that validation rejects.
-/

namespace Persona

/-- The built-in targets. -/
inductive Target where
  | json | lua | prompt | sql | cypher
deriving DecidableEq, Repr

namespace Target

/-- All built-in targets. -/
def all : List Target := [.json, .lua, .prompt, .sql, .cypher]

/-- The name of a target. -/
def text : Target → Text
  | .json => "json"
  | .lua => "lua"
  | .prompt => "prompt"
  | .sql => "sql"
  | .cypher => "cypher"

/-- The target with exactly this name. -/
def ofText? (name : Text) : Option Target :=
  all.find? fun target => target.text == name

/-- The target a person named, in any case and with blanks around it. -/
def ofName? (name : Text) : Option Target := ofText? name.trim.lowered

/-- The target a person named, or the error that says there is none. -/
def named (name : Text) : Except CompileError Target :=
  match ofName? name with
  | some target => .ok target
  | none => .error (.unknownTarget name)

/-- Write a personality for a target. Only the prompt looks at the context, and only JSON
at the indentation. -/
def emit (target : Target) (indent : Text) (p : Personality) (context : Text) :
    Except EmitError Text :=
  match target with
  | .json => Structured.emit p indent
  | .lua => .ok (Lua.emit p)
  | .prompt => (Prompt.emit p context).mapError .missing
  | .sql => (Sql.emit p).mapError .missing
  | .cypher => Cypher.emit p

end Target

/-- A way to write a personality in a context. -/
abbrev Emitter : Type := Personality → Text → Except EmitError Text

/-- How documents are compiled: the indentation of the JSON target and the registered
emitters, of which a later one replaces an earlier one of the same name. -/
structure CompileOptions where
  indent : Text := "  "
  emitters : List (Text × Emitter) := []

/-- An output and the advice that came with it. -/
structure Compiled where
  target : Text
  output : Text
  advice : List Advice

namespace CompileOptions

/-- The emitter for a target name. -/
def emitter? (options : CompileOptions) (name : Text) : Option Emitter :=
  match options.emitters.reverse.lookup name with
  | some emitter => some emitter
  | none => (Target.ofText? name).map fun target => target.emit options.indent

/-- What is recorded when validation fails. -/
def rejectionRecord (p : Personality) (target : Text) (errors : Nat) : Log.Record :=
  Log.Record.within "compiler" ⟨.debug, "validation failed",
    [("personality", .text p.name), ("target", .text target), ("errors", .count errors)]⟩

/-- What is recorded of an advice. -/
def adviceRecord (p : Personality) (a : Advice) : Log.Record :=
  Log.Record.within "compiler" ⟨.debug, "semantic warning",
    [("personality", .text p.name), ("kind", .text a.kind), ("subject", .text a.subject),
     ("detail", .text a.detail)]⟩

/-- Validate a personality and write it for a target. -/
def compile (options : CompileOptions) (p : Personality) (target context : Text) :
    Logged Failure Compiled :=
  match options.emitter? target with
  | none => .fail (.rejected [.unknownTarget target])
  | some emitter =>
    let (analysis, errors) := p.validate
    if errors.isEmpty then
      ⟨analysis.advice.map (adviceRecord p),
        match emitter p context with
        | .error e => .error (.within ("emit " ++ target) (.emission e))
        | .ok output => .ok ⟨target, output, analysis.advice⟩⟩
    else ⟨[rejectionRecord p target errors.length], .error (.rejected errors)⟩

end CompileOptions

end Persona
