import Persona.Settings
import Persona.Yaml.Printer

/-!
# Writing settings

Settings are saved as a YAML mapping with every setting in it, so that a saved
file shows what can be set.
-/

namespace Persona.Settings

/-- A truth value as a plain word. -/
def ofBool (value : Bool) : Yaml := .word (if value then "true" else "false")

/-- An integer as a plain word. -/
def ofInt (value : Int) : Yaml := .word (Text.ofInt value)

/-- The settings as a mapping. -/
def toYaml (s : Settings) : Yaml :=
  .ofFields
    [("compile", .ofFields
      [("target", .ofText s.compile.target), ("optimize", .ofText s.compile.optimize),
       ("context", .ofText s.compile.context), ("strict", ofBool s.compile.strict),
       ("max_depth", ofInt s.compile.maxDepth), ("json_indent", .ofText s.compile.indent),
       ("concurrency", ofInt s.compile.concurrency),
       ("timeout", .ofText s.compile.timeout.text)]),
     ("cache", .ofFields [("enabled", ofBool s.cache.enabled), ("size", ofInt s.cache.size)]),
     ("log", .ofFields [("level", .ofText s.log.level), ("format", .ofText s.log.format)])]

/-- The text of a settings file. -/
def text (s : Settings) : Text := Yaml.write s.toYaml

/-- Save settings at a path, making the directories on the way. -/
def save (s : Settings) (folder : Folder) (path : Text) : Except AccessError Folder := do
  let made ← folder.makeDirectories (Folder.parentPath path)
  made.write path s.text

end Persona.Settings
