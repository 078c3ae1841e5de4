import Persona.Settings
import Persona.Yaml.Fields
import Persona.Yaml.Reader

/-!
# Reading settings

Settings start from the defaults; the settings file changes what it mentions, and
the environment what it sets. A missing file changes nothing, keys that are not
known are ignored, and a variable that is empty counts as not set. A value of the
wrong kind, or a key given twice, makes the whole file malformed.
-/

namespace Persona.Settings

open Yaml (Decoder Document Fields Node)

/-- The words for truth values where one is expected. -/
def truthWord? (word : Text) : Option Bool :=
  if ([("y" : Text), "Y", "yes", "Yes", "YES", "on", "On", "ON"]).contains word then some true
  else if ([("n" : Text), "N", "no", "No", "NO", "off", "Off", "OFF"]).contains word then
    some false
  else none

/-- Read a truth value. -/
def readBool (d : Document) : Bool → Node → Decoder Bool :=
  d.readScalar fun _ meaning =>
    match meaning with
    | .truth value => some value
    | .text word => truthWord? word
    | _ => none

/-- The integer for a number where an integer is expected: the fraction is dropped. What
is below every signed word becomes the least one, and so does the first number above them;
a larger one is refused. -/
def integerOf? (x : Binary64) : Option Int :=
  let bound := Binary64.ofRatio false 0x8000000000000000 1
  if x.lt bound.neg || x.same bound then some (-0x8000000000000000)
  else if x.lt bound then some x.truncated
  else none

/-- Read an integer, which must fit into a signed word. -/
def readInt (d : Document) : Int → Node → Decoder Int :=
  d.readScalar fun _ meaning =>
    match meaning with
    | .integer value => if value < 0x8000000000000000 then some value else none
    | .number x => integerOf? x
    | _ => none

/-- Read a duration, which is written as a text. -/
def readDuration (d : Document) : Duration → Node → Decoder Duration :=
  d.readScalar fun _ meaning =>
    match meaning with
    | .text value => Duration.read? value
    | _ => none

/-- How documents are compiled. -/
def compileFields (d : Document) : Fields Compile :=
  [("target", fun s node => return { s with target := ← d.readText s.target node }),
   ("optimize", fun s node => return { s with optimize := ← d.readText s.optimize node }),
   ("context", fun s node => return { s with context := ← d.readText s.context node }),
   ("strict", fun s node => return { s with strict := ← readBool d s.strict node }),
   ("max_depth", fun s node => return { s with maxDepth := ← readInt d s.maxDepth node }),
   ("json_indent", fun s node => return { s with indent := ← d.readText s.indent node }),
   ("concurrency", fun s node =>
     return { s with concurrency := ← readInt d s.concurrency node }),
   ("timeout", fun s node => return { s with timeout := ← readDuration d s.timeout node })]

/-- Whether outputs are cached. -/
def cacheFields (d : Document) : Fields Cache :=
  [("enabled", fun s node => return { s with enabled := ← readBool d s.enabled node }),
   ("size", fun s node => return { s with size := ← readInt d s.size node })]

/-- What is logged. -/
def loggingFields (d : Document) : Fields Logging :=
  [("level", fun s node => return { s with level := ← d.readText s.level node }),
   ("format", fun s node => return { s with format := ← d.readText s.format node })]

/-- The parts of the settings. -/
def fields (d : Document) : Fields Settings :=
  [("compile", fun s node =>
    return { s with compile := ← d.readFields (compileFields d) s.compile node }),
   ("cache", fun s node =>
     return { s with cache := ← d.readFields (cacheFields d) s.cache node }),
   ("log", fun s node => return { s with log := ← d.readFields (loggingFields d) s.log node })]

/-- Read settings over what was there before. -/
def readDocument (s : Settings) (d : Document) : Except Yaml.Stop Settings :=
  d.decode (d.readFields (fields d) s)

/-- The variables that are set, with their values. -/
abbrev Environment : Type := List (Text × Text)

/-- A truth value as variables and switches of the command line spell it. -/
def boolWord? (word : Text) : Option Bool :=
  if ([("1" : Text), "t", "T", "TRUE", "true", "True"]).contains word then some true
  else if ([("0" : Text), "f", "F", "FALSE", "false", "False"]).contains word then some false
  else none

/-- A decimal integer of thirty-two bits. -/
def shortInteger? (word : Text) : Option Int :=
  word.integer?.filter fun value => -0x80000000 ≤ value && value < 0x80000000

/-- The variables and what each of them sets. -/
def settable : List (Text × (Settings → Text → Option Settings)) :=
  [("CALLOSUM_TARGET", fun s v => some { s with compile := { s.compile with target := v } }),
   ("CALLOSUM_OPTIMIZE", fun s v =>
     some { s with compile := { s.compile with optimize := v } }),
   ("CALLOSUM_CONTEXT", fun s v => some { s with compile := { s.compile with context := v } }),
   ("CALLOSUM_STRICT", fun s v =>
      (boolWord? v).map fun x => { s with compile := { s.compile with strict := x } }),
   ("CALLOSUM_MAX_DEPTH", fun s v =>
      (shortInteger? v).map fun x => { s with compile := { s.compile with maxDepth := x } }),
   ("CALLOSUM_JSON_INDENT", fun s v =>
     some { s with compile := { s.compile with indent := v } }),
   ("CALLOSUM_CONCURRENCY", fun s v =>
      (shortInteger? v).map fun x =>
        { s with compile := { s.compile with concurrency := x } }),
   ("CALLOSUM_TIMEOUT", fun s v =>
      (Duration.read? v).map fun x => { s with compile := { s.compile with timeout := x } }),
   ("CALLOSUM_CACHE", fun s v =>
      (boolWord? v).map fun x => { s with cache := { s.cache with enabled := x } }),
   ("CALLOSUM_CACHE_SIZE", fun s v =>
      (shortInteger? v).map fun x => { s with cache := { s.cache with size := x } }),
   ("CALLOSUM_LOG_LEVEL", fun s v => some { s with log := { s.log with level := v } }),
   ("CALLOSUM_LOG_FORMAT", fun s v => some { s with log := { s.log with format := v } })]

/-- The settings after the environment. -/
def readEnvironment (environment : Environment) (s : Settings) : Option Settings :=
  settable.foldlM (fun s (name, set) =>
    match environment.lookup name with
    | some value => if value.isEmpty then some s else set s value
    | none => some s) s

/-- The settings after the file at a path, if it is there. -/
def readAt (folder : Folder) (path : Text) (s : Settings) : Except Failure Settings :=
  match folder.read path with
  | .error e =>
    if e.reason = .missing then .ok s else .error (.within "read config" (.access e))
  | .ok content =>
    match (Yaml.read? content).map s.readDocument with
    | some (.ok new) => .ok new
    | some (.error (.incomparable shape)) => .error (.incomparableKey shape.text)
    | _ => .error (.malformedSettings path)

/-- The settings from a file and the environment; without a path the usual file is read.
Settings that cannot be resolved are not loaded. -/
def load (folder : Folder) (environment : Environment) (path : Text) :
    Except Failure Settings := do
  let fromFile ← readAt folder (if path.isEmpty then defaultPath else path) {}
  match readEnvironment environment fromFile with
  | none => .error .malformedEnvironment
  | some settings =>
    let _ ← settings.resolve
    return settings

end Persona.Settings
