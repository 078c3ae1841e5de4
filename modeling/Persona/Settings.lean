import Persona.Duration
import Persona.Log.Line
import Persona.Runner

/-!
# Settings

What can be set for the command line: how documents are compiled, whether outputs
are cached and what is logged. Settings hold the names as a person wrote them;
resolving them finds the target, the degree and the log they name, or the first
one that names nothing.

A runner is set up by a list of switches, so that what is left to its defaults is
simply not in the list.
-/

namespace Persona

/-- How documents are compiled. -/
structure Settings.Compile where
  target : Text := "json"
  optimize : Text := "none"
  context : Text := []
  strict : Bool := false
  maxDepth : Int := 100
  indent : Text := "  "
  concurrency : Int := 0
  timeout : Duration := .zero
deriving DecidableEq, Repr

/-- Whether outputs are cached, and how many of them. -/
structure Settings.Cache where
  enabled : Bool := false
  size : Int := 256
deriving DecidableEq, Repr

/-- What is logged, and in which shape. -/
structure Settings.Logging where
  level : Text := "warn"
  format : Text := "text"
deriving DecidableEq, Repr

/-- All settings; without further word the defaults. -/
structure Settings where
  compile : Settings.Compile := {}
  cache : Settings.Cache := {}
  log : Settings.Logging := {}
deriving DecidableEq, Repr

namespace Settings

/-- The file in which settings are looked for. -/
def defaultPath : Text := "callosum.yaml"

/-- What the names in the settings mean. -/
structure Resolved where
  target : Target
  degree : Simplify.Degree
  log : Log.Settings

/-- The degree a setting names. -/
def degreeNamed (name : Text) : Except Failure Simplify.Degree :=
  match Simplify.Degree.ofName? name with
  | some degree => .ok degree
  | none => .error (.stated (Simplify.Degree.unknownMessage name))

/-- The target a setting names. -/
def targetNamed (name : Text) : Except Failure Target :=
  (Target.named name).mapError .refused

/-- The log level a setting names. -/
def levelNamed (name : Text) : Except Failure Log.Level :=
  match Log.Level.ofName? name with
  | some level => .ok level
  | none => .error (.stated (Log.Level.unknownMessage name))

/-- The shape of log lines a setting names. -/
def shapeNamed (name : Text) : Except Failure Log.Shape :=
  match Log.Shape.ofText? name with
  | some shape => .ok shape
  | none => .error (.stated ("want text or json, got " ++ name.quoted))

/-- A nesting limit, which must not be negative. -/
def checkDepth (limit : Int) : Except Failure Unit :=
  if limit < 0 then .error (.stated ("must not be negative, got " ++ Text.ofInt limit))
    else .ok ()

/-- Find what the settings name. The settings are looked at in their order, and the first
one that names nothing is reported. -/
def resolve (s : Settings) : Except Failure Resolved := do
  let target ← (targetNamed s.compile.target).mapError (.within "compile.target")
  let degree ← (degreeNamed s.compile.optimize).mapError (.within "compile.optimize")
  (checkDepth s.compile.maxDepth).mapError (.within "compile.max_depth")
  let level ← (levelNamed s.log.level).mapError (.within "log.level")
  let shape ← (shapeNamed s.log.format).mapError (.within "log.format")
  return ⟨target, degree, ⟨level, shape⟩⟩

/-- One thing about a runner that can be switched. -/
inductive Switch where
  | logging
  | strict (on : Bool)
  | limit (depth : Int)
  | timeout (duration : Duration)
  | indent (text : Text)
  | concurrency (count : Int)
  | caching (on : Bool)
  | cacheSize (size : Int)

/-- The switches of the settings. Concurrency is left alone unless it is positive, and the
size of the cache unless there is one. -/
def switches (s : Settings) : List Switch :=
  [.logging, .strict s.compile.strict, .limit s.compile.maxDepth, .timeout s.compile.timeout,
   .indent s.compile.indent] ++
  (if 0 < s.compile.concurrency then [.concurrency s.compile.concurrency] else []) ++
  if s.cache.enabled then [.caching true, .cacheSize s.cache.size] else []

/-- A runner as the switches leave it. Requests are run in order, so neither
concurrency nor a timeout that does not expire changes an outcome; what is logged is
always recorded. -/
def runnerOf (switches : List Switch) : Runner :=
  let options : RunOptions := switches.foldl (fun (options : RunOptions) switch =>
    match switch with
    | .strict on => { options with strict := on }
    | .limit depth => { options with limit := depth }
    | .indent text => { options with compile := { options.compile with indent := text } }
    | _ => options) {}
  let caching := switches.foldl (fun caching switch =>
    match switch with
    | .caching on => on
    | _ => caching) false
  let size := switches.foldl (fun size switch =>
    match switch with
    | .cacheSize size => size
    | _ => size) 0
  ⟨options, if caching then some (.ofCapacity size) else none⟩

/-- The runner for the settings. -/
def runner (s : Settings) : Runner := runnerOf s.switches

end Settings

end Persona
