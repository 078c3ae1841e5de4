import Persona.CommandLine.Completion
import Persona.Settings.Printer

/-!
# The command line

A call has arguments, an input, an environment and a folder; it leaves two texts,
the folder as it is afterwards and, if something went wrong, a failure. Nothing
else is touched, so a call is a function.

Documents are worked on one after the other. One that fails is reported and the
others go on; the call then fails with the number of documents that did. What was
written before a failure stays written.
-/

namespace Persona.CommandLine

/-- What a call is given. -/
structure Call where
  arguments : List Text
  input : Text := []
  environment : Settings.Environment := []
  folder : Folder := ⟨[], []⟩

/-- What a call has written so far. -/
structure Console where
  output : Text := []
  errors : Text := []
  folder : Folder

/-- Work that writes to the console and may fail. -/
abbrev Work : Type → Type := ExceptT Failure (StateM Console)

/-- What a call leaves. -/
structure Outcome where
  output : Text
  errors : Text
  folder : Folder
  failure : Option Failure

/-- The settings of a call and the log they ask for. -/
structure Session where
  settings : Settings
  log : Log.Settings
  target : Target
  degree : Simplify.Degree

/-- A document to work on; one from the input has no name. -/
structure Document where
  name : Text
  source : Text

/-- Print to the output. -/
def print (text : Text) : Work Unit := modify fun c => { c with output := c.output ++ text }

/-- Print a line to the output. -/
def printLine (text : Text) : Work Unit := print (text ++ "\n")

/-- Print a line to the errors. -/
def complain (text : Text) : Work Unit := modify fun c =>
    { c with errors := c.errors ++ text ++ "\n" }

/-- Log records under the name of the command line. -/
def Session.record (s : Session) (records : List Log.Record) : Work Unit :=
  modify fun c =>
    { c with errors := c.errors ++ s.log.lines (records.map (Log.Record.within "cli")) }

/-- Write a file. -/
def writeFile (path content : Text) : Work Unit := do
  match (← get).folder.write path content with
  | .error e => throw (.within ("write " ++ path) (.access e))
  | .ok folder => modify fun c => { c with folder := folder }

/-- Fail if some documents did. -/
def failures (count : Nat) : Work Unit :=
  if count = 0 then pure () else throw (.documents count)

/-- A command that names no files, or only `-`, works on the input. -/
def readsInput (words : List Text) : Bool := words.isEmpty || words = [("-" : Text)]

/-- The documents a command works on: the files it names, or the input. -/
def documents (call : Call) (words : List Text) : Except Failure (List Document) :=
  if readsInput words then .ok [⟨[], call.input⟩]
  else words.mapM fun path =>
    match call.folder.read path with
    | .ok source => .ok ⟨path, source⟩
    | .error e => .error (.within ("read " ++ path) (.access e))

/-- Read a document; what is recorded on the way is logged. -/
def Session.read (s : Session) (d : Document) :
    Work (Except (List ParseError) Personality) := do
  let limit := s.settings.compile.maxDepth
  let reading := Personality.read
    { file := d.name, strict := s.settings.compile.strict,
      limit := if 0 < limit then limit else Grammar.defaultLimit } d.source
  s.record reading.records
  return reading.result

/-- Work on each document that can be read. The work says whether the document passed; the
result is the number of those that did not. -/
def Session.forEach (s : Session) (documents : List Document)
    (work : Document → Personality → Work Bool) : Work Nat :=
  documents.foldlM (fun failed d => do
    match ← s.read d with
    | .error errors =>
      complain (ParseError.textOfList errors)
      return failed + 1
    | .ok p => return if ← work d p then failed else failed + 1) 0

/-- Report a response of a runner and write its output. -/
def deliver (path : Text) (r : Response) : Work Bool := do
  match r.failure with
  | some failure =>
    complain failure.message
    return false
  | none =>
    r.advice.forM fun a => complain (displayName r.file ++ ": warning: " ++ a.text)
    let output := if r.output.getLast? = some 10 then r.output else r.output ++ [10]
    if path.isEmpty then print output else writeFile path output
    return true

/-- An outcome that writes nothing. -/
def outcome {α : Type} (result : Except Failure α) : Work α :=
  match result with
  | .ok value => pure value
  | .error e => throw e

/-- Compile documents for a target. -/
def Session.compile (s : Session) (call : Call) (p : Parsed) : Work Unit := do
  let strict := (p.switch? "strict").getD s.settings.compile.strict
  let settings := { s.settings with compile := { s.settings.compile with strict := strict } }
  let target ← if (p.value "target").isEmpty then pure s.target
    else outcome (Settings.targetNamed (p.value "target"))
  let degree ← if (p.value "optimize").isEmpty then pure s.degree
    else outcome (Settings.degreeNamed (p.value "optimize"))
  let context := (p.value? "context").getD settings.compile.context
  let inputs ← outcome (documents call p.words)
  let path := p.value "output"
  if !path.isEmpty && 1 < inputs.length then
    throw (.stated ("--output needs a single input, got " ++ Text.ofNat inputs.length))
  let requests := inputs.map fun d =>
    { source := d.source, file := d.name, target := target.text, context := context,
      degree := degree }
  let (_, records, responses) := settings.runner.runBatch false requests
  s.record (settings.runner.openingRecords ++ records)
  let failed ← responses.foldlM (fun failed r => do
    return if ← deliver path r then failed else failed + 1) 0
  failures failed

/-- Report what is wrong with documents, or worth mentioning. -/
def Session.check (s : Session) (call : Call) (p : Parsed) : Work Unit := do
  let inputs ← outcome (documents call p.words)
  let failed ← s.forEach inputs fun d person => do
    let (analysis, errors) := person.validate
    let own := errors.filter fun e => e.problems.isEmpty
    own.forM fun e => complain (displayName d.name ++ ": " ++ e.text)
    printLine (displayName d.name ++ " (" ++ person.name ++ ")")
    printLine (analysis.report.render (.ofWord (p.value "format")))
    return errors.isEmpty
  failures failed

/-- Print a personality in its canonical form. -/
def printFormatted (person : Personality) : Work Unit := do
  let text ← outcome (person.write.mapError fun m => .emission (.missing m))
  print text

/-- Simplify documents and print them. -/
def Session.optimize (s : Session) (call : Call) (p : Parsed) : Work Unit := do
  let degree ← outcome (Settings.degreeNamed
    ((p.value? "optimize").getD Simplify.Degree.basic.text))
  let inputs ← outcome (documents call p.words)
  let failed ← s.forEach inputs fun _ person => do
    let (simpler, stats) := person.simplify degree
    complain (stats.report.render (.ofWord (p.value "format")))
    printFormatted simpler
    return true
  failures failed

/-- Print documents in their canonical form, or write them back to their files. A file
that is already in this form is left alone. -/
def Session.format (s : Session) (call : Call) (p : Parsed) : Work Unit := do
  let write := p.isOn "write"
  if write && p.words.isEmpty then throw (.stated "-w needs at least one file")
  let inputs ← outcome (documents call p.words)
  let failed ← s.forEach inputs fun d person => do
    if write then
      let text ← outcome (person.write.mapError fun m => .emission (.missing m))
      if text != d.source then
        writeFile d.name text
        s.record [⟨.info, "formatted", [("file", .text d.name)]⟩]
    else printFormatted person
    return true
  failures failed

/-- The tokens of a document as a table. -/
def tokenTable (d : Document) (stream : Scanner.Stream) : Table :=
  let source := Source.ofText d.name d.source
  { header := some ["Position", "Type", "Value"],
    rows := (stream.tokens ++ [stream.last]).map fun t =>
      let (line, column) := source.lineColumn t.start
      [.text (Text.ofNat line ++ ":" ++ Text.ofNat column), .text t.kind.text, .text t.value] }

/-- Print the tokens of a document. -/
def tokens (call : Call) (p : Parsed) : Work Unit := do
  let inputs ← outcome (documents call p.words)
  inputs.forM fun d => do
    match Token.scan d.source with
    | .error e => throw (.malformed (.ofLexError (Source.ofText d.name d.source) e))
    | .ok stream => printLine ((tokenTable d stream).render (.ofWord (p.value "format")))

/-- Save the default settings. -/
def saveDefaults (p : Parsed) : Work Unit := do
  let path := p.words.headD Settings.defaultPath
  match ({} : Settings).save (← get).folder path with
  | .error e => throw (.within ("write " ++ path) (.access e))
  | .ok folder =>
    modify fun c => { c with folder := folder }
    printLine ("wrote " ++ path)

/-- How a command is called, for those who ask. -/
def usage (c : Command) : Text :=
  let line (text : Text) : Text := "  " ++ text ++ "\n"
  let commands : Text := c.listed.flatMap fun d => line d.path
  let part (title body : Text) : Text :=
    if body.isEmpty then [] else "\n" ++ title ++ ":\n" ++ body
  "Usage:\n" ++ line (c.path ++ " [flags]") ++ part "Commands" commands ++
    part "Flags" (c.flags.flatMap fun f => line f.title)

/-- The settings of a call: those of the file and the environment, and what the flags say
about the log. -/
def Session.start (call : Call) (p : Parsed) : Except Failure Session := do
  let loaded ← Settings.load call.folder call.environment (p.value "config")
  let named (flag old : Text) : Text := if flag.isEmpty then old else flag
  let settings := { loaded with
    log :=
      { level := named (p.value "log-level") loaded.log.level,
        format := named (p.value "log-format") loaded.log.format } }
  let resolved ← settings.resolve
  return ⟨settings, resolved.log, resolved.target, resolved.degree⟩

/-- Tell a shell how a command line can go on. -/
def complete (call : Call) (described : Bool) (p : Parsed) : Work Unit := do
  let choices := Choices.ofArguments p.words
  print (choices.answer (asksForLines described p.words && isDescribed call.environment))
  complain ("Completion ended with directive: " ++ choices.codeName)

/-- Run a command with its settings. -/
def Session.run (s : Session) (call : Call) (c : Command) (p : Parsed) : Work Unit :=
  match c with
  | .root | .completion => print (usage c)
  | .help => print (usage (.topic p.words))
  | .script shell => print (shell.script (!p.isOn "no-descriptions"))
  | .choices described => complete call described p
  | .compile => s.compile call p
  | .check => s.check call p
  | .optimize => s.optimize call p
  | .format => s.format call p
  | .tokens => tokens call p
  | .config => print s.settings.text
  | .configInit => saveDefaults p
  | .version => printLine (Release.toolName ++ " " ++ Release.tool)

/-- The wording of a usage error as a failure. -/
def refused {α : Type} (result : Except UsageError α) : Work α :=
  outcome (result.mapError fun e => .stated e.message)

/-- Work off a call: find the command, take its arguments apart, load the settings
and run it. -/
def work (call : Call) : Work Unit := do
  let (c, arguments) ← refused (Command.find call.arguments)
  let p ← refused (c.takeApart arguments)
  if p.isOn "help" then print (usage c)
  else if p.isOn "version" then printLine (Release.toolName ++ " version " ++ Release.tool)
  else if c = .root || c = .completion then print (usage c)
  else
    refused (c.checkWords p.words)
    let s ← outcome (Session.start call p)
    s.run call c p

/-- What a call may look at besides its arguments: the paths it may read or write, and
whether it reads its input. -/
structure Needs where
  paths : List Text := []
  input : Bool := false

/-- What the call with these arguments may look at. A call that is refused looks
at nothing. -/
def needs (arguments : List Text) : Needs :=
  match Command.find arguments with
  | .error _ => {}
  | .ok (c, rest) =>
    match c.takeApart rest with
    | .error _ => {}
    | .ok p =>
      let named (name : Text) : List Text := [p.value name].filter fun path => !path.isEmpty
      { paths := Settings.defaultPath :: (named "config" ++ named "output" ++ p.words),
        input := c.readsDocuments && !p.isOn "help" && readsInput p.words }

/-- What a call leaves. -/
def run (call : Call) : Outcome :=
  let (result, console) := (work call).run { folder := call.folder }
  ⟨console.output, console.errors, console.folder,
    match result with
    | .ok _ => none
    | .error failure => some failure⟩

end Persona.CommandLine
