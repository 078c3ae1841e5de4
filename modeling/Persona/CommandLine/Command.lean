import Persona.CommandLine.Flag
import Persona.Release
import Persona.Settings
import Persona.Text.Lower

/-!
# Commands

The first word among the arguments names the command, the next one perhaps a
command below it. To find these words before the flags of the command are known,
a flag is taken to have a value in the next argument unless it has one of its own
or is a known switch.

A word that names no command is reported with the commands it may have been meant
for: those it is the beginning of, and those that differ from it by at most two
edits. Some commands are not for people but for shells; these are hidden, which
means that they are never listed or suggested.
-/

namespace Persona.CommandLine

/-- The shells that can complete a command line. -/
inductive Shell where
  | bash | fish | powershell | zsh
deriving DecidableEq, Repr

/-- The name of a shell. -/
def Shell.name : Shell → Text
  | .bash => "bash"
  | .fish => "fish"
  | .powershell => "powershell"
  | .zsh => "zsh"

/-- The commands. A shell is set up with a script, and then asks how a command line can go
on; it may want the choices with or without a line about each. -/
inductive Command where
  | root | compile | check | optimize | format | tokens | config | configInit | version | help
  | completion | script (shell : Shell) | choices (described : Bool)
deriving DecidableEq, Repr

namespace Command

/-- The word that names a command below another one. -/
def word : Command → Text
  | .root => Release.toolName
  | .compile => "compile"
  | .check => "check"
  | .optimize => "optimize"
  | .format => "fmt"
  | .tokens => "tokens"
  | .config => "config"
  | .configInit => "init"
  | .version => "version"
  | .help => "help"
  | .completion => "completion"
  | .script shell => shell.name
  | .choices true => "__complete"
  | .choices false => "__completeNoDesc"

/-- A line about a command. -/
def about : Command → Text
  | .root => "Compile personality documents"
  | .compile => "Compile documents to a target format"
  | .check => "Report semantic errors and warnings"
  | .optimize => "Optimize documents and print them in canonical form"
  | .format => "Print documents in canonical form"
  | .tokens => "Print the token stream of a document"
  | .config => "Print the effective configuration"
  | .configInit => "Write a default configuration file"
  | .version => "Print the version"
  | .help => "Help about any command"
  | .completion => "Generate the autocompletion script for the specified shell"
  | .script shell => "Generate the autocompletion script for " ++ shell.name
  | .choices _ => "Request shell completion choices for the specified command-line"

/-- The commands below a command. -/
def below : Command → List Command
  | .root =>
    [.compile, .check, .optimize, .format, .tokens, .config, .version, .help, .completion,
     .choices true, .choices false]
  | .config => [.configInit]
  | .completion => [.script .bash, .script .fish, .script .powershell, .script .zsh]
  | _ => []

/-- The command is not for people. -/
def isHidden : Command → Bool
  | .completion | .choices _ => true
  | _ => false

/-- The commands below a command that people are told about. -/
def listed (c : Command) : List Command := c.below.filter fun d => !d.isHidden

/-- The words by which a command is called. -/
def path : Command → Text
  | .root => Command.root.word
  | .configInit =>
    Command.root.word ++ " " ++ Command.config.word ++ " " ++ Command.configInit.word
  | .script shell => Command.root.word ++ " " ++ Command.completion.word ++ " " ++ shell.name
  | command => Command.root.word ++ " " ++ command.word

/-- The flags that every command has. -/
def commonFlags : List Flag :=
  [{ name := "config", about := "Config file (default " ++ Settings.defaultPath ++ ")" },
   { name := "log-level", about := "Log level: debug, info, warn or error" },
   { name := "log-format", about := "Log format: text or json" }]

/-- The flag for the format of tables. -/
def tableFlag (about : Text) : Flag := { name := "format", about := about }

/-- The flag for the degree of simplification. -/
def degreeFlag : Flag :=
  { name := "optimize", short := some 79,
    about := "Optimization level: none, basic or aggressive" }

/-- The flags of a command besides the common ones. -/
def ownFlags : Command → List Flag
  | .compile =>
    [{ name := "target", short := some 116,
       about := "Target: json, lua, prompt, sql or cypher (default from config)" },
     { name := "context", about := "Context clause for the prompt target" },
     degreeFlag,
     { name := "strict", isSwitch := true, about := "Treat skipped entries as errors" },
     { name := "output", short := some 111,
       about := "Write output to a file instead of stdout" }]
  | .check => [tableFlag "Table format: ascii or markdown"]
  | .optimize => [degreeFlag, tableFlag "Statistics table format: ascii or markdown"]
  | .format =>
    [{ name := "write", short := some 119, isSwitch := true,
       about := "Write the result back to the source file" }]
  | .tokens => [tableFlag "Table format: ascii or markdown"]
  | .script _ =>
    [{ name := "no-descriptions", isSwitch := true,
       about := "disable completion descriptions" }]
  | _ => []

/-- The flags that are known while the command is looked for. -/
def knownFlags (c : Command) : List Flag := c.ownFlags ++ commonFlags

/-- The switches that ask for help and, of the tool itself, for the version. -/
def askingFlags (c : Command) : List Flag :=
  { name := "help", short := some 104, isSwitch := true, about := "help for " ++ c.word } ::
    if c = .root then
      [{ name := "version", short := some 118, isSwitch := true,
         about := "version for " ++ c.word }]
    else []

/-- All flags of a command. -/
def flags (c : Command) : List Flag := c.knownFlags ++ c.askingFlags

/-- Take the arguments of a command apart. A shell that asks for choices passes on what
was typed, so nothing among its arguments is a flag. -/
def takeApart (c : Command) (arguments : List Text) : Except UsageError Parsed :=
  match c with
  | .choices _ => .ok ⟨[], arguments⟩
  | _ => parse c.flags none arguments

/-- The largest number of words a command takes; some take any number. -/
def mostWords : Command → Option Nat
  | .tokens => some 1
  | .configInit => some 1
  | .config => some 0
  | .version => some 0
  | .script _ => some 0
  | _ => none

/-- The smallest number of words a command takes. -/
def leastWords : Command → Nat
  | .choices _ => 1
  | _ => 0

/-- The command works on documents. -/
def readsDocuments : Command → Bool
  | .compile | .check | .optimize | .format | .tokens => true
  | _ => false

/-- An argument that starts with a dash. -/
def isDashed (argument : Text) : Bool := argument.head? = some 45

/-- A flag whose value, as far as is known, is the next argument. -/
def takesNext (flags : List Flag) (argument : Text) : Bool :=
  !argument.contains 61 &&
    match argument with
    | 45 :: 45 :: name => !(((Flag.named? flags name).map Flag.isSwitch).getD false)
    | [45, letter] => !(((Flag.lettered? flags letter).map Flag.isSwitch).getD false)
    | _ => false

/-- The words among the arguments. A flag that would take the last argument as its value
ends the search. -/
def words (flags : List Flag) : List Text → List Text
  | [] => []
  | argument :: rest =>
    if argument = "--" then []
    else if takesNext flags argument then
      match rest with
      | _ :: next :: more => words flags (next :: more)
      | _ => []
    else if argument.isEmpty || isDashed argument then words flags rest
    else argument :: words flags rest

/-- The arguments without the first occurrence of a word. -/
def withoutWord (flags : List Flag) (word : Text) : List Text → List Text
  | [] => []
  | argument :: rest =>
    if argument = "--" then argument :: rest
    else if takesNext flags argument then
      match rest with
      | value :: more => argument :: value :: withoutWord flags word more
      | [] => [argument]
    else if argument = word && !isDashed argument then rest
    else argument :: withoutWord flags word rest

/-- The command below `c` that a word names. -/
def named? (c : Command) (word : Text) : Option Command := c.below.find? fun d =>
    d.word == word

/-- Descend from a command as long as the next word names one below it; the arguments lose
those words. There are no more than two levels. -/
def descend : (levels : Nat) → Command → List Text → Command × List Text
  | 0, c, arguments => (c, arguments)
  | levels + 1, c, arguments =>
    match words c.knownFlags arguments with
    | [] => (c, arguments)
    | word :: _ =>
      match c.named? word with
      | some d => descend levels d (withoutWord c.knownFlags word arguments)
      | none => (c, arguments)

/-- The row of edit distances after one more byte of the first word: `above` is the row
before, `diagonal` its previous entry and `left` the entry just made. -/
def distanceRow (byte : UInt8) : (left diagonal : Nat) → (above : List Nat) → Text → List Nat
  | left, diagonal, up :: above, b :: rest =>
    let here := if byte = b then diagonal else min (min left up) diagonal + 1
    here :: distanceRow byte here up above rest
  | _, _, _, _ => []

/-- The number of bytes to insert, drop or change to get from one word to another. -/
def editDistance (first second : Text) : Nat :=
  let start := List.range (second.length + 1)
  let last := first.foldl (fun row byte =>
    let head := row.headD 0
    (head + 1) :: distanceRow byte (head + 1) head row.tail second) start
  last.getLastD 0

/-- The commands below `c` that a word may have been meant for; help is
never suggested. -/
def similar (c : Command) (word : Text) : List Text :=
  ((c.listed.filter (· != .help)).map Command.word).filter fun name =>
    editDistance word.lowered name ≤ 2 || word.lowered.isPrefixOf name

/-- The command the arguments call, with what is left of them. Only the tool itself
refuses a word that names no command; the commands take it as one of their own. -/
def find (arguments : List Text) : Except UsageError (Command × List Text) :=
  let (c, rest) := descend 2 .root arguments
  match c, words c.knownFlags rest with
  | .root, word :: _ => .error (.unknownCommand word c.path (c.similar word))
  | _, _ => .ok (c, rest)

/-- The command that help is asked about: the one the words name, or else the
tool itself. -/
def topic (words : List Text) : Command :=
  match find words with
  | .ok (c, _) => c
  | .error _ => .root

/-- Check the number of words a command is given. -/
def checkWords (c : Command) (words : List Text) : Except UsageError Unit :=
  if words.length < c.leastWords then .error (.tooFew c.leastWords words.length)
  else match c.mostWords, words with
  | some 0, word :: _ => .error (.unknownCommand word c.path [])
  | some most, words =>
    if most < words.length then .error (.tooMany most words.length) else .ok ()
  | none, _ => .ok ()

end Command

end Persona.CommandLine
