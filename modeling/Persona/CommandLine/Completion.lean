import Persona.CommandLine.Command

/-!
# Completing a command line

A shell passes on the arguments that have been typed, the last of which may be
unfinished, and is told what could stand in its place. Where a flag can stand these
are the flags that have not been used yet; where a value of a flag can stand nothing
is known; elsewhere they are the commands below the one that is called. The shell is
also told whether file names could stand there.
-/

namespace Persona.CommandLine

/-- A word that could stand there, with a line about it. -/
structure Choice where
  word : Text
  about : Text
deriving DecidableEq, Repr

/-- What a shell is told. -/
structure Choices where
  choices : List Choice := []
  files : Bool := true
deriving DecidableEq, Repr

namespace Choices

/-- The number by which a shell is told whether file names could stand there. -/
def code (c : Choices) : Nat := if c.files then 0 else 4

/-- The name of that number. -/
def codeName (c : Choices) : Text :=
  if c.files then "ShellCompDirectiveDefault" else "ShellCompDirectiveNoFileComp"

/-- The answer to the shell: a line for each choice, and the number. -/
def answer (c : Choices) (described : Bool) : Text :=
  let line (choice : Choice) : Text :=
    choice.word ++ (if described then "\t" ++ choice.about else []) ++ "\n"
  c.choices.flatMap line ++ ":" ++ Text.ofNat c.code ++ "\n"

end Choices

/-- The forms of a flag that start with what was typed. -/
def Flag.completions (typed : Text) (f : Flag) : List Choice :=
  let forms : List Text := ("--" ++ f.name) :: (f.short.map fun letter => [45, letter]).toList
  (forms.filter fun form => typed.isPrefixOf form).map fun form => ⟨form, f.about⟩

namespace Command

/-- The flags a command shares with the tool, in the order of their names. -/
def sharedFlags (c : Command) : List Flag :=
  if c = .root then [] else commonFlags.mergeSort fun a b => !b.name.before a.name

/-- The other flags of a command, in the order of their names. -/
def localFlags (c : Command) : List Flag :=
  ((if c = .root then c.knownFlags else c.ownFlags) ++ c.askingFlags).mergeSort
    fun a b => !b.name.before a.name

/-- The commands below `c` whose names start with what was typed, in the order of
their names. -/
def completions (c : Command) (typed : Text) : List Choice :=
  let named := c.listed.filter fun d => typed.isPrefixOf d.word
  (named.mergeSort fun a b => !b.word.before a.word).map fun d => ⟨d.word, d.about⟩

/-- The flag that a name or, if it is one byte long, a short letter stands for. -/
def flagCalled? (c : Command) : Text → Option Flag
  | [letter] => Flag.lettered? c.flags letter
  | name => Flag.named? c.flags name

end Command

/-- What is to be completed: the value of a flag or a word of its own, what was typed of
it, and the arguments before it without the flag in question. A flag that the command does
not have is `unknown`. -/
structure Aim where
  flag : Option Flag := none
  arguments : List Text
  typed : Text
  unknown : Bool := false

namespace Aim

/-- The name or the last short letter in a flag, without the dashes. -/
def calledIn (argument : Text) : Text :=
  if argument.take 2 = "--" then argument.drop 2 else argument.drop (argument.length - 1)

/-- An argument in the form of a flag. -/
def isFlag : Text → Bool
  | 45 :: 45 :: rest => !rest.isEmpty
  | 45 :: _ :: _ => true
  | _ => false

/-- Find out what is to be completed: the part of the last argument behind an equals
sign, or the last argument as a whole, which is a value if a flag that needs one
stands before it. -/
def ofArguments (c : Command) (arguments : List Text) (last : Text) : Aim :=
  let dashed := Command.isDashed last
  if dashed && !last.contains 61 then { arguments := arguments, typed := last }
  else
    let flagPart : Text := if dashed then last.takeWhile (· != 61) else []
    let typed : Text := if dashed then last.drop (flagPart.length + 1) else last
    let previous : Text := arguments.getLastD []
    let waiting := isFlag previous && !previous.contains 61
    let (name, kept) : Text × List Text :=
      if !(calledIn flagPart).isEmpty then (calledIn flagPart, arguments)
      else if waiting then (calledIn previous, arguments.dropLast)
      else ([], arguments)
    if name.isEmpty then { arguments := kept, typed := typed }
    else match c.flagCalled? name with
      | none => { arguments := arguments, typed := last, unknown := true }
      | some flag =>
        if flag.isSwitch && !dashed then { arguments := arguments, typed := typed }
        else { flag := some flag, arguments := kept, typed := typed }

end Aim

namespace Choices

/-- What may stand for an aim once the arguments before it are taken apart. `flagsEnded`
says that two dashes have ended the flags. -/
def ofAim (c : Command) (aim : Aim) (p : Parsed) (flagsEnded : Bool) : Choices :=
  let used (name : Text) : Bool := (p.value? name).isSome
  if aim.unknown && !flagsEnded then {}
  else if c.askingFlags.any fun f => used f.name then { files := false }
  else if aim.flag.isSome && !flagsEnded then {}
  else if aim.flag.isNone && Command.isDashed aim.typed && !aim.typed.contains 61 &&
    !flagsEnded then
    let unused := (c.sharedFlags ++ c.localFlags).filter fun f => !used f.name
    { choices := unused.flatMap (Flag.completions aim.typed), files := false }
  else
    let first := aim.flag.isNone && p.words.isEmpty
    let commands := if first then c.completions aim.typed else []
    match c with
    | .help =>
      match Command.find p.words with
      | .ok (topic, _) =>
        { choices := commands ++ topic.completions aim.typed, files := false }
      | .error _ => { choices := commands, files := false }
    | .completion | .script _ => { choices := commands, files := false }
    | _ => { choices := commands, files := !(first && !c.listed.isEmpty) }

/-- What may stand in place of the last argument. -/
def ofArguments (arguments : List Text) : Choices :=
  let last : Text := arguments.getLastD []
  match Command.find arguments.dropLast with
  | .error _ => {}
  | .ok (.choices described, rest) =>
    ofAim (.choices described) { arguments := rest, typed := last } ⟨[], rest⟩ false
  | .ok (c, rest) =>
    let aim := Aim.ofArguments c rest last
    match parse c.flags none aim.arguments with
    | .error _ => {}
    | .ok p =>
      let ended := match parse c.flags none (aim.arguments ++ [Text.ofString "--"]) with
        | .ok q => p.words.length < q.words.length
        | .error _ => false
      ofAim c aim p ended

end Choices

/-- The variables that say whether a shell is shown the lines about its choices. The first
one that is set and not empty counts. -/
def describedVariables : List Text :=
  ["CALLOSUM_COMPLETION_DESCRIPTIONS", "COBRA_COMPLETION_DESCRIPTIONS"]

/-- Whether a shell that asks for lines about its choices is shown them. What is no truth
value changes nothing. -/
def isDescribed (environment : Settings.Environment) : Bool :=
  let values := describedVariables.filterMap fun name => environment.lookup name
  ((values.find? fun value => !value.isEmpty).bind Settings.boolWord?).getD true

/-- Whether a shell asks for lines about its choices. `described` is how it asks; where it
completes such a question, that one decides instead. -/
def asksForLines (described : Bool) (arguments : List Text) : Bool :=
  match Command.find arguments.dropLast with
  | .ok (.choices inner, _) => inner
  | _ => described

/-- The script that has a shell ask the tool. -/
def Shell.script (shell : Shell) (described : Bool) : Text :=
  let tool := Release.toolName
  let ask := (Command.choices described).word
  match shell with
  | .bash =>
    "_" ++ tool ++ "() \x7b\n  local choices\n  choices=$(" ++ tool ++ " " ++ ask ++
      " \"$\x7bCOMP_WORDS[@]:1:COMP_CWORD\x7d\" 2>/dev/null | grep -v '^:' | cut -f 1)\n" ++
      "  COMPREPLY=($choices)\n\x7d\ncomplete -o default -F _" ++ tool ++ " " ++ tool ++ "\n"
  | .fish =>
    "complete -c " ++ tool ++ " -a '(" ++ tool ++ " " ++ ask ++
      " (commandline -opc)[2..] (commandline -ct) 2>/dev/null | string match -v \":*\")'\n"
  | .powershell =>
    "Register-ArgumentCompleter -Native -CommandName " ++ tool ++ " -ScriptBlock \x7b\n" ++
      "  param($word, $line)\n  $typed = $line.CommandElements | Select-Object -Skip 1\n" ++
      "  " ++ tool ++ " " ++ ask ++
        " @typed 2>$null | Where-Object \x7b $_ -notmatch '^:' \x7d\n\x7d\n"
  | .zsh =>
    "#compdef " ++ tool ++ "\nlocal -a choices\nchoices=(\"$\x7b(@f)$(" ++ tool ++
      " " ++ ask ++
      " \"$\x7b(@)words[2,CURRENT]\x7d\" 2>/dev/null)\x7d\")\n" ++
      "compadd -- \"$\x7b(@)$\x7b(@)choices:#:*\x7d%%$'\\t'*\x7d\"\n"

end Persona.CommandLine
