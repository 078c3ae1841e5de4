import Persona.Settings.Reader

/-!
# Flags

Flags may stand anywhere among the arguments: `--name value` or `--name=value`,
and with a short letter `-l value`, `-l=value` or `-lvalue`. A switch needs no
value, so short switches can be put together, and what follows a switch is never
its value. Two dashes end the flags.
-/

namespace Persona.CommandLine

/-- A flag with its short letter, if it has one, and a line about it. A switch is a flag
without a value. -/
structure Flag where
  name : Text
  short : Option UInt8 := none
  isSwitch : Bool := false
  about : Text
deriving DecidableEq, Repr

/-- The flag as messages name it. -/
def Flag.title (f : Flag) : Text :=
  match f.short with
  | some letter => "-" ++ [letter] ++ ", --" ++ f.name
  | none => "--" ++ f.name

/-- What is wrong with the arguments. -/
inductive UsageError where
  | unknownFlag (name : Text)
  | unknownShort (letter : UInt8) (group : Text)
  | missingValue (name : Text)
  | missingShortValue (letter : UInt8) (group : Text)
  | badSyntax (argument : Text)
  | badSwitch (flag : Flag) (value : Text)
  | unknownCommand (word path : Text) (similar : List Text)
  | tooMany (most received : Nat)
  | tooFew (least received : Nat)
deriving DecidableEq, Repr

/-- The wording of a usage error. -/
def UsageError.message : UsageError → Text
  | .unknownFlag name => "unknown flag: --" ++ name
  | .unknownShort letter group =>
    "unknown shorthand flag: " ++ Text.quotedCharacter letter.toNat ++ " in -" ++ group
  | .missingValue name => "flag needs an argument: --" ++ name
  | .missingShortValue letter group =>
    "flag needs an argument: " ++ Text.quotedCharacter letter.toNat ++ " in -" ++ group
  | .badSyntax argument => "bad flag syntax: " ++ argument
  | .badSwitch flag value =>
    "invalid argument " ++ value.quoted ++ " for " ++ flag.title.quoted ++
      " flag: strconv.ParseBool: parsing " ++ value.quoted ++ ": invalid syntax"
  | .unknownCommand word path similar =>
    let line (name : Text) : Text := "\t" ++ name ++ "\n"
    let hint : Text :=
      if similar.isEmpty then [] else "\n\nDid you mean this?\n" ++ similar.flatMap line
    "unknown command " ++ word.quoted ++ " for " ++ path.quoted ++ hint
  | .tooMany most received =>
    "accepts at most " ++ Text.ofNat most ++ " arg(s), received " ++ Text.ofNat received
  | .tooFew least received =>
    "requires at least " ++ Text.ofNat least ++ " arg(s), only received " ++
      Text.ofNat received

/-- The arguments taken apart: the values given to flags, in order, and the words that are
left. -/
structure Parsed where
  values : List (Text × Text)
  words : List Text

namespace Parsed

/-- The value last given to a flag. -/
def value? (p : Parsed) (name : Text) : Option Text := p.values.reverse.lookup name

/-- The value of a flag, empty if none was given. -/
def value (p : Parsed) (name : Text) : Text := (p.value? name).getD []

/-- The position of a switch, if it was touched. -/
def switch? (p : Parsed) (name : Text) : Option Bool :=
  (p.value? name).bind Settings.boolWord?

/-- The switch is on. -/
def isOn (p : Parsed) (name : Text) : Bool := (p.switch? name).getD false

/-- One more value in front. -/
def give (p : Parsed) (flag : Flag) (value : Text) : Parsed :=
  { p with values := (flag.name, value) :: p.values }

end Parsed

namespace Flag

/-- The flag with a name. -/
def named? (flags : List Flag) (name : Text) : Option Flag := flags.find? fun f =>
    f.name == name

/-- The flag with a short letter. -/
def lettered? (flags : List Flag) (letter : UInt8) : Option Flag :=
  flags.find? fun f => f.short == some letter

/-- A value that the flag accepts. -/
def checked (f : Flag) (value : Text) : Except UsageError Text :=
  if f.isSwitch && (Settings.boolWord? value).isNone then .error (.badSwitch f value)
    else .ok value

/-- The value of a switch that is given none. -/
def switchedOn : Text := "true"

end Flag

/-- What a group of short letters gives: values for flags, or a flag that still waits for
its value in the next argument. -/
structure Group where
  values : List (Flag × Text)
  waiting : Option (Flag × UInt8 × Text)

/-- Read the letters behind a single dash. -/
def readGroup (flags : List Flag) : Text → Except UsageError Group
  | [] => .ok ⟨[], none⟩
  | letter :: rest =>
    match Flag.lettered? flags letter with
    | none => .error (.unknownShort letter (letter :: rest))
    | some flag =>
      match rest with
      | 61 :: value :: more => do
        let value ← flag.checked (value :: more)
        return ⟨[(flag, value)], none⟩
      | _ =>
        if flag.isSwitch then do
          let group ← readGroup flags rest
          return { group with values := (flag, Flag.switchedOn) :: group.values }
        else if rest.isEmpty then .ok ⟨[], some (flag, letter, [letter])⟩
        else .ok ⟨[(flag, rest)], none⟩

/-- Read a name behind two dashes, with its value if that is part of the argument. -/
def readLong (flags : List Flag) (argument : Text) : Except UsageError (Flag × Option Text) :=
  let body := argument.drop 2
  let name := body.takeWhile (· != 61)
  if name.isEmpty || name.head? = some 45 then .error (.badSyntax argument)
  else match Flag.named? flags name with
    | none => .error (.unknownFlag name)
    | some flag =>
      match body.drop name.length with
      | _ :: value => do
        let value ← flag.checked value
        return (flag, some value)
      | [] => .ok (flag, if flag.isSwitch then some Flag.switchedOn else none)

/-- Take arguments apart. A flag that waits for its value takes the next argument,
whatever it is; `waiting` is that flag with the error for an end without one. -/
def parse (flags : List Flag) : (waiting : Option (Flag × UsageError)) → List Text →
    Except UsageError Parsed
  | some (_, e), [] => .error e
  | none, [] => .ok ⟨[], []⟩
  | some (flag, _), value :: rest => do
    let parsed ← parse flags none rest
    return parsed.give flag value
  | none, argument :: rest =>
    if argument = "--" then .ok ⟨[], rest⟩
    else if argument.take 2 = "--" then do
      match ← readLong flags argument with
      | (flag, some value) =>
        let parsed ← parse flags none rest
        return parsed.give flag value
      | (flag, none) => parse flags (some (flag, .missingValue flag.name)) rest
    else match argument with
      | 45 :: letter :: letters => do
        let group ← readGroup flags (letter :: letters)
        let waiting := group.waiting.map fun (flag, letter, group) =>
          (flag, UsageError.missingShortValue letter group)
        let parsed ← parse flags waiting rest
        return group.values.foldr (fun (flag, value) p => p.give flag value) parsed
      | _ => do
        let parsed ← parse flags none rest
        return { parsed with words := argument :: parsed.words }

end Persona.CommandLine
