import Persona.CommandLine

/-!
# The program

The file system is read before a call and written after it; the call itself is a
function. What cannot be read counts as absent.
-/

open Persona

namespace Persona.Program

/-- The text as the system takes it. -/
def toSystem (text : Text) : String := (String.fromUTF8? ⟨text.toArray⟩).getD ""

/-- The bytes of a text. -/
def toBytes (text : Text) : ByteArray := ⟨text.toArray⟩

/-- The code by which the system says that a path is a directory. -/
def directoryCode : UInt32 := 21

/-- Add what is at a place of the file system to a folder. -/
def look (folder : Folder) (place : List Text) : IO Folder := do
  match ← (IO.FS.readBinFile (toSystem (Folder.pathOf place))).toBaseIO with
  | .ok content =>
    return { folder with files := folder.files ++ [(place, content.data.toList)] }
  | .error (.inappropriateType _ code _) =>
    if code = directoryCode then
      return { folder with directories := folder.directories ++ [place] }
    else return folder
  | .error _ => return folder

/-- The variables that are set, of those that say something to the tool. -/
def environment : IO Settings.Environment := do
  let names := Settings.settable.map Prod.fst ++ CommandLine.describedVariables
  let values ← names.mapM fun name => do
    return (← IO.getEnv (toSystem name)).map fun value => (name, Text.ofString value)
  return values.filterMap id

/-- The rest of the standard input. -/
def input : IO Text := do
  return (← (← IO.getStdin).readBinToEnd).data.toList

/-- Everything a call with these arguments may look at. -/
def gather (arguments : List Text) : IO CommandLine.Call := do
  let needs := CommandLine.needs arguments
  let folder ← (needs.paths.flatMap Folder.places).eraseDups.foldlM look ⟨[], []⟩
  return {
    arguments := arguments
    input := ← if needs.input then input else pure []
    environment := ← environment
    folder := folder }

/-- Make the changes of a call. -/
def apply (before after : Folder) : IO Unit := do
  for path in after.madeSince before do
    IO.FS.createDirAll (toSystem path)
  for (path, content) in after.changedSince before do
    IO.FS.writeBinFile (toSystem path) (toBytes content)

end Persona.Program

/-- Run the command line. The status is one if the call failed. -/
def main (arguments : List String) : IO UInt32 := do
  let call ← Program.gather (arguments.map Text.ofString)
  let outcome := CommandLine.run call
  (← IO.getStdout).write (Program.toBytes outcome.output)
  (← IO.getStderr).write (Program.toBytes outcome.errors)
  Program.apply call.folder outcome.folder
  match outcome.failure with
  | none => return 0
  | some failure =>
    (← IO.getStderr).write (Program.toBytes (failure.message ++ "\n"))
    return 1
