import Persona.Text

/-!
# Files as the program sees them

A folder holds the files and directories below the current directory, by the
components of their paths. Reading and writing answer the way a file system
does: with the operation that failed, the path as it was given, and the reason.

Of what lies outside the current directory only the root and the directories
above the current one are known, and these only as directories.
-/

namespace Persona

/-- Why a path could not be used. -/
inductive AccessError.Reason where
  | missing
  | notDirectory
  | isDirectory
  | invalid
  | nameTooLong
deriving DecidableEq, Repr

/-- A failed operation on a path. -/
structure AccessError where
  operation : Text
  path : Text
  reason : AccessError.Reason
deriving DecidableEq, Repr

/-- The wording of a reason. -/
def AccessError.Reason.text : AccessError.Reason → Text
  | .missing => "no such file or directory"
  | .notDirectory => "not a directory"
  | .isDirectory => "is a directory"
  | .invalid => "invalid argument"
  | .nameTooLong => "file name too long"

/-- The wording of a failed operation. -/
def AccessError.text (e : AccessError) : Text :=
  e.operation ++ " " ++ e.path ++ ": " ++ e.reason.text

/-- The files and directories below the current directory. -/
structure Folder where
  files : List (List Text × Text)
  directories : List (List Text)

namespace Folder

/-- What a path leads to. -/
inductive Node where
  | file (content : Text)
  | directory

/-- The component that means the directory it stands in. -/
def here : Text := "."

/-- The component that means the directory above. -/
def above : Text := ".."

/-- The component that stands for the root. -/
def root : Text := "/"

/-- The longest name a directory can hold, in bytes. -/
def longestName : Nat := 255

/-- The longest path, in bytes. -/
def longestPath : Nat := 4095

/-- The parts of a path that are not empty. A path from the root starts with
the part `/`. -/
def steps (path : Text) : List Text :=
  let named := (Text.splitAt 47 path).filter fun part => !part.isEmpty
  if path.head? = some 47 then root :: named else named

/-- The components of a path: its parts without `.`, which says nothing about where the
path leads. -/
def components (path : Text) : List Text := (steps path).filter (· != here)

/-- The path with these components. -/
def pathOf (place : List Text) : Text :=
  match place with
  | first :: rest => if first = root then root ++ Text.join root rest else Text.join root place
  | [] => here

/-- One part further; `.` stays and `..` goes back to the directory above. -/
def advance (place : List Text) (part : Text) : List Text :=
  if part = here then place
  else if part = above then
    if place.all (· == above) then place ++ [part]
    else if place = [root] then place
    else place.dropLast
  else place ++ [part]

/-- The places that components lead through from a place. -/
def placesFrom (place : List Text) : List Text → List (List Text)
  | [] => []
  | part :: rest => advance place part :: placesFrom (advance place part) rest

/-- The places along a path. -/
def places (path : Text) : List (List Text) := placesFrom [] (components path)

/-- The directory in which the last component of a path stands, without detours. -/
def parentPath (path : Text) : Text :=
  pathOf ((components (path.reverse.dropWhile (· != 47)).reverse).foldl advance [])

/-- The file at a place, if there is one. -/
def fileAt? (f : Folder) (place : List Text) : Option Text :=
  (f.files.reverse.find? fun file => file.1 == place).map Prod.snd

/-- A directory is the current one or one above it, the root, a listed one, or one with
something in it. -/
def isDirectory (f : Folder) (place : List Text) : Bool :=
  place.all (· == above) || place == [root] ||
    f.directories.any (fun d => place.isPrefixOf d) ||
    f.files.any fun file => place.isPrefixOf file.1 && place.length < file.1.length

/-- What is at a place. -/
def nodeAt? (f : Folder) (place : List Text) : Option Node :=
  match f.fileAt? place with
  | some content => some (.file content)
  | none => if f.isDirectory place then some .directory else none

/-- Follow the parts of a path from a directory. The place reached comes with what is
there; only the last part may be absent, and no part may be longer than a name can be. -/
def follow (f : Folder) : (place : List Text) → List Text →
    Except AccessError.Reason (List Text × Option Node)
  | place, [] => .ok (place, f.nodeAt? place)
  | place, part :: rest =>
    if longestName < part.length then .error .nameTooLong
    else
      let next := advance place part
      match f.nodeAt? next, rest with
      | some (.file _), _ :: _ => .error .notDirectory
      | none, _ :: _ => .error .missing
      | _, _ => follow f next rest

/-- What is wrong with a path, wherever it leads. -/
def pathFault? (path : Text) : Option AccessError.Reason :=
  if path.isEmpty then some .missing
  else if path.contains 0 then some .invalid
  else if longestPath < path.length then some .nameTooLong
  else none

/-- Where a path leads. -/
def resolve (f : Folder) (path : Text) : Except AccessError.Reason (List Text × Option Node) :=
  match pathFault? path with
  | some reason => .error reason
  | none => f.follow [] (steps path)

/-- The path ends in a slash, so it can only mean a directory. -/
def meansDirectory (path : Text) : Bool := path.getLast? = some 47

/-- The content of a file. -/
def read (f : Folder) (path : Text) : Except AccessError Text :=
  match f.resolve path with
  | .error reason => .error ⟨"open", path, reason⟩
  | .ok (_, none) => .error ⟨"open", path, .missing⟩
  | .ok (_, some .directory) => .error ⟨"read", path, .isDirectory⟩
  | .ok (_, some (.file content)) =>
    if meansDirectory path then .error ⟨"open", path, .notDirectory⟩ else .ok content

/-- Where a file that is to be written will stand. A path that can only mean a directory
is followed no further than to the directory that would hold it. -/
def placeToWrite (f : Folder) (path : Text) : Except AccessError.Reason (List Text) :=
  if (pathFault? path).isNone && meansDirectory path then
    match f.follow [] (steps path).dropLast with
    | .error reason => .error reason
    | .ok (_, some .directory) => .error .isDirectory
    | .ok (_, some (.file _)) => .error .notDirectory
    | .ok (_, none) => .error .missing
  else
    match f.resolve path with
    | .error reason => .error reason
    | .ok (_, some .directory) => .error .isDirectory
    | .ok (place, _) => .ok place

/-- The folder after a file was written, which must be in an existing directory. -/
def write (f : Folder) (path content : Text) : Except AccessError Folder :=
  match f.placeToWrite path with
  | .error reason => .error ⟨"open", path, reason⟩
  | .ok place =>
    .ok { f with files := f.files.filter (fun file => file.1 != place) ++ [(place, content)] }

/-- The folder with every directory along a chain of components; `made` is the part of the
chain that is already there. A file anywhere in the chain is no directory. -/
def makeChain (f : Folder) : (made : List Text) → List Text → Except AccessError Folder
  | _, [] => .ok f
  | made, part :: rest =>
    let next := made ++ [part]
    let path := pathOf next
    match pathFault? path, f.nodeAt? next with
    | some reason, _ => .error ⟨"mkdir", path, reason⟩
    | none, some (.file _) => .error ⟨"mkdir", path, .notDirectory⟩
    | none, some .directory => makeChain f next rest
    | none, none =>
      if longestName < part.length then .error ⟨"mkdir", path, .nameTooLong⟩
      else makeChain { f with directories := f.directories ++ [next] } next rest

/-- The folder with a directory and all directories above it. -/
def makeDirectories (f : Folder) (path : Text) : Except AccessError Folder :=
  f.makeChain [] (components path)

/-- The directories of a folder that an earlier one does not have, with their paths. -/
def madeSince (f before : Folder) : List Text :=
  (f.directories.filter fun place => !before.isDirectory place).map pathOf

/-- The files of a folder that are not the same in an earlier one, with their paths. -/
def changedSince (f before : Folder) : List (Text × Text) :=
  (f.files.filter fun file => before.fileAt? file.1 != some file.2).map fun file =>
    (pathOf file.1, file.2)

end Folder

end Persona
