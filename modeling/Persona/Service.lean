import Persona.Runner

/-!
# Answering one request

A request is the first JSON value of an input; the answer is one line with the output
or with the messages of what went wrong.
-/

namespace Persona.Service

open Structured (readText readObject)

/-- The fields of a request, all of them texts. -/
structure Asked where
  source : Text := []
  target : Text := []
  context : Text := []
  file : Text := []
  degree : Text := []

/-- Read the fields of a request. -/
def readAsked : Asked → Json → Option Asked :=
  readObject fun old name value =>
    if name = "SOURCE" then (readText old.source value).map fun x => { old with source := x }
    else if name = "TARGET" then (readText old.target value).map fun x =>
      { old with target := x }
    else if name = "CONTEXT" then (readText old.context value).map fun x =>
      { old with context := x }
    else if name = "FILENAME" then (readText old.file value).map fun x =>
      { old with file := x }
    else if name = "OPTIMIZE" then (readText old.degree value).map fun x =>
      { old with degree := x }
    else some old

/-- The target asked for; JSON where none is named. -/
def targetOf (asked : Asked) : Except Failure Target :=
  if asked.target.isEmpty then .ok .json else (Target.named asked.target).mapError .refused

/-- The request that was asked. -/
def requestOf (asked : Asked) : Except Failure Request := do
  let target ← targetOf asked
  match Simplify.Degree.ofName? asked.degree with
  | none => .error (.stated (Simplify.Degree.unknownMessage asked.degree))
  | some degree =>
    return { source := asked.source, file := asked.file, target := target.text,
             context := asked.context, degree := degree }

/-- The request that an input text asks for. -/
def requested (text : Text) : Except Failure Request :=
  match (Json.readFirst? text).bind (readAsked {}) with
  | none => .error .malformedRequest
  | some asked => requestOf asked

/-- The output for an input text, whose request may be stopped while it is run. -/
def handle (runner : Runner) (text : Text) (watch : Watch := {}) : Logged Failure Text :=
  match requested text with
  | .error failure => .fail failure
  | .ok request =>
    let (_, records, response) := runner.runWatched watch request
    ⟨runner.openingRecords ++ records,
      match response.failure with
      | some failure => .error failure
      | none => .ok response.output⟩

/-- The answer to a request. -/
structure Answer where
  output : Text := []
  errors : List Text := []

/-- The answer for an outcome. -/
def Answer.ofResult : Except Failure Text → Answer
  | .ok output => { output := output }
  | .error failure => { errors := failure.messages }

/-- The fields of an answer; what is empty is left out. -/
def Answer.fields (a : Answer) : List (Text × Json) :=
  let output : List (Text × Json) :=
    if a.output.isEmpty then [] else [("output", .string a.output)]
  let errors : List (Text × Json) :=
    if a.errors.isEmpty then [] else [("errors", .list (a.errors.map .string))]
  output ++ errors

/-- The line that answers an input text. -/
def answerLine (result : Except Failure Text) : Text :=
  Json.write [] (.object (Answer.ofResult result).fields) ++ "\n"

end Persona.Service
