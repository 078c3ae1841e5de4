import Persona.Grammar.Error
import Persona.Analysis.Problem

/-!
# Failures

Everything that can go wrong between a document and its output. A failure is a
cause; the parts of the program it passes through on its way out put their name
in front, so that the message reads from the outside in.
-/

namespace Persona

/-- Why a personality may not be compiled. -/
inductive CompileError where
  | invalidStrength (trait : Text) (value : Binary64)
  | duplicateDomain (name : Text)
  | emptyName
  | unsound (problems : List Problem)
  | unknownTarget (name : Text)
  | incomplete (place : Text)
deriving DecidableEq, Repr

namespace CompileError

/-- The name of an error. -/
def kind : CompileError → Text
  | .invalidStrength _ _ => "InvalidTraitStrength"
  | .duplicateDomain _ => "DuplicateDomain"
  | .emptyName => "EmptyName"
  | .unsound _ => "SemanticErrors"
  | .unknownTarget _ => "UnknownTarget"
  | .incomplete _ => "IncompleteNode"

/-- What an error is about; some are about no one thing. -/
def name : CompileError → Text
  | .invalidStrength trait _ => trait
  | .duplicateDomain name => name
  | .emptyName => []
  | .unsound _ => []
  | .unknownTarget name => name
  | .incomplete place => place

/-- The value that was refused; zero where there is none. -/
def value : CompileError → Binary64
  | .invalidStrength _ value => value
  | _ => .zero

/-- The problems behind an error. -/
def problems : CompileError → List Problem
  | .unsound problems => problems
  | _ => []

/-- The line that reports an error. -/
def text : CompileError → Text
  | .invalidStrength trait value =>
    "InvalidTraitStrength(" ++ trait ++ ", " ++ Layout.message.write value ++
      "): strength must be within [0, 1]"
  | .duplicateDomain name =>
    "DuplicateDomain(" ++ name ++ "): knowledge domain declared more than once"
  | .emptyName => "EmptyName: personality name must not be empty"
  | .unsound problems => "SemanticErrors: " ++ Text.join "; " (problems.map Problem.text)
  | .unknownTarget name => "UnknownTarget(" ++ name ++ ")"
  | .incomplete place => "IncompleteNode(" ++ place ++ "): variant is nil"

/-- The text of a list of errors. -/
def textOfList (errors : List CompileError) : Text :=
  joinMessages (errors.map CompileError.text)

end CompileError

/-- Why a target could not be written. -/
inductive EmitError where
  | missing (part : Missing)
  | unknownDomain (source target : Text)
  | unsupportedNumber (value : Binary64)
  | stated (message : Text)
deriving DecidableEq, Repr

/-- The wording of a failed emission. -/
def EmitError.message : EmitError → Text
  | .missing part => part.message
  | .unknownDomain source target =>
    "connection " ++ edgeText source target ++ ": unknown domain"
  | .unsupportedNumber value => "json: unsupported value: " ++ value.text
  | .stated message => message

/-- Why a request was not answered with an output. -/
inductive Failure where
  | unreadable (errors : List ParseError)
  | malformed (error : ParseError)
  | rejected (errors : List CompileError)
  | refused (error : CompileError)
  | emission (error : EmitError)
  | canceled
  | malformedDocument
  | malformedRequest
  | malformedSettings (path : Text)
  | malformedEnvironment
  | incomparableKey (kind : Text)
  | unknownLevel (domain topic level : Text)
  | access (error : AccessError)
  | documents (count : Nat)
  | stated (message : Text)
  | within (place : Text) (inner : Failure)
deriving DecidableEq, Repr

namespace Failure

/-- The wording of a failure. What was wrong with a malformed text is not told. -/
def message : Failure → Text
  | .unreadable errors => ParseError.textOfList errors
  | .malformed error => error.text
  | .rejected errors => CompileError.textOfList errors
  | .refused error => error.text
  | .emission error => error.message
  | .canceled => "context canceled"
  | .malformedDocument => "decode personality document: ..."
  | .malformedRequest => "invalid request JSON: ..."
  | .malformedSettings path => "parse config " ++ path ++ ": ..."
  | .malformedEnvironment => "config environment: ..."
  | .incomparableKey kind => "runtime error: hash of unhashable type " ++ kind
  | .unknownLevel domain topic level =>
    "domain " ++ domain.quoted ++ ": topic " ++ topic.quoted ++ ": unknown level " ++
      level.quoted
  | .access error => error.text
  | .documents count => "one or more documents failed (" ++ Text.ofNat count ++ ")"
  | .stated message => message
  | .within place inner => place ++ ": " ++ inner.message

/-- The failure without the places it passed through. -/
def core : Failure → Failure
  | .within _ inner => inner.core
  | failure => failure

/-- One message for each error of a list, or the one message there is. -/
def messages (f : Failure) : List Text :=
  match f.core with
  | .unreadable errors => errors.map ParseError.text
  | .rejected errors => errors.map CompileError.text
  | _ => [f.message]

end Failure

end Persona
