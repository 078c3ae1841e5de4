import Persona.Analysis.Checks
import Persona.Table.Markdown

/-!
# Analysis

An analysis runs every check and every lint over a personality and collects what
they find in a fixed order. A personality is sound when there is no problem;
advice does not count.
-/

namespace Persona

/-- What an analysis has found. -/
structure Analysis where
  problems : List Problem
  advice : List Advice
deriving DecidableEq, Repr

namespace Analysis

/-- An analysis that has found nothing. -/
def empty : Analysis := ⟨[], []⟩

/-- The checks, in the order in which they run. -/
def checks : List (Personality → Except Missing (List Problem)) :=
  [fun p => .ok (Check.circular p), fun p => .ok (Check.traitConflicts p),
   fun p => .ok (Check.determinism p), Check.unreachable, fun p =>
     .ok (Check.domainReferences p),
   fun p => .ok (Check.modifierConflicts p), fun p => .ok (Check.consistency p),
   fun p => .ok (Check.safety p), fun p => .ok (Check.duplicates p)]

/-- The lints, in the order in which they run. -/
def lints : List (Personality → List Advice) :=
  [Lint.unusedDomains, Lint.weakConnections, Lint.redundantModifiers, Lint.suspiciousEvolution,
   Lint.modifierTargets, Lint.emptyDomains]

/-- Run every check and every lint. -/
def run (p : Personality) : Except Missing Analysis := do
  let problems ← checks.mapM fun check => check p
  return ⟨problems.flatten, lints.flatMap fun lint => lint p⟩

/-- Nothing stands against the personality. -/
def isValid (a : Analysis) : Bool := a.problems.isEmpty

/-- The names of what was found, problems before advice, each in the order of its list. -/
def found (a : Analysis) : List Text :=
  (Problem.kinds.filter fun kind => a.problems.any fun p => p.kind == kind) ++
    Advice.kinds.filter fun kind => a.advice.any fun w => w.kind == kind

/-- The findings as a table. -/
def report (a : Analysis) : Table where
  header := some ["Severity", "Kind", "Subject", "Detail"]
  rows :=
    a.problems.map (fun p =>
      let subject := if p.path.isEmpty then p.subject else Text.join " -> " p.path
      [.text "error", .text p.kind, .text subject, .text p.detail]) ++
    a.advice.map fun w => [.text "warning", .text w.kind, .text w.subject, .text w.detail]
  footer := some [.text [], .text [], .text (Text.ofNat a.problems.length ++ " errors"),
    .text (Text.ofNat a.advice.length ++ " warnings")]

end Analysis

end Persona
