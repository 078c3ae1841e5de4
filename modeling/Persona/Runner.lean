import Persona.Compile
import Persona.Simplify
import Persona.Artifact.Key
import Persona.Artifact.Cache

/-!
# Running requests

A request names a source and what to make of it. Running it reads the document,
simplifies it when asked to, validates it and writes the target. With a cache the
output is looked up first; what is found there is returned as it is, and only
outputs are stored, never failures.

The cache is the one thing that one request leaves to the next, so it is passed
on explicitly. Requests of a batch are run in order. A request may be stopped from
outside while it is run; when that is noticed is part of what a run is given.
-/

namespace Persona

open Simplify (Degree Stats)

/-- Why work is stopped from outside: it was called off, or its time was up. -/
inductive Stop where
  | canceled | expired
deriving DecidableEq, Repr

/-- The failure of work that was stopped. -/
def Stop.failure : Stop → Failure
  | .canceled => .canceled
  | .expired => .stated "context deadline exceeded"

/-- What a request finds when it looks whether it is to stop. -/
structure Watch where
  atStart : Option Stop := none
  afterReading : Option Stop := none

/-- What is to be compiled, and how. A request can be canceled before it is run. -/
structure Request where
  source : Text
  file : Text
  target : Text
  context : Text
  degree : Degree
  canceled : Bool := false

/-- How requests are run. A nesting limit that is not positive asks for the default. The
digest is the one that keys are made with. -/
structure RunOptions where
  strict : Bool := false
  limit : Int := 0
  compile : CompileOptions := {}
  digest : Text → UInt64 := Artifact.Digest.ofText

/-- The options together with the cache, if there is one. -/
structure Runner where
  options : RunOptions
  cache : Option Artifact.Cache

/-- What came of a request. Advice and statistics are there only when the output was not
found in the cache. -/
structure Response where
  file : Text
  target : Text
  output : Text := []
  advice : List Advice := []
  stats : Option Stats := none
  cached : Bool := false
  failure : Option Failure := none

/-- What a new runner records about its cache. -/
def Runner.openingRecords (r : Runner) : List Log.Record :=
  r.cache.toList.map fun cache =>
    Log.Record.within "pipeline"
      ⟨.debug, "output cache enabled", [("capacity", .count cache.capacity)]⟩

namespace Request

/-- The parts that determine the artifact of a request. -/
def keyParts (q : Request) (strict : Bool) : List Text :=
  [q.source, q.target, q.context, q.degree.text, if strict then "true" else "false"]

/-- The key under which the output of a request is kept. -/
def key (q : Request) (options : RunOptions) : UInt64 :=
  Artifact.key (q.keyParts options.strict) options.digest

/-- How the document of a request is read. -/
def readingOptions (q : Request) (options : RunOptions) : ReadingOptions :=
  { file := q.file, strict := options.strict,
    limit := if 0 < options.limit then options.limit else Grammar.defaultLimit }

/-- The response before anything has happened. -/
def blank (q : Request) : Response := { file := q.file, target := q.target }

/-- The simplified personality, with statistics unless nothing was asked for. -/
def simplified (q : Request) (p : Personality) : Personality × Option Stats :=
  if q.degree = .none then (p, none)
  else
    let (simpler, stats) := p.simplify q.degree
    (simpler, some stats)

/-- Run every stage of a request, without a cache. -/
def build (q : Request) (options : RunOptions) : List Log.Record × Response :=
  let reading := Personality.read (q.readingOptions options) q.source
  match reading.result with
  | .error errors =>
    (reading.records,
      { q.blank with
        failure := some (.within ("parse " ++ displayName q.file) (.unreadable errors)) })
  | .ok p =>
    let (simpler, stats) := q.simplified p
    let compiled := options.compile.compile simpler q.target q.context
    (reading.records ++ compiled.records,
      match compiled.result with
      | .error failure =>
        { q.blank with
          stats := stats, failure :=
            some (.within ("compile " ++ displayName q.file) failure) }
      | .ok result =>
        { q.blank with stats := stats, output := result.output, advice := result.advice })

/-- What is recorded when the output was found in the cache. -/
def hitRecord (q : Request) : Log.Record :=
  Log.Record.within "pipeline"
    ⟨.debug, "cache hit", [("file", .text q.file), ("target", .text q.target)]⟩

/-- What is recorded when the output was made. -/
def builtRecord (q : Request) (advice : Nat) : Log.Record :=
  Log.Record.within "pipeline"
    ⟨.debug, "compiled", [("file", .text q.file), ("target", .text q.target),
      ("level", .text q.degree.text), ("warnings", .count advice)]⟩

/-- Run every stage and record the success. -/
def make (q : Request) (options : RunOptions) : List Log.Record × Response :=
  let (records, response) := q.build options
  match response.failure with
  | some _ => (records, response)
  | none => (records ++ [q.builtRecord response.advice.length], response)

end Request

namespace Runner

/-- Run one request. -/
def run (r : Runner) (q : Request) : Runner × List Log.Record × Response :=
  if q.canceled then (r, [], { q.blank with failure := some .canceled })
  else match r.cache with
    | none => (r, q.make r.options)
    | some cache =>
      match cache.get (q.key r.options) with
      | (some output, after) =>
        ({ r with cache := some after }, [q.hitRecord],
          { q.blank with output := output, cached := true })
      | (none, after) =>
        let (records, response) := q.make r.options
        let stored := match response.failure with
          | some _ => after
          | none => after.set (q.key r.options) response.output
        ({ r with cache := some stored }, records, response)

/-- What the cache holds for a request, and the runner after looking. -/
def lookUp (r : Runner) (q : Request) : Option Text × Runner :=
  match r.cache with
  | none => (none, r)
  | some cache =>
    let (found, after) := cache.get (q.key r.options)
    (found, { r with cache := some after })

/-- Run a request that looks twice whether it is to stop. The second time is after its
document has been read, so nothing stops a request there that finds its output in the
cache or cannot read its document. -/
def runWatched (r : Runner) (watch : Watch) (q : Request) :
    Runner × List Log.Record × Response :=
  match watch.atStart, watch.afterReading with
  | some stop, _ => (r, [], { q.blank with failure := some stop.failure })
  | none, none => r.run q
  | none, some stop =>
    let reading := Personality.read (q.readingOptions r.options) q.source
    match q.canceled, r.lookUp q, reading.result with
    | false, (none, after), .ok _ =>
      (after, reading.records, { q.blank with failure := some stop.failure })
    | _, _, _ => r.run q

/-- Run requests in order. -/
def runAll : Runner → List Request → Runner × List Log.Record × List Response
  | r, [] => (r, [], [])
  | r, q :: rest =>
    let (next, records, response) := r.run q
    let (last, more, responses) := runAll next rest
    (last, records ++ more, response :: responses)

/-- What is recorded at the end of a batch. -/
def batchRecord (responses : List Response) : Log.Record :=
  Log.Record.within "pipeline"
    ⟨.debug, "batch done", [("requests", .count responses.length),
      ("failed", .count (responses.countP fun response => response.failure.isSome))]⟩

/-- Run a batch; a canceled batch cancels every request in it. -/
def runBatch (r : Runner) (canceled : Bool) (requests : List Request) :
    Runner × List Log.Record × List Response :=
  let asked := if canceled then requests.map fun q => { q with canceled := true } else requests
  let (after, records, responses) := r.runAll asked
  (after, records ++ [batchRecord responses], responses)

end Runner

end Persona
