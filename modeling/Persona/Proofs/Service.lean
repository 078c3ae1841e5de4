import Persona.Service
import Persona.Proofs.Artifact.Cache
import Persona.Proofs.Grammar.Reader
import Persona.Proofs.Request

/-!
# Answers

A part of an answer that is empty is left out of its line, so an empty output, or a
failure without messages, is answered with nothing at all. Every failure has something
to say, and every built-in target writes something, whatever the personality. An output
that is found in the cache is returned as it is, though, and a cache takes whatever it
is given. So the line tells by itself whether the request succeeded exactly when the
cache does not answer with an empty output, and a cache that was never given one has
none to give back.
-/

namespace Persona

open Structured (exists_of_bind_ok mapError_eq_ok)

/-- A built-in target writes something. Three of them begin or end with words of their
own, the scripts with their tables, and a document with its brace. -/
theorem Target.emit_ne_nil {target : Target} {indent context output : Text} {p : Personality}
    (emitted : target.emit indent p context = .ok output) : output ≠ [] := by
  cases target with
  | json =>
    obtain ⟨document, -, emitted⟩ := exists_of_bind_ok emitted
    obtain ⟨json, written, emitted⟩ := exists_of_bind_ok emitted
    obtain rfl := Except.ok.inj emitted
    obtain ⟨b, rest, starts, -⟩ :=
      Json.writeAt_starts indent 0 (Structured.Document.decodes written).1
    rw [Json.write, starts]
    exact List.cons_ne_nil b rest
  | lua =>
    obtain rfl := Except.ok.inj emitted
    exact List.append_ne_nil_of_right_ne_nil _ (by decide)
  | prompt =>
    obtain ⟨traits, -, emitted⟩ := exists_of_bind_ok (mapError_eq_ok.mp emitted)
    obtain ⟨behaviors, -, emitted⟩ := exists_of_bind_ok emitted
    obtain ⟨evolution, -, emitted⟩ := exists_of_bind_ok emitted
    obtain rfl := Except.ok.inj emitted
    exact List.append_ne_nil_of_right_ne_nil _ (by decide)
  | sql =>
    obtain ⟨traits, -, emitted⟩ := exists_of_bind_ok (mapError_eq_ok.mp emitted)
    obtain ⟨topics, -, emitted⟩ := exists_of_bind_ok emitted
    obtain ⟨connections, -, emitted⟩ := exists_of_bind_ok emitted
    obtain ⟨behaviors, -, emitted⟩ := exists_of_bind_ok emitted
    obtain ⟨evolution, -, emitted⟩ := exists_of_bind_ok emitted
    obtain rfl := Except.ok.inj emitted
    have tables :
        Sql.schema.flatMap (fun statement => statement ++ Text.ofString "\n\n") ≠ [] := by
      simp [Sql.schema, show Text.ofString "\n\n" = [10, 10] from rfl]
    simp [tables]
  | cypher =>
    obtain ⟨traits, -, emitted⟩ := exists_of_bind_ok emitted
    obtain ⟨domains, -, emitted⟩ := exists_of_bind_ok emitted
    obtain ⟨connections, -, emitted⟩ := exists_of_bind_ok emitted
    obtain ⟨behaviors, -, emitted⟩ := exists_of_bind_ok emitted
    obtain ⟨evolution, -, emitted⟩ := exists_of_bind_ok emitted
    obtain rfl := Except.ok.inj emitted
    exact List.append_ne_nil_of_right_ne_nil _ (by decide)

/-- Where only the built-in targets are known, a request that succeeds has an output. -/
theorem Request.output_ne_nil {q : Request} {options : RunOptions}
    (builtIn : options.compile.emitters = [])
    (succeeds : (q.build options).2.failure = none) : (q.build options).2.output ≠ [] := by
  obtain ⟨p, compiled, -, made, output⟩ := build_ok succeeds
  obtain ⟨emitter, found, -, emitted⟩ := CompileOptions.compile_ok made
  obtain ⟨target, -, rfl⟩ : ∃ target, Target.ofText? q.target = some target ∧
      target.emit options.compile.indent = emitter := by
    simpa [CompileOptions.emitter?, builtIn, Option.map_eq_some_iff] using found
  rw [output]
  exact Target.emit_ne_nil emitted

/-- Repairing a text does not empty it. -/
theorem Text.toUtf8_ne_nil {text : Text} (some : text ≠ []) : text.toUtf8 ≠ [] := by
  intro empty
  have none := characters_toUtf8 text
  rw [empty, eq_comm, show characters [] = [] from rfl, List.map_eq_nil_iff] at none
  rw [← ofCharacters_characters text, none] at some
  exact some rfl

namespace Artifact.Cache

/-- A cache to which no empty output was ever given, however it was used. -/
inductive Stocked : Cache → Prop where
  | opened (capacity : Int) : Stocked (ofCapacity capacity)
  | lookedUp {c : Cache} (stocked : Stocked c) (key : UInt64) : Stocked (c.get key).2
  | stored {c : Cache} (stocked : Stocked c) (key : UInt64) {output : Text}
      (some : output ≠ []) : Stocked (c.set key output)

/-- The cache is in step, and none of its outputs is empty. The induction is on what was
done to it. -/
theorem Stocked.entries {c : Cache} (stocked : c.Stocked) :
    c.Tidy ∧ ∀ entry ∈ c.entries, entry.2 ≠ [] := by
  induction stocked with
  | opened capacity => exact ⟨tidy_ofCapacity capacity, by simp [ofCapacity]⟩
  | @lookedUp c stocked key inductionHypothesis =>
    obtain ⟨tidy, filled⟩ := inductionHypothesis
    refine ⟨tidy.get key, fun entry member => filled entry ?_⟩
    cases found : c.get key with
    | mk held after =>
      rw [found] at member
      cases held with
      | none => exact get_none found ▸ member
      | some output => exact (tidy.get_some found).2 entry member
  | stored stocked key some inductionHypothesis =>
    obtain ⟨tidy, filled⟩ := inductionHypothesis
    refine ⟨tidy.set key _, fun entry member => ?_⟩
    rcases tidy.mem_set member with rfl | before
    · exact some
    · exact filled entry before

/-- What is found is not empty. -/
theorem Stocked.found_ne_nil {c after : Cache} {key : UInt64} {output : Text}
    (stocked : c.Stocked) (found : c.get key = (some output, after)) : output ≠ [] :=
  stocked.entries.2 _ (stocked.entries.1.get_some found).1

end Artifact.Cache

/-- A runner that knows only the built-in targets, and has no cache or one that was given
no empty output. -/
structure Runner.Plain (r : Runner) : Prop where
  builtIn : r.options.compile.emitters = []
  stocked : ∀ cache ∈ r.cache, cache.Stocked

/-- The runner once it has stored an output, if it has a cache. -/
def Runner.keep (r : Runner) (key : UInt64) (output : Text) : Runner :=
  { r with cache := r.cache.map fun cache => cache.set key output }

/-- What can come of a request that looks whether it is to stop, and the runner
afterwards. -/
inductive Ran (r : Runner) (watch : Watch) (q : Request) : Runner → Response → Prop where
  /-- It was to stop before it began. -/
  | stopped {stop : Stop} (noticed : watch.atStart = some stop) :
      Ran r watch q r { q.blank with failure := some stop.failure }
  /-- It had been canceled. -/
  | canceled (was : q.canceled = true) :
      Ran r watch q r { q.blank with failure := some .canceled }
  /-- Its output was found. -/
  | found {output : Text} {after : Runner} (started : watch.atStart = none)
      (held : r.lookUp q = (some output, after)) :
      Ran r watch q after { q.blank with output := output, cached := true }
  /-- It was to stop when its document had been read. -/
  | abandoned {stop : Stop} {after : Runner} {p : Personality}
      (missed : r.lookUp q = (none, after)) (noticed : watch.afterReading = some stop)
      (read : (Personality.read (q.readingOptions r.options) q.source).result = .ok p) :
      Ran r watch q after { q.blank with failure := some stop.failure }
  /-- It was made and failed. -/
  | failed {response : Response} {after : Runner} (missed : r.lookUp q = (none, after))
      (built : (q.build r.options).2 = response) (failure : response.failure ≠ none) :
      Ran r watch q after response
  /-- It was made and its output is kept. -/
  | made {response : Response} {after : Runner} (missed : r.lookUp q = (none, after))
      (built : (q.build r.options).2 = response) (succeeds : response.failure = none) :
      Ran r watch q (after.keep (q.key r.options) response.output) response

/-- A run of a request that nothing stops ends in one of these ways. -/
theorem Runner.run_ran (r : Runner) {watch : Watch} (q : Request)
    (started : watch.atStart = none) :
    Ran r watch q (r.run q).1 (r.run q).2.2 := by
  obtain ⟨options, cache⟩ := r
  cases was : q.canceled with
  | true =>
    rw [run, if_pos was]
    exact .canceled was
  | false =>
    have built := (q.make_response options).symm
    cases cache with
    | none =>
      rw [run_uncached options was]
      generalize q.make options = outcome at built ⊢
      obtain ⟨records, response⟩ := outcome
      have looked : lookUp ⟨options, none⟩ q = (none, ⟨options, none⟩) := rfl
      dsimp only at built ⊢
      cases failure : response.failure with
      | some failure => exact .failed looked built (by simp [failure])
      | none => exact .made looked built failure
    | some cache =>
      cases look : cache.get (q.key options) with
      | mk held after =>
        have looked : lookUp ⟨options, some cache⟩ q = (held, ⟨options, some after⟩) := by
          simp [lookUp, look]
        simp only [run, was, Bool.false_eq_true, if_false, look]
        cases held with
        | some output => exact .found started looked
        | none =>
          generalize q.make options = outcome at built ⊢
          obtain ⟨records, response⟩ := outcome
          dsimp only at built ⊢
          cases failure : response.failure with
          | some failure => exact .failed looked built (by simp [failure])
          | none => exact .made looked built failure

/-- A run of a request ends in one of these ways. -/
theorem Runner.runWatched_ran (r : Runner) (watch : Watch) (q : Request) :
    Ran r watch q (r.runWatched watch q).1 (r.runWatched watch q).2.2 := by
  unfold runWatched
  split
  · rename_i stop _ noticed
    exact .stopped noticed
  · rename_i started _
    exact r.run_ran q started
  · rename_i stop started noticed
    dsimp only
    split
    · rename_i missed read
      exact .abandoned missed noticed read
    · exact r.run_ran q started

/-- A look-up leaves a plain runner plain. -/
theorem Runner.Plain.lookUp {r after : Runner} {q : Request} {found : Option Text}
    (plain : r.Plain) (look : r.lookUp q = (found, after)) : after.Plain := by
  obtain ⟨options, cache⟩ := r
  cases cache with
  | none =>
    obtain ⟨-, rfl⟩ := Prod.mk.inj look
    exact plain
  | some cache =>
    obtain ⟨-, rfl⟩ := Prod.mk.inj look
    refine ⟨plain.builtIn, ?_⟩
    rintro _ ⟨⟩
    exact (plain.stocked cache rfl).lookedUp _

/-- Whatever comes of a request, it leaves a plain runner plain. -/
theorem Ran.plain {r after : Runner} {watch : Watch} {q : Request} {response : Response}
    (ran : Ran r watch q after response) (plain : r.Plain) : after.Plain := by
  cases ran with
  | stopped noticed => exact plain
  | canceled was => exact plain
  | found started held => exact plain.lookUp held
  | abandoned missed noticed read => exact plain.lookUp missed
  | failed missed built failure => exact plain.lookUp missed
  | made missed built succeeds =>
    have left := plain.lookUp missed
    have filled : response.output ≠ [] :=
      built ▸ Request.output_ne_nil plain.builtIn (built ▸ succeeds)
    refine ⟨left.builtIn, ?_⟩
    intro cache kept
    obtain ⟨before, held, rfl⟩ := Option.map_eq_some_iff.mp kept
    exact (left.stocked before held).stored _ filled

/-- A plain runner finds no empty output. -/
theorem Runner.Plain.lookUp_ne_nil {r : Runner} (plain : r.Plain) (q : Request) :
    (r.lookUp q).1 ≠ some [] := by
  intro held
  cases cached : r.cache with
  | none => simp [Runner.lookUp, cached] at held
  | some cache =>
    have look : (cache.get (q.key r.options)).1 = some [] := by
      rwa [Runner.lookUp, cached] at held
    exact (plain.stocked cache cached).found_ne_nil (Prod.ext look rfl) rfl

/-- Where only the built-in targets are known, a request that was not canceled is
answered with an empty output exactly if nothing stops it at its start and an empty
output is found for it. -/
theorem Ran.empty_iff {r after : Runner} {watch : Watch} {q : Request} {response : Response}
    (ran : Ran r watch q after response) (builtIn : r.options.compile.emitters = [])
    (asked : q.canceled = false) :
    response.failure = none ∧ response.output = [] ↔
      watch.atStart = none ∧ (r.lookUp q).1 = some [] := by
  cases ran with
  | stopped noticed => simp [noticed]
  | canceled was => simp [asked] at was
  | found started held => simp [started, held, Request.blank]
  | abandoned missed noticed read => simp [missed]
  | failed missed built failure => simp [missed, failure]
  | made missed built succeeds =>
    have filled : response.output ≠ [] :=
      built ▸ Request.output_ne_nil builtIn (built ▸ succeeds)
    simp [missed, filled]

/-- A request that nothing stops and whose output is not in the cache is built. -/
theorem Ran.built {r after : Runner} {watch : Watch} {q : Request} {response : Response}
    (ran : Ran r watch q after response) (started : watch.atStart = none)
    (asked : q.canceled = false) (missed : (r.lookUp q).1 = none)
    (undisturbed : ∀ p,
      (Personality.read (q.readingOptions r.options) q.source).result = .ok p →
      watch.afterReading = none) : (q.build r.options).2 = response := by
  cases ran with
  | stopped noticed => simp [started] at noticed
  | canceled was => simp [asked] at was
  | found _ held => simp [held] at missed
  | abandoned _ noticed read => simp [undisturbed _ read] at noticed
  | failed _ built _ => exact built
  | made _ built _ => exact built

namespace Failure

/-- The failure and the failures behind it. -/
def chain : Failure → List Failure
  | .within place inner => .within place inner :: inner.chain
  | failure => [failure]

/-- Behind a failure there is only one that is not the passing of a place. -/
theorem mem_chain {cause f : Failure} (member : cause ∈ f.chain) :
    cause = f.core ∨ ∃ place inner, cause = .within place inner := by
  induction f with
  | within place inner inductionHypothesis =>
    rcases List.mem_cons.mp member with rfl | behind
    · exact .inr ⟨place, inner, rfl⟩
    · exact inductionHypothesis behind
  | _ => exact .inl (List.mem_singleton.mp member)

/-- There is one message for each error of a document that could not be read, wherever
they are told. -/
theorem messages_unreadable {f : Failure} {errors : List ParseError}
    (member : .unreadable errors ∈ f.chain) :
    f.messages = errors.map ParseError.text := by
  rcases mem_chain member with core | ⟨place, inner, same⟩
  · simp [messages, ← core]
  · cases same

/-- There is one message for each reason to reject a personality, wherever they are
told. -/
theorem messages_rejected {f : Failure} {errors : List CompileError}
    (member : .rejected errors ∈ f.chain) :
    f.messages = errors.map CompileError.text := by
  rcases mem_chain member with core | ⟨place, inner, same⟩
  · simp [messages, ← core]
  · cases same

/-- A failure is without messages only where it consists of a list of errors that has
none. -/
theorem messages_eq_nil {f : Failure} (silent : f.messages = []) :
    f.core = .unreadable [] ∨ f.core = .rejected [] := by
  unfold messages at silent
  split at silent
  · rename_i errors core
    rw [List.map_eq_nil_iff.mp silent] at core
    exact .inl core
  · rename_i errors core
    rw [List.map_eq_nil_iff.mp silent] at core
    exact .inr core
  · cases silent

end Failure

/-- What a compilation can fail with. -/
theorem CompileOptions.compile_error {options : CompileOptions} {p : Personality}
    {target context : Text} {failure : Failure}
    (fails : (options.compile p target context).result = .error failure) :
    (∃ errors, errors ≠ [] ∧ failure = .rejected errors) ∨
      ∃ e, failure = .within ("emit " ++ target) (.emission e) := by
  unfold compile at fails
  split at fails
  · obtain rfl := Except.error.inj fails
    exact .inl ⟨_, List.cons_ne_nil _ _, rfl⟩
  dsimp only at fails
  split at fails
  · dsimp only at fails
    split at fails
    · obtain rfl := Except.error.inj fails
      exact .inr ⟨_, rfl⟩
    · cases fails
  · rename_i refused
    obtain rfl := Except.error.inj fails
    exact .inl ⟨_, fun none => refused (List.isEmpty_iff.mpr none), rfl⟩

/-- What a build can fail with: its document cannot be read, or what it holds cannot
be compiled. -/
theorem Request.build_error {q : Request} {options : RunOptions} {failure : Failure}
    (fails : (q.build options).2.failure = some failure) :
    (∃ errors, (Personality.read (q.readingOptions options) q.source).result = .error errors ∧
      failure = .within ("parse " ++ displayName q.file) (.unreadable errors)) ∨
    ∃ p inner, (Personality.read (q.readingOptions options) q.source).result = .ok p ∧
      (options.compile.compile (q.simplified p).1 q.target q.context).result = .error inner ∧
      failure = .within ("compile " ++ displayName q.file) inner := by
  unfold build at fails
  dsimp only at fails
  split at fails
  · rename_i errors unread
    obtain rfl := Option.some.inj fails
    exact .inl ⟨errors, unread, rfl⟩
  · rename_i p read
    dsimp only at fails
    split at fails
    · rename_i inner refused
      obtain rfl := Option.some.inj fails
      exact .inr ⟨p, inner, read, refused, rfl⟩
    · cases fails

/-- A build that fails has something to say. -/
theorem Request.messages_ne_nil {q : Request} {options : RunOptions} {failure : Failure}
    (fails : (q.build options).2.failure = some failure) : failure.messages ≠ [] := by
  intro silent
  rcases build_error fails with ⟨errors, unread, rfl⟩ | ⟨p, inner, -, refused, rfl⟩
  · rcases Failure.messages_eq_nil silent with core | core
    · exact Personality.errors_ne_nil unread (Failure.unreadable.inj core)
    · cases core
  · rcases CompileOptions.compile_error refused with ⟨errors, some, rfl⟩ | ⟨e, rfl⟩
    · rcases Failure.messages_eq_nil silent with core | core
      · cases core
      · exact some (Failure.rejected.inj core)
    · rcases Failure.messages_eq_nil silent with core | core <;> cases core

/-- Being stopped has something to say. -/
theorem Stop.messages_ne_nil (stop : Stop) : stop.failure.messages ≠ [] := by
  cases stop <;> exact List.cons_ne_nil _ _

/-- A request that fails has something to say, whether it was stopped or not. -/
theorem Ran.messages_ne_nil {r after : Runner} {watch : Watch} {q : Request}
    {response : Response} {failure : Failure}
    (ran : Ran r watch q after response) (fails : response.failure = some failure) :
    failure.messages ≠ [] := by
  cases ran with
  | @stopped stop _ =>
    obtain rfl := Option.some.inj fails
    exact stop.messages_ne_nil
  | canceled _ =>
    obtain rfl := Option.some.inj fails
    exact List.cons_ne_nil _ _
  | found _ _ => cases fails
  | @abandoned stop _ _ _ _ _ =>
    obtain rfl := Option.some.inj fails
    exact stop.messages_ne_nil
  | failed _ built _ => exact Request.messages_ne_nil (built ▸ fails)
  | made _ _ succeeds => simp [succeeds] at fails

namespace Service

/-- A value reads back from its line. -/
theorem read?_line {value : Json} (fits : value.Fits 2) :
    Json.read? (Json.write [] value ++ "\n") = some value.repaired := by
  have deep : value.Fits Json.depthLimit := fits.more 9998
  have ends : Json.Ends [10] := by
    rintro b ⟨rfl⟩
    decide
  have blank : ∀ b ∈ ([] : Text), Json.isSpace b = true := by simp
  have reads := Json.readsBack blank deep 0 [10] ends
  have found := Json.skipSpace_writeAt [] blank 0 deep [10]
  rw [List.nil_append] at found
  rw [Json.read?, Json.write, show Text.ofString "\n" = [10] from rfl, found, reads]
  rfl

/-- An object with a single field. -/
def single (name : Text) (value : Json) : Json := .object [(name, value)]

/-- What a line says about the outcome of a request: the output it has, or the messages of
its failure. -/
inductive Says : Except Failure Text → Json → Prop where
  | output {output : Text} (filled : output.toUtf8 ≠ []) :
      Says (.ok output) (single "output" (.string output.toUtf8))
  | errors {failure : Failure} (filled : failure.messages ≠ []) :
      Says (.error failure) (single "errors" (.list (failure.messages.map fun message =>
        .string message.toUtf8)))

/-- The line of an output that is not empty has the output alone. -/
theorem says_output {output : Text} (filled : output ≠ []) :
    ∃ json, Json.read? (answerLine (.ok output)) = some json ∧ Says (.ok output) json := by
  have fields : (Answer.ofResult (.ok output)).fields =
      ([("output", .string output)] : List (Text × Json)) := by
    simp [Answer.ofResult, Answer.fields, filled]
  refine ⟨_, ?_, .output (Text.toUtf8_ne_nil filled)⟩
  rw [answerLine, fields, read?_line (by simp [Json.Fits])]
  rfl

/-- The line of a failure that has something to say has its messages alone. -/
theorem says_errors {failure : Failure} (filled : failure.messages ≠ []) :
    ∃ json, Json.read? (answerLine (.error failure)) = some json ∧
      Says (.error failure) json := by
  have fields : (Answer.ofResult (.error failure)).fields =
      ([("errors", .list (failure.messages.map .string))] : List (Text × Json)) := by
    simp [Answer.ofResult, Answer.fields, filled]
  refine ⟨_, ?_, .errors filled⟩
  rw [answerLine, fields, read?_line (by simp [Json.Fits])]
  simp only [Json.repaired, Json.repairedFields, Json.repairedItems_eq_map, List.map_map]
  rfl

/-- Where every failure has something to say, the line tells the outcome unless that is an
empty output. -/
theorem says_iff {result : Except Failure Text}
    (told : ∀ failure, result = .error failure → failure.messages ≠ []) :
    (∃ json, Json.read? (answerLine result) = some json ∧ Says result json) ↔
      result ≠ .ok [] := by
  constructor
  · rintro ⟨json, -, line⟩ rfl
    cases line with
    | output filled => exact filled rfl
  · intro filled
    cases result with
    | error failure => exact says_errors (told failure rfl)
    | ok output => exact says_output fun empty => filled (congrArg Except.ok empty)

/-- A target that is not there is refused by its name. -/
theorem targetOf_error {asked : Asked} {failure : Failure}
    (unknown : targetOf asked = .error failure) : ∃ e, failure = .refused e := by
  unfold targetOf at unknown
  split at unknown
  · cases unknown
  · cases named : Target.named asked.target with
    | error e =>
      rw [named] at unknown
      exact ⟨e, (Except.error.inj unknown).symm⟩
    | ok target => simp [named, Except.mapError] at unknown

/-- A text that asks for nothing that can be done is told so. -/
theorem requested_error {text : Text} {failure : Failure}
    (refused : requested text = .error failure) : failure.messages ≠ [] := by
  unfold requested at refused
  split at refused
  · obtain rfl := Except.error.inj refused
    exact List.cons_ne_nil _ _
  · rename_i fields _
    unfold requestOf at refused
    cases named : targetOf fields with
    | error unknown =>
      rw [named] at refused
      obtain rfl := Except.error.inj refused
      obtain ⟨e, rfl⟩ := targetOf_error named
      exact List.cons_ne_nil _ _
    | ok target =>
      rw [named] at refused
      dsimp only [bind, Except.bind] at refused
      split at refused
      · obtain rfl := Except.error.inj refused
        exact List.cons_ne_nil _ _
      · cases refused

/-- What is asked for is a built-in target, and has not been canceled. -/
theorem requested_ok {text : Text} {q : Request} (asked : requested text = .ok q) :
    q.canceled = false ∧ ∃ target : Target, q.target = target.text := by
  unfold requested at asked
  split at asked
  · cases asked
  · rename_i fields _
    obtain ⟨target, -, asked⟩ := exists_of_bind_ok asked
    split at asked
    · cases asked
    · obtain rfl := Except.ok.inj asked
      exact ⟨rfl, target, rfl⟩

/-- The outcome that a response stands for. -/
def outcome (response : Response) : Except Failure Text :=
  match response.failure with
  | some failure => .error failure
  | none => .ok response.output

/-- A request that was understood is answered with what came of its run. -/
theorem handle_requested {runner : Runner} {watch : Watch} {text : Text} {q : Request}
    (asked : requested text = .ok q) :
    (handle runner text watch).result = outcome (runner.runWatched watch q).2.2 := by
  unfold handle
  rw [asked]
  rfl

/-- A request that nothing stops and whose output is not in the cache is answered with
what was built. -/
theorem handle_built {runner : Runner} {watch : Watch} {text : Text} {q : Request}
    (asked : requested text = .ok q) (started : watch.atStart = none)
    (missed : (runner.lookUp q).1 = none)
    (undisturbed : ∀ p,
      (Personality.read (q.readingOptions runner.options) q.source).result = .ok p →
      watch.afterReading = none) :
    (handle runner text watch).result = outcome (q.build runner.options).2 := by
  rw [handle_requested asked, (runner.runWatched_ran watch q).built started
    (requested_ok asked).1 missed undisturbed]

/-- An answer that fails has something to say. -/
theorem handle_error {runner : Runner} {watch : Watch} {text : Text} {failure : Failure}
    (fails : (handle runner text watch).result = .error failure) : failure.messages ≠ [] := by
  cases asked : requested text with
  | error refused =>
    obtain rfl : refused = failure := by simpa [handle, asked, Logged.fail] using fails
    exact requested_error asked
  | ok q =>
    rw [handle_requested asked, outcome] at fails
    split at fails
    · rename_i told
      obtain rfl := Except.error.inj fails
      exact (runner.runWatched_ran watch q).messages_ne_nil told
    · cases fails

/-- The request is understood, nothing stops it at its start, and the cache holds an empty
output for it. -/
structure Hollow (runner : Runner) (watch : Watch) (text : Text) : Prop where
  started : watch.atStart = none
  held : ∃ q, requested text = .ok q ∧ (runner.lookUp q).1 = some []

/-- Where only the built-in targets are known, an answer is an empty output exactly if
it was found. -/
theorem handle_eq_empty_iff {runner : Runner}
    (builtIn : runner.options.compile.emitters = []) (watch : Watch) (text : Text) :
    (handle runner text watch).result = .ok [] ↔ Hollow runner watch text := by
  cases asked : requested text with
  | error failure =>
    constructor
    · intro empty
      simp [handle, asked, Logged.fail] at empty
    · rintro ⟨-, q, understood, -⟩
      cases asked.symm.trans understood
  | ok q =>
    have ran := (runner.runWatched_ran watch q).empty_iff builtIn (requested_ok asked).1
    rw [handle_requested asked, outcome]
    constructor
    · intro empty
      split at empty
      · cases empty
      · rename_i succeeds
        obtain ⟨started, held⟩ := ran.mp ⟨succeeds, Except.ok.inj empty⟩
        exact ⟨started, q, asked, held⟩
    · rintro ⟨started, other, understood, held⟩
      obtain rfl := Except.ok.inj (asked.symm.trans understood)
      obtain ⟨succeeds, empty⟩ := ran.mpr ⟨started, held⟩
      rw [succeeds, empty]

/-- What the answer to an input text can be relied on for. -/
structure Answers (runner : Runner) (watch : Watch) (text : Text) : Prop where
  /-- The line is an object with an output and nothing else if the request succeeded, and
  with messages and nothing else if it failed, neither of them empty, exactly when the
  cache does not answer with an empty output. -/
  form : (∃ json, Json.read? (answerLine (handle runner text watch).result) = some json ∧
    Says (handle runner text watch).result json) ↔ ¬ Hollow runner watch text
  /-- An empty output that the cache answers with is taken for success, and its line
  holds nothing. -/
  hollow : Hollow runner watch text →
    (handle runner text watch).result = .ok [] ∧
    answerLine (handle runner text watch).result = "\x7b\x7d\n"
  /-- A list of errors anywhere behind the failure has one message for each
  error, in order. -/
  listed : ∀ failure, (handle runner text watch).result = .error failure →
    (∀ errors, .unreadable errors ∈ failure.chain →
      failure.messages = errors.map ParseError.text) ∧
    ∀ errors, .rejected errors ∈ failure.chain →
      failure.messages = errors.map CompileError.text
  /-- A document that cannot be read is answered with its errors. -/
  unreadable : ∀ q errors, requested text = .ok q → watch.atStart = none →
    (runner.lookUp q).1 = none →
    (Personality.read (q.readingOptions runner.options) q.source).result = .error errors →
    ∃ failure, (handle runner text watch).result = .error failure ∧
      failure.messages = errors.map ParseError.text
  /-- A personality that is rejected is answered with the reasons. -/
  rejected : ∀ q p, requested text = .ok q → watch.atStart = none → watch.afterReading = none →
    (runner.lookUp q).1 = none →
      (Personality.read (q.readingOptions runner.options) q.source).result = .ok p →
    (q.simplified p).1.validate.2 ≠ [] →
    ∃ failure, (handle runner text watch).result = .error failure ∧
      failure.messages = (q.simplified p).1.validate.2.map CompileError.text
  /-- A cache that was never given an empty output answers with none, and is given none
  by the run. -/
  stocked : (∀ cache ∈ runner.cache, cache.Stocked) → ¬ Hollow runner watch text ∧
    ∀ q, requested text = .ok q → (runner.runWatched watch q).1.Plain

/-- Where only the built-in targets are known, every input text is answered with either a
non-empty output or messages, never with both, and with neither exactly if the cache holds
an empty output for the request; one that was never given an empty output holds none. It
is an output exactly if the request succeeds. A request that fails because its document
cannot be read or its personality is rejected has one message for each error, in order. -/
theorem handle_answers {runner : Runner} (builtIn : runner.options.compile.emitters = [])
    (watch : Watch) (text : Text) : Answers runner watch text where
  form := by
    rw [says_iff fun failure => handle_error, Ne, handle_eq_empty_iff builtIn]
  hollow := by
    intro hollow
    have empty := (handle_eq_empty_iff builtIn watch text).mpr hollow
    exact ⟨empty, by rw [empty]; decide⟩
  listed := fun failure _ => ⟨fun _ => Failure.messages_unreadable, fun _ =>
    Failure.messages_rejected⟩
  unreadable := by
    intro q errors asked started missed unread
    have built := handle_built asked started missed (by simp [unread])
    have fails : (q.build runner.options).2.failure =
        some (.within ("parse " ++ displayName q.file) (.unreadable errors)) := by
      simp [Request.build, unread]
    rw [built, outcome, fails]
    exact ⟨_, rfl, Failure.messages_unreadable (List.mem_cons_of_mem _ List.mem_cons_self)⟩
  rejected := by
    intro q p asked started undisturbed missed read refused
    obtain ⟨-, target, named⟩ := requested_ok asked
    have built := handle_built asked started missed fun _ _ => undisturbed
    have fails : (q.build runner.options).2.failure =
        some (.within ("compile " ++ displayName q.file)
          (.rejected (q.simplified p).1.validate.2)) := by
      have compiled : (runner.options.compile.compile (q.simplified p).1 q.target
          q.context).result =
          .error (.rejected (q.simplified p).1.validate.2) := by
        rw [named, CompileOptions.compile_builtIn (by simp [builtIn]), if_neg refused]
      simp [Request.build, read, compiled]
    rw [built, outcome, fails]
    exact ⟨_, rfl, Failure.messages_rejected (List.mem_cons_of_mem _ List.mem_cons_self)⟩
  stocked := by
    intro stocked
    have plain : runner.Plain := ⟨builtIn, stocked⟩
    refine ⟨?_, fun q asked => (runner.runWatched_ran watch q).plain plain⟩
    rintro ⟨-, q, -, held⟩
    exact plain.lookUp_ne_nil q held

/-- An input text that asks for a personality without a name and with a strength
out of range. -/
def nameless : Text :=
  "\x7b\"source\": \"personality \\\"\\\" \x7b traits \x7b calm: 2 \x7d \x7d\",
   \"target\": \"sql\"\x7d"

/-- A runner whose cache is full. -/
def filledRunner : Runner := ⟨{}, some ((Artifact.Cache.ofCapacity 1).set 0 "kept")⟩

/-- A request that is rejected for two reasons has both in its line, and the full cache
stays one that was never given an empty output. -/
theorem handle_answers_nameless :
    filledRunner.options.compile.emitters = [] ∧ Answers filledRunner {} nameless ∧
      (∀ cache ∈ filledRunner.cache, cache.Stocked) ∧ ¬ Hollow filledRunner {} nameless ∧
      answerLine (handle filledRunner nameless {}).result =
        Text.ofString "\x7b\"errors\":[\"EmptyName: personality name must not be empty\"," ++
          "\"InvalidTraitStrength(calm, 2): strength must be within [0, 1]\"]\x7d\n" := by
  have answers : Answers filledRunner {} nameless := handle_answers rfl {} nameless
  have stocked : ∀ cache ∈ filledRunner.cache, cache.Stocked := by
    rintro _ ⟨⟩
    exact (Artifact.Cache.Stocked.opened 1).stored 0 (by decide)
  exact ⟨rfl, answers, stocked, (answers.stocked stocked).1, by decide +kernel⟩

/-- An input text that asks for a personality with nothing in it. -/
def bare : Text := "\x7b\"source\": \"personality \\\"p\\\" \x7b \x7d\"\x7d"

/-- A runner whose cache was given an empty output under the key of that request. -/
def hollowRunner : Runner :=
  ⟨{}, some ((Artifact.Cache.ofCapacity 1).set
    (Artifact.key ["personality \"p\" \x7b \x7d", "json", "", "none", "false"]) [])⟩

/-- A request that succeeds with a non-empty output without a cache succeeds with an empty
one from this cache; its line is an object without fields, which tells neither an output
nor messages. -/
theorem handle_hollow :
    hollowRunner.options.compile.emitters = [] ∧
    (handle hollowRunner bare {}).result = .ok [] ∧
    answerLine (handle hollowRunner bare {}).result = "\x7b\x7d\n" ∧
    (¬ ∃ json, Json.read? (answerLine (handle hollowRunner bare {}).result) = some json ∧
      Says (handle hollowRunner bare {}).result json) ∧
    (handle ⟨{}, none⟩ bare {}).result.toOption =
      some (Text.ofString
      "\x7b\n  \"name\": \"p\",\n  \"traits\": [],\n  \"knowledge\": [],\n" ++
        "  \"behaviors\": [],\n  \"evolution\": []\n\x7d") := by
  have found : (handle hollowRunner bare {}).result.toOption = some [] := by decide +kernel
  have empty : (handle hollowRunner bare {}).result = .ok [] := by
    cases result : (handle hollowRunner bare {}).result with
    | error failure => simp [result, Except.toOption] at found
    | ok output => simpa [result, Except.toOption] using found
  refine ⟨rfl, empty, by rw [empty]; decide, ?_, by decide +kernel⟩
  rw [says_iff fun failure => handle_error]
  exact fun filled => filled empty

end Service

end Persona
