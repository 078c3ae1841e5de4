import Persona.Runner
import Persona.Proofs.Compile
import Persona.Proofs.Grammar.Printable
import Persona.Proofs.Structured

/-!
# What a successful request has gone through

A request that succeeds has read its document, found nothing to reject and written
the target. For the structured target this makes the output complete: decoding it
gives what was read, up to the bytes that no decoder could have kept.
-/

namespace Persona

/-- A compilation that succeeds has validated the personality and written it. -/
theorem CompileOptions.compile_ok {options : CompileOptions} {p : Personality}
    {target context : Text} {compiled : Compiled}
    (succeeds : (options.compile p target context).result = .ok compiled) :
    ∃ emitter, options.emitter? target = some emitter ∧ p.validate.2 = [] ∧
      emitter p context = .ok compiled.output := by
  unfold compile at succeeds
  split at succeeds
  · cases succeeds
  rename_i emitter found
  dsimp only at succeeds
  split at succeeds
  · rename_i accepted
    split at succeeds
    · cases succeeds
    rename_i output emitted
    obtain rfl := Except.ok.inj succeeds
    exact ⟨emitter, found, List.isEmpty_iff.mp accepted, emitted⟩
  · cases succeeds

/-- A build that succeeds has read the document and compiled what it holds. -/
theorem Request.build_ok {q : Request} {options : RunOptions}
    (succeeds : (q.build options).2.failure = none) :
    ∃ p compiled, (Personality.read (q.readingOptions options) q.source).result = .ok p ∧
      (options.compile.compile (q.simplified p).1 q.target q.context).result = .ok compiled ∧
        (q.build options).2.output = compiled.output := by
  unfold build at succeeds ⊢
  dsimp only at succeeds ⊢
  split at succeeds
  · cases succeeds
  rename_i p read
  dsimp only at succeeds ⊢
  cases made : (options.compile.compile (q.simplified p).1 q.target q.context).result with
  | error failure =>
    rw [made] at succeeds
    cases succeeds
  | ok compiled => exact ⟨p, compiled, read, made, by simp⟩

/-- Whether a document can be read, and what it holds, does not depend on the name
of its file. -/
theorem Personality.read_file {options : ReadingOptions} {text : Text} {p : Personality}
    (read : (Personality.read options text).result = .ok p) (file : Text) :
    (Personality.read { options with file := file } text).result = .ok p := by
  unfold Personality.read at read ⊢
  dsimp only at read ⊢
  cases scanned : Token.scan text with
  | error e =>
    rw [scanned] at read
    cases read
  | ok stream =>
    rw [scanned] at read
    dsimp only at read ⊢
    -- The notices differ in the places they name, but not in number.
    have skipped (first second : Source) (events : List Event) :
        (events.filterMap (Event.notice? first)).isEmpty =
          (events.filterMap (Event.notice? second)).isEmpty := by
      rw [Bool.eq_iff_iff, List.isEmpty_iff, List.isEmpty_iff, List.filterMap_eq_nil_iff,
        List.filterMap_eq_nil_iff]
      refine forall₂_congr fun event _ => ?_
      cases event <;> simp [Event.notice?]
    cases outcome :
      (Grammar.document ⟨stream.last, options.limit, 0⟩ stream.tokens).outcome with
    | error e =>
      rw [outcome] at read
      cases read
    | ok reply =>
      rw [outcome] at read
      cases strict : options.strict with
      | false => simpa [strict] using read
      | true =>
        simp only [strict, if_true] at read ⊢
        rw [skipped _ (Source.ofText options.file text)]
        split at read
        · rename_i none
          rwa [if_pos none]
        · cases read

/-- The two requests ask for the same artifact, though maybe under different
file names. -/
@[mk_iff] structure Request.Alike (a b : Request) : Prop where
  source : a.source = b.source
  target : a.target = b.target
  context : a.context = b.context
  degree : a.degree = b.degree

instance (a b : Request) : Decidable (a.Alike b) := decidable_of_iff' _ (Request.alike_iff a b)

/-- Requests for the same artifact succeed together and with the same output. -/
theorem Request.build_alike {options : RunOptions} {a b : Request} (alike : a.Alike b)
    (succeeds : (a.build options).2.failure = none) :
    (b.build options).2.failure = none ∧
    (b.build options).2.output = (a.build options).2.output := by
  obtain ⟨p, compiled, read, made, output⟩ := build_ok succeeds
  have readAgain : (Personality.read (b.readingOptions options) b.source).result = .ok p := by
    rw [← alike.source]
    exact Personality.read_file read b.file
  have madeAgain : (options.compile.compile (b.simplified p).1 b.target b.context).result =
      .ok compiled := by
    have simplified : b.simplified p = a.simplified p := by
      simp [Request.simplified, alike.degree]
    rw [simplified, ← alike.target, ← alike.context]
    exact made
  rw [output]
  simp [build, readAgain, madeAgain, blank]

/-- Recording the success does not change the response. -/
theorem Request.make_response (q : Request) (options : RunOptions) :
    (q.make options).2 = (q.build options).2 := by
  unfold make
  dsimp only
  split <;> rfl

/-- Without a cache a request that is not canceled is made. -/
theorem Runner.run_uncached (options : RunOptions) {q : Request} (asked : q.canceled = false) :
    Runner.run ⟨options, none⟩ q = (⟨options, none⟩, q.make options) := by
  simp [Runner.run, asked]

/-- The built-in structured target is used where no emitter was registered
under its name. -/
theorem CompileOptions.emitter?_json {options : CompileOptions}
    (builtIn : ∀ entry ∈ options.emitters, entry.1 ≠ Target.json.text) :
    options.emitter? Target.json.text = some (Target.json.emit options.indent) :=
  emitter?_builtIn builtIn

/-- The structured output of a request loses nothing. Whatever the document, the way it is
read and the blank indentation, if the request succeeds without simplification then
decoding its output gives the personality that was read, with every undecodable byte in
its texts replaced by U+FFFD; so it gives the very same personality exactly when all its
texts are valid UTF-8. -/
theorem Request.decode_output {options : RunOptions} {q : Request}
    (builtIn : ∀ entry ∈ options.compile.emitters, entry.1 ≠ Target.json.text)
    (blank : ∀ b ∈ options.compile.indent, Json.isSpace b = true)
    (structured : q.target = Target.json.text) (unsimplified : q.degree = .none)
    (succeeds : (Runner.run ⟨options, none⟩ q).2.2.failure = none) :
    ∃ p, (Personality.read (q.readingOptions options) q.source).result = .ok p ∧
      (Structured.decode (Runner.run ⟨options, none⟩ q).2.2.output).result =
      .ok (p.mapTexts Text.toUtf8) ∧
      ((Structured.decode (Runner.run ⟨options, none⟩ q).2.2.output).result = .ok p ↔
        ∀ text ∈ p.texts, text.isUtf8 = true) := by
  have asked : q.canceled = false := by
    cases canceled : q.canceled with
    | false => rfl
    | true => simp [Runner.run, canceled] at succeeds
  rw [Runner.run_uncached options asked] at succeeds ⊢
  dsimp only at succeeds ⊢
  rw [Request.make_response] at succeeds ⊢
  obtain ⟨p, compiled, read, made, output⟩ := Request.build_ok succeeds
  have same : (q.simplified p).1 = p := by simp [Request.simplified, unsimplified]
  rw [same, structured] at made
  obtain ⟨emitter, found, -, emitted⟩ := CompileOptions.compile_ok made
  rw [CompileOptions.emitter?_json builtIn] at found
  obtain rfl := Option.some.inj found
  have decoded := Structured.decode_emit (Personality.printable_of_read read) blank emitted
  refine ⟨p, read, ?_, ?_⟩
  · rw [output, decoded]
  · rw [output, decoded]
    simp only [Except.ok.injEq, Personality.mapTexts_eq_self_iff, Text.isUtf8_iff]

/-- A request whose document has a byte that is no UTF-8 in its name, and modifiers that
are stored as fragments. -/
def Request.undecodable : Request where
  source := Text.ofString "personality \"" ++ [0xFF] ++
    Text.ofString "\" \x7b traits \x7b
      calm: 0.5 with decay(0.1/day), when(mood:\"late\") \x7d \x7d"
  file := []
  target := "json"
  context := []
  degree := .none

/-- The output of that request decodes to the personality with its name repaired, which is
another one. -/
theorem Request.decode_output_undecodable :
    (Runner.run ⟨{}, none⟩ Request.undecodable).2.2.failure = none ∧
    ∃ p, (Personality.read (Request.undecodable.readingOptions {})
      Request.undecodable.source).result = .ok p ∧
      (Structured.decode (Runner.run ⟨{}, none⟩ Request.undecodable).2.2.output).result =
        .ok (p.mapTexts Text.toUtf8) ∧
      ((Structured.decode (Runner.run ⟨{}, none⟩ Request.undecodable).2.2.output).result =
      .ok p ↔
        ∀ text ∈ p.texts, text.isUtf8 = true) := by
  have succeeds : (Runner.run ⟨{}, none⟩ Request.undecodable).2.2.failure = none := by
    decide +kernel
  exact ⟨succeeds, Request.decode_output (by simp) (by decide +kernel) rfl rfl succeeds⟩

end Persona
