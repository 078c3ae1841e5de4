import Persona.Proofs.Artifact.Framing
import Persona.Proofs.Grammar.Limit
import Persona.Proofs.Request
import Persona.Proofs.Simplify.Validity

/-!
# Runners that share a cache

An artifact is kept under source, target, context, degree and mode of reading. A runner
has two more settings that can show in what it makes: the nesting limit and the
indentation of the structured target. Neither is part of the key, so a runner may find
under its key what another one made with other settings.

How far this goes is known exactly. The indentation shows in every structured
output and nowhere else. The limit does not show as long as neither runner refuses
anything as nested too deeply; and when the documents are read strictly, the second
runner has an artifact of its own exactly when it refuses nothing.
-/

namespace Persona

namespace Json

variable {short long : Text}

/-- A longer indentation makes a break no shorter. -/
theorem length_lineBreak_mono (longer : short.length ≤ long.length) (depth : Nat) :
    (lineBreak short depth).length ≤ (lineBreak long depth).length := by
  have more := Nat.mul_le_mul_left depth longer
  cases short with
  | nil => simp [lineBreak]
  | cons b rest =>
    cases long with
    | nil => simp at longer
    | cons c others => simpa [lineBreak, Text.repeated, List.length_flatten] using more

/-- A longer indentation makes the mark of a field no shorter. -/
theorem length_fieldMark_mono (longer : short.length ≤ long.length) :
    (fieldMark short).length ≤ (fieldMark long).length := by
  cases short with
  | nil =>
    cases long with
    | nil => exact Nat.le_refl _
    | cons c others =>
      show (Text.ofString ":").length ≤ (Text.ofString ": ").length
      decide
  | cons b rest =>
    cases long with
    | nil => simp at longer
    | cons c others => exact Nat.le_refl _

mutual

/-- A longer indentation makes a value no shorter. -/
theorem length_writeAt_mono (s : Spelling) (longer : short.length ≤ long.length)
    (depth : Nat) :
    (value : Json) → (writeAt s short depth value).length ≤ (writeAt s long depth value).length
  | .null | .bool true | .bool false | .number _ | .string _ | .list [] | .object [] =>
    Nat.le_refl _
  | .list (item :: items) => by
    have here := length_lineBreak_mono longer depth
    have below := length_lineBreak_mono longer (depth + 1)
    have first := length_writeAt_mono s longer (depth + 1) item
    have others := length_writeItems_mono s longer (depth + 1) items
    simp only [writeAt, List.length_append]
    omega
  | .object ((name, value) :: fields) => by
    have here := length_lineBreak_mono longer depth
    have below := length_lineBreak_mono longer (depth + 1)
    have mark := length_fieldMark_mono longer
    have first := length_writeAt_mono s longer (depth + 1) value
    have others := length_writeFields_mono s longer (depth + 1) fields
    simp only [writeAt, List.length_append]
    omega

/-- A longer indentation makes items no shorter. -/
theorem length_writeItems_mono (s : Spelling) (longer : short.length ≤ long.length)
    (depth : Nat) :
    (items : List Json) → (writeItems s short depth items).length ≤
      (writeItems s long depth items).length
  | [] => Nat.le_refl _
  | item :: items => by
    have here := length_lineBreak_mono longer depth
    have first := length_writeAt_mono s longer depth item
    have others := length_writeItems_mono s longer depth items
    simp only [writeItems, List.length_append]
    omega

/-- A longer indentation makes fields no shorter. -/
theorem length_writeFields_mono (s : Spelling) (longer : short.length ≤ long.length)
    (depth : Nat) :
    (fields : List (Text × Json)) →
      (writeFields s short depth fields).length ≤ (writeFields s long depth fields).length
  | [] => Nat.le_refl _
  | (name, value) :: fields => by
    have here := length_lineBreak_mono longer depth
    have mark := length_fieldMark_mono longer
    have first := length_writeAt_mono s longer depth value
    have others := length_writeFields_mono s longer depth fields
    simp only [writeFields, List.length_append]
    omega

end

/-- An object with fields is longer with a longer indentation. -/
theorem length_write_object (longer : short.length < long.length) (field : Text × Json)
    (fields : List (Text × Json)) :
    (write short (.object (field :: fields))).length <
      (write long (.object (field :: fields))).length := by
  obtain ⟨name, value⟩ := field
  have below : (lineBreak short 1).length < (lineBreak long 1).length := by
    cases long with
    | nil => simp at longer
    | cons c others => cases short <;> simp_all [lineBreak, Text.repeated]
  have here := length_lineBreak_mono longer.le 0
  have mark := length_fieldMark_mono longer.le
  have first := length_writeAt_mono .answer longer.le 1 value
  have others := length_writeFields_mono .answer longer.le 1 fields
  simp only [write, writeAt, List.length_append, Nat.zero_add]
  omega

/-- The indentation of an object with fields can be told from its text. -/
theorem write_object_inj (field : Text × Json) (fields : List (Text × Json)) :
    write short (.object (field :: fields)) = write long (.object (field :: fields)) ↔
      short = long := by
  constructor
  · intro same
    have lengths : short.length = long.length := by
      rcases Nat.lt_trichotomy short.length long.length with less | equal | more
      · exact absurd (congrArg List.length same)
          (Nat.ne_of_lt (length_write_object less field fields))
      · exact equal
      · exact absurd (congrArg List.length same)
          (Nat.ne_of_gt (length_write_object more field fields))
    cases short with
    | nil => exact (List.eq_nil_of_length_eq_zero lengths.symm).symm
    | cons b rest =>
      cases long with
      | nil => simp at lengths
      | cons c others =>
        -- The first break stands directly behind the brace.
        simp only [write, writeAt, lineBreak, List.isEmpty_cons, Bool.false_eq_true,
          if_false, Nat.zero_add, Text.repeated, List.replicate_one, List.flatten_singleton,
          List.append_assoc, List.append_cancel_left_eq] at same
        exact (List.append_inj same lengths).1
  · rintro rfl
    rfl

end Json

/-- A document is written as an object with fields. -/
theorem Structured.Document.toJson_object {document : Document} {json : Json}
    (written : document.toJson = .ok json) :
    ∃ field fields, json = .object (field :: fields) := by
  unfold toJson at written
  cases traits : document.traits.items.mapM TraitEntry.toJson with
  | error e =>
    rw [traits] at written
    cases written
  | ok traitItems =>
    rw [traits] at written
    cases knowledge : document.knowledge.items.mapM DomainEntry.toJson with
    | error e =>
      rw [knowledge] at written
      cases written
    | ok domainItems =>
      rw [knowledge] at written
      exact ⟨_, _, (Except.ok.inj written).symm⟩

/-- A personality that can be written with one indentation can be written with every
other. The outputs differ where the indentations do. -/
theorem Structured.emit_indent {p : Personality} {short output : Text}
    (emitted : emit p short = .ok output) (long : Text) :
    ∃ again, emit p long = .ok again ∧ (again = output ↔ short = long) := by
  unfold emit at emitted ⊢
  cases stored : (Document.ofPersonality p).mapError EmitError.missing with
  | error e =>
    rw [stored] at emitted
    cases emitted
  | ok document =>
    rw [stored] at emitted
    cases written : document.toJson with
    | error e =>
      simp only [bind, Except.bind, written] at emitted
      cases emitted
    | ok json =>
      simp only [bind, Except.bind, written] at emitted ⊢
      obtain rfl := Except.ok.inj emitted
      obtain ⟨field, fields, rfl⟩ := Document.toJson_object written
      refine ⟨_, rfl, ?_⟩
      rw [eq_comm, Json.write_object_inj]

/-- Only the structured target looks at the indentation. -/
theorem Target.emit_indent {target : Target} {p : Personality} {short context output : Text}
    (emitted : target.emit short p context = .ok output) (long : Text) :
    ∃ again, target.emit long p context = .ok again ∧
      (again = output ↔ (target = .json → short = long)) := by
  cases target with
  | json =>
    obtain ⟨again, written, same⟩ := Structured.emit_indent emitted long
    exact ⟨again, written, by simpa using same⟩
  | lua | prompt | sql | cypher => exact ⟨output, emitted, iff_of_true rfl nofun⟩

/-- A target is found under its own name only. -/
theorem Target.eq_json_iff {target : Target} {name : Text}
    (found : ofText? name = some target) :
    target = .json ↔ name = Target.json.text := by
  have named := List.find?_some found
  obtain rfl : target.text = name := eq_of_beq named
  cases target <;> decide

namespace CompileOptions

variable {first second : CompileOptions}

/-- Where nothing was registered, the targets are the built-in ones. -/
theorem emitter?_of_none (unregistered : first.emitters = []) (name : Text) :
    first.emitter? name = (Target.ofText? name).map fun target =>
      target.emit first.indent := by
  simp [emitter?, unregistered]

/-- What is compiled with one indentation is compiled with every other, and to the same
output unless the target is the structured one. -/
theorem compile_indent {p : Personality} {target context : Text} {compiled : Compiled}
    (firstBuiltIn : first.emitters = []) (secondBuiltIn : second.emitters = [])
    (made : (first.compile p target context).result = .ok compiled) :
    ∃ again, (second.compile p target context).result = .ok again ∧
      (again.output = compiled.output ↔
      (target = Target.json.text → first.indent = second.indent)) := by
  obtain ⟨emitter, found, passed, emitted⟩ := compile_ok made
  rw [emitter?_of_none firstBuiltIn] at found
  obtain ⟨builtIn, named, rfl⟩ := Option.map_eq_some_iff.mp found
  obtain ⟨again, emittedAgain, same⟩ := Target.emit_indent emitted second.indent
  have foundAgain : second.emitter? target = some (builtIn.emit second.indent) := by
    rw [emitter?_of_none secondBuiltIn, named]
    rfl
  refine ⟨_, compile_of_valid foundAgain passed emittedAgain, ?_⟩
  rw [same, Target.eq_json_iff named]

end CompileOptions

namespace Request

variable {a b : Request} {first second : RunOptions}

/-- How a runner with these options reads the document of a request. -/
abbrev reading (q : Request) (options : RunOptions) : Reading :=
  Personality.read (q.readingOptions options) q.source

/-- Two runners have the same nesting limit, or neither refuses anything in the document
as nested too deeply. -/
def LimitsAgree (a b : Request) (first second : RunOptions) : Prop :=
  (a.readingOptions first).limit = (b.readingOptions second).limit ∨
    (a.reading first).Roomy ∧ (b.reading second).Roomy

/-- What one of the runners reads the other one reads, if the limits do not matter. -/
theorem read_shared {p : Personality} (source : a.source = b.source)
    (strict : first.strict = second.strict)
    (agree : a.LimitsAgree b first second) (read : (a.reading first).result = .ok p) :
    (b.reading second).result = .ok p := by
  have sameLimit :
      Personality.read { a.readingOptions first with
                         limit := (b.readingOptions second).limit } a.source =
      a.reading first := by
    rcases agree with equal | ⟨firstRoomy, secondRoomy⟩
    · rw [← equal]
    · refine Personality.read_limit firstRoomy ?_
      have renamed := Personality.roomy_file a.file secondRoomy
      rw [← source] at renamed
      simpa only [readingOptions, strict] using renamed
  rw [← sameLimit] at read
  have renamed := Personality.read_file read b.file
  rw [source] at renamed
  simpa only [reading, readingOptions, strict] using renamed

/-- Two runners with the built-in targets are asked for artifacts with the same key, and
the first one has an artifact. If their nesting limits are the same, or if neither refuses
anything in its document as nested too deeply, then the second one has an artifact as
well. It is the same one unless the target is the structured one and the indentations
differ; then it is another one. If the documents are read strictly, the second runner has
an artifact exactly when it refuses nothing in its document as nested too deeply. -/
theorem build_shared (firstBuiltIn : first.compile.emitters = [])
    (secondBuiltIn : second.compile.emitters = [])
    (sameKey : a.keyParts first.strict = b.keyParts second.strict)
    (succeeds : (a.build first).2.failure = none) :
    (a.LimitsAgree b first second → (b.build second).2.failure = none ∧
      ((b.build second).2.output = (a.build first).2.output ↔
        (a.target = Target.json.text → first.compile.indent = second.compile.indent))) ∧
    (first.strict = true → ((b.build second).2.failure = none ↔
      (b.reading second).Roomy)) := by
  obtain ⟨source, target, context, degree, strict⟩ := keyParts_inj sameKey
  obtain ⟨p, compiled, read, made, output⟩ := build_ok succeeds
  have agreeing : a.LimitsAgree b first second → (b.build second).2.failure = none ∧
      ((b.build second).2.output = (a.build first).2.output ↔
        (a.target = Target.json.text → first.compile.indent = second.compile.indent)) := by
    intro agree
    have readAgain := read_shared source strict agree read
    have simplified : a.simplified p = b.simplified p := by simp [Request.simplified, degree]
    rw [simplified, target, context] at made
    obtain ⟨again, madeAgain, same⟩ :=
      CompileOptions.compile_indent firstBuiltIn secondBuiltIn made
    have secondSucceeds := build_of_ok readAgain madeAgain
    refine ⟨secondSucceeds, ?_⟩
    obtain ⟨q, compiledAgain, read', made', output'⟩ := build_ok secondSucceeds
    obtain rfl := Except.ok.inj (readAgain.symm.trans read')
    obtain rfl := Except.ok.inj (madeAgain.symm.trans made')
    rw [output, output', target]
    exact same
  refine ⟨agreeing, fun strictly => ⟨fun secondSucceeds => ?_, fun roomy => ?_⟩⟩
  · obtain ⟨q, _, readAgain, -⟩ := build_ok secondSucceeds
    exact Personality.roomy_of_strict (strict.symm.trans strictly) readAgain
  · exact (agreeing (.inr ⟨Personality.roomy_of_strict strictly read, roomy⟩)).1

/-- A request whose document has a number in two pairs of parentheses. -/
def parenthesized : Request where
  source := "personality \"p\" \x7b traits \x7b calm: ((0.5)) \x7d \x7d"
  file := []
  target := "json"
  context := []
  degree := .none

/-- With room for the parentheses and another indentation the output is another one;
without room there is none. -/
theorem build_shared_parenthesized :
    (parenthesized.build
      { strict := true, limit := 9, compile := { indent := [] } }).2.failure = none ∧
      (parenthesized.build
        { strict := true, limit := 9, compile := { indent := [] } }).2.output ≠
        (parenthesized.build { strict := true }).2.output ∧
      ¬ (parenthesized.reading { strict := true, limit := 1 }).Roomy := by
  have succeeds : (parenthesized.build { strict := true }).2.failure = none := by
    decide +kernel
  have sameKey : parenthesized.keyParts true = parenthesized.keyParts true := rfl
  have roomy :
      (parenthesized.reading
        { strict := true, limit := 9, compile := { indent := [] } }).Roomy :=
    ((build_shared rfl rfl sameKey succeeds).2 rfl).mp (by decide +kernel)
  have own : (parenthesized.reading { strict := true }).Roomy :=
    ((build_shared rfl rfl sameKey succeeds).2 rfl).mp succeeds
  obtain ⟨succeedsAgain, same⟩ := (build_shared rfl rfl sameKey succeeds).1 (.inr ⟨own, roomy⟩)
  refine ⟨succeedsAgain, fun equal => absurd (same.mp equal rfl) (by decide),
    fun tooRoomy => ?_⟩
  have never : (parenthesized.build { strict := true, limit := 1 }).2.failure.isSome =
      true := by decide +kernel
  rw [((build_shared rfl rfl sameKey succeeds).2 rfl).mpr tooRoomy] at never
  cases never

/-- What a runner answers when it shares the cache of a default runner that reads strictly
and was asked the same before. -/
def sharing (options : RunOptions) : Response :=
  (Runner.run ⟨options, (Runner.run ⟨{ strict := true }, some (.ofCapacity 1)⟩
    parenthesized).1.cache⟩ parenthesized).2.2

/-- With the same key, one runner makes the same document into something else and
another one refuses it; both are served the artifact of the first runner when they
share its cache. -/
theorem build_shared_neglected :
    parenthesized.keyParts ({ strict := true } : RunOptions).strict =
      parenthesized.keyParts ({ strict := true, limit := 1, compile := { indent := [] } } :
        RunOptions).strict ∧
    (parenthesized.build { strict := true }).2.failure = none ∧
    ((parenthesized.build { strict := true, compile := { indent := [] } }).2.failure = none ∧
      (parenthesized.build { strict := true, compile := { indent := [] } }).2.output ≠
        (parenthesized.build { strict := true }).2.output) ∧
    (parenthesized.build { strict := true, limit := 1 }).2.failure.isSome = true ∧
    (sharing { strict := true, compile := { indent := [] } }).output =
      (parenthesized.build { strict := true }).2.output ∧
    (sharing { strict := true, limit := 1 }).output =
      (parenthesized.build { strict := true }).2.output := by
  decide +kernel

end Request

end Persona
