import Persona.Proofs.Grammar.Recognition

/-!
# What is read can be printed

Whatever the options, a document that is read gives a personality that can be printed:
nothing in it is missing, its texts can be quoted, its numbers are finite, and its units
and levels have names. This holds although entries may have been skipped.

Counts are more than integers in range. Each has a place of its own among the tokens of
its entry, behind the last comma of `transforms_to`, between the comma of `time_in` and
the unit, or behind `interactions`. The symbols in that place are an expression, and the
count is exactly the value that this expression folds to.

A personality that can be printed reads back, so printing what was read, reading that and
printing again changes nothing.
-/

namespace Persona

/-- The count of a modifier, if it has one. -/
def Modifier.counts : Modifier → List Int
  | .transformsTo _ _ n => [n]
  | .decay _ _ | .when _ | .unless _ | .amplifies _ _ => []

/-- The counts of a trait. -/
def Trait.counts (t : Trait) : List Int := t.modifiers.flatMap fun m =>
    m.toList.flatMap Modifier.counts

/-- The count of a trigger, if it has one. -/
def Trigger.counts : Trigger → List Int
  | .timeIn _ _ n | .interactions n => [n]
  | .learns _ | .feedback _ => []

/-- The counts of an evolution rule. -/
def EvolutionRule.counts (r : EvolutionRule) :
    List Int := r.trigger.toList.flatMap Trigger.counts

namespace Grammar

open Spelling (fixed word quoted call)

/-- A place where an entry has a count, and all the symbols that are written
there for it. -/
inductive CountPlace : List Spelling → List Spelling → Prop where
  | transformsTo {name : Spelling} {f : List Spelling} {factor : Binary64}
      (scaled : NumberPhrase f factor) (e : List Spelling) :
      CountPlace (call (word "transforms_to")
        (name :: fixed .comma :: (f ++ fixed .comma :: e))) e
  | timeIn {name u : Spelling} {unit : TimeUnit} (timed : UnitPhrase u unit)
      (e : List Spelling) :
      CountPlace (call (word "time_in") (name :: fixed .comma :: (e ++ [u]))) e
  | interactions (e : List Spelling) : CountPlace (call (word "interactions") e) e
  | interactionsAbove (e : List Spelling) :
      CountPlace (fixed .if :: word "interactions" :: fixed .greater :: (e ++ [fixed .then])) e

/-- The counts have places of their own among these symbols, one behind the other, and
each is the value of the expression in its place. -/
inductive CountsIn : List Spelling → List Int → Prop where
  | none (symbols : List Spelling) : CountsIn symbols []
  | next {before place e after : List Spelling} {value : Binary64} {n : Int}
      {others : List Int}
      (stands : CountPlace place e) (folds : Folds .sum e value)
        (finite : value.isFinite = true)
      (whole : Counts value n) (later : CountsIn after others) :
      CountsIn (before ++ place ++ after) (n :: others)

/-- Symbols in front of the places change nothing. -/
theorem CountsIn.behind {symbols : List Spelling} {counts : List Int}
    (written : CountsIn symbols counts)
    (front : List Spelling) : CountsIn (front ++ symbols) counts := by
  cases written with
  | none => exact .none _
  | @next before place e after value n others stands folds finite whole later =>
    rw [show front ++ (before ++ place ++ after) = front ++ before ++ place ++ after by simp]
    exact .next stands folds finite whole later

/-- Places in one part stand before the places in the next. -/
theorem CountsIn.append {first second : List Spelling} {counts others : List Int}
    (before : CountsIn first counts) (after : CountsIn second others) :
    CountsIn (first ++ second) (counts ++ others) := by
  induction before with
  | none symbols => exact after.behind symbols
  | next stands folds finite whole _ inductionHypothesis =>
    rw [List.append_assoc, List.cons_append]
    exact .next stands folds finite whole inductionHypothesis

/-- Symbols behind the places change nothing. -/
theorem CountsIn.before {symbols : List Spelling} {counts : List Int}
    (written : CountsIn symbols counts)
    (back : List Spelling) : CountsIn (symbols ++ back) counts := by
  simpa using written.append (.none back)

/-- A place in which a count is written has this one count. -/
theorem CountPhrase.countsIn {place e : List Spelling} {n : Int} (phrase : CountPhrase e n)
    (stands : CountPlace place e) : CountsIn place [n] := by
  obtain ⟨number, whole⟩ := phrase
  have alone : CountsIn ([] ++ place ++ []) [n] :=
    .next stands number.folds number.finite whole (.none [])
  simpa using alone

/-- The count of a modifier has its place in it. -/
theorem ModifierPhrase.counts {e : List Spelling} {m : Modifier}
    (phrase : ModifierPhrase e m) :
    CountsIn e m.counts := by
  cases phrase with
  | transformsTo named scaled counted => exact counted.countsIn (.transformsTo scaled _)
  | decay | «when» | «unless» | amplifies => exact .none _

/-- The counts of modifiers have their places in them. -/
theorem ModifiersPhrase.counts {e : List Spelling} {ms : List Modifier}
    (phrase : ModifiersPhrase e ms) :
    CountsIn e (ms.flatMap Modifier.counts) := by
  induction phrase with
  | one first => simpa using first.counts
  | more first _ inductionHypothesis =>
    exact first.counts.append (inductionHypothesis.behind [fixed .comma])

/-- The counts of a trait have their places in it. -/
theorem TraitPhrase.counts {e : List Spelling} {t : Trait} (phrase : TraitPhrase e t) :
    CountsIn e t.counts := by
  cases phrase with
  | plain => exact .none _
  | @modified name e f called strength ms named weighed changed =>
    have same : (⟨called, strength, ms.map some⟩ : Trait).counts =
        ms.flatMap Modifier.counts := by
      simp [Trait.counts, List.flatMap_map]
    rw [same, show name :: fixed .colon :: (e ++ fixed .with :: f) =
      (name :: fixed .colon :: (e ++ [fixed .with])) ++ f by simp]
    exact changed.counts.behind _

/-- The count of a trigger has its place between `if` and `then`. -/
theorem TriggerPhrase.counts {e : List Spelling} {t : Trigger} (phrase : TriggerPhrase e t) :
    CountsIn (fixed .if :: (e ++ [fixed .then])) t.counts := by
  cases phrase with
  | timeIn named counted timed =>
    exact ((counted.countsIn (.timeIn timed _)).before [fixed .then]).behind [fixed .if]
  | interactionsAbove counted => exact counted.countsIn (.interactionsAbove _)
  | interactions counted =>
    exact ((counted.countsIn (.interactions _)).before [fixed .then]).behind [fixed .if]
  | learns | feedbackAbove | feedback | unknown => exact .none _

/-- The count of an evolution rule has its place in it. -/
theorem EvolutionPhrase.counts {e : List Spelling} {r : EvolutionRule}
    (phrase : EvolutionPhrase e r) :
    CountsIn e r.counts := by
  obtain @⟨e, f, trigger, effect, sets, changes⟩ := phrase
  have same : (⟨some trigger, some effect⟩ : EvolutionRule).counts = trigger.counts := by
    simp [EvolutionRule.counts]
  rw [same, show fixed .if :: (e ++ fixed .then :: f) =
    fixed .if :: (e ++ [fixed .then]) ++ f by simp]
  exact sets.counts.before f

/-- Entries that were written somewhere were written there with their counts. -/
theorem Written.withCounts {α : Type} {phrase : List Spelling → α → Prop}
    {counts : α → List Int}
    {tokens : List Token} {values : List α} (written : Written phrase tokens values)
    (each : ∀ {e value}, phrase e value → CountsIn e (counts value)) :
    Written (fun e value => phrase e value ∧ CountsIn e (counts value)) tokens values := by
  intro value listed
  obtain ⟨used, among, phrased⟩ := written value listed
  exact ⟨used, among, phrased, each phrased⟩

end Grammar

namespace Personality

/-- What is read is what the document of the tokens is, whatever was skipped. -/
theorem read_document {options : ReadingOptions} {text : Text} {p : Personality}
    (read : (Personality.read options text).result = .ok p) :
    ∃ stream left, Token.scan text = .ok stream ∧
      (Grammar.document ⟨stream.last, options.limit, 0⟩ stream.tokens).outcome =
      .ok (p, left) := by
  unfold Personality.read at read
  dsimp only at read
  split at read
  · cases read
  rename_i stream scanned
  split at read
  · cases read
  · rename_i q left outcome
    generalize (if options.strict = true then _ else _ : List ParseError) = held at read
    dsimp only at read
    split at read
    · obtain rfl := Except.ok.inj read
      exact ⟨stream, left, scanned, outcome⟩
    · cases read

/-- Whatever the options, what a document is read to can be printed. Every entry that may
have counts was written in the document, and each of its counts is exactly the value of
the expression that stands for it among the symbols of the entry. The printed form reads
back to the same personality with every options that do not limit nesting to less than
three levels, such as the default ones, so printing again gives the same text. -/
theorem read_printable {options : ReadingOptions} {text : Text} {p : Personality}
    (read : (Personality.read options text).result = .ok p) :
    p.Printable ∧
    (∃ stream, Token.scan text = .ok stream ∧
      Grammar.Written (fun e t => Grammar.TraitPhrase e t ∧ Grammar.CountsIn e t.counts)
        stream.tokens p.traits ∧
      Grammar.Written (fun e r => Grammar.EvolutionPhrase e r ∧ Grammar.CountsIn e r.counts)
        stream.tokens p.evolution) ∧
    ∃ printed, p.write = .ok printed ∧ (Personality.read {} printed).result = .ok p ∧
      ∀ again : ReadingOptions, again.limit ≤ 0 ∨ 3 ≤ again.limit →
        (Personality.read again printed).result = .ok p := by
  have printable := printable_of_read read
  obtain ⟨stream, left, scanned, outcome⟩ := read_document read
  obtain ⟨used, split, facts⟩ := Grammar.document_yields _ _ (Token.scan_clean scanned).2 p
    left outcome
  have inside : used <:+: stream.tokens := ⟨[], left, split.symm⟩
  have traits := (facts.traits.mono inside).withCounts Grammar.TraitPhrase.counts
  have evolution := (facts.evolution.mono inside).withCounts Grammar.EvolutionPhrase.counts
  refine ⟨printable, ⟨stream, scanned, traits, evolution⟩, ?_⟩
  obtain ⟨printed, written, readsBack⟩ := read_printed printable
  refine ⟨printed, written, ?_, fun again room => ?_⟩
  · rw [readsBack {} (.inr (by decide))]
  · rw [readsBack again room]

/-- A document with a malformed entry, and counts that are folded from expressions:
one is the least of sixty-four bits, reached through a number that a sum brings back
into range. -/
def reckoned : Text :=
  "personality p \x7b
   traits \x7b broken; calm: 1/2 with transforms_to(if, 2, 0 - 2 * 4611686018427387904) \x7d
   evolution \x7b if interactions > (3 - 1) * 5 then calm -= 0 \x7d \x7d"

/-- What the document holds that can be read. -/
def reckoning : Personality where
  name := "p"
  traits :=
    [⟨"calm", .ofRatio false 1 2,
      [some (.transformsTo "if" (.ofRatio false 2 1) (-0x8000000000000000))]⟩]
  knowledge := []
  behaviors := []
  evolution := [⟨some (.interactions 10), some (.adjust "calm" (.ofRatio true 0 1))⟩]

/-- The document is read past the malformed entry; both counts are values of expressions
of their entries, and the printed form reads back. -/
theorem read_printable_reckoned :
    (Personality.read { limit := 3 } reckoned).result = .ok reckoning ∧
    reckoning.Printable ∧
    (∃ stream, Token.scan reckoned = .ok stream ∧
      Grammar.Written (fun e t => Grammar.TraitPhrase e t ∧ Grammar.CountsIn e t.counts)
        stream.tokens reckoning.traits ∧
      Grammar.Written (fun e r => Grammar.EvolutionPhrase e r ∧ Grammar.CountsIn e r.counts)
        stream.tokens reckoning.evolution) ∧
    ∃ printed, reckoning.write = .ok printed ∧
      (Personality.read {} printed).result = .ok reckoning := by
  have read : (Personality.read { limit := 3 } reckoned).result = .ok reckoning := by
    decide +kernel
  obtain ⟨printable, counted, printed, written, readsBack, -⟩ := read_printable read
  exact ⟨read, printable, counted, printed, written, readsBack⟩

end Personality

end Persona
