import Persona.Proofs.Personality.Spelling
import Persona.Proofs.Personality.Texts
import Persona.Proofs.Text.Utf8

/-!
# Repairing the texts of a personality

Printing and repairing commute: the repaired printed form of a part is the printed
form of the repaired part. Whether a name is quoted depends on its code points only,
which repairing keeps, and everything between names is ASCII. A repaired part can be
printed whenever the part can.
-/

namespace Persona

namespace Text

open Repairs (of_ascii)

/-- A fixed text of the printer is ASCII. -/
theorem repairs_literal (text : Text) (ascii : text.all (· < 0x80) = true) :
    Repairs text text :=
  of_ascii fun b member => by simpa using List.all_eq_true.mp ascii b member

/-- A quoted text is repaired between its quotes. -/
theorem repairs_inQuotes (text : Text) : Repairs text.inQuotes text.toUtf8.inQuotes := by
  have quote : Repairs (ofString "\"") (ofString "\"") := repairs_literal _ (by decide)
  have closed : Repairs (text ++ ofString "\"") (text.toUtf8 ++ ofString "\"") :=
    Repairs.before_ascii text (by decide +kernel) (by decide)
  have whole := quote.append closed
  simpa [inQuotes] using whole

/-- Whether a text is a word is a matter of its code points. -/
theorem isWord_toUtf8 (text : Text) : text.toUtf8.isWord = text.isWord := by
  unfold isWord
  rw [characters_toUtf8]
  cases text.characters with
  | nil => rfl
  | cons first rest => simp [Character.repaired_code, List.all_map, Function.comp_def]

/-- A word has no undecodable bytes, because U+FFFD is no letter and no digit. -/
theorem word_sequences {text : Text} (word : text.isWord = true) :
    ∀ c ∈ text.characters, Character.Sequence c := by
  intro c member
  rcases mem_characters member with ⟨b, -, rfl⟩ | formed
  · unfold isWord at word
    split at word
    · rename_i none
      rw [none] at member
      cases member
    rename_i first rest split
    rw [split] at member
    simp only [Bool.and_eq_true, List.all_eq_true] at word
    have notLetter : Character.isLetter Character.replacement = false := by decide +kernel
    have notDigit : Character.isDecimalDigit Character.replacement = false := by decide +kernel
    rcases List.mem_cons.mp member with same | later
    · have letter := word.1
      rw [← same] at letter
      simp [Character.undecodable, notLetter] at letter
    · have continues := word.2 _ later
      have notUnderscore : Character.replacement ≠ 95 := by decide
      simp [Character.undecodable, notLetter, notDigit, notUnderscore] at continues
  · exact formed

/-- A name is repaired on its own. -/
theorem repairs_asName (text : Text) : Repairs text.asName text.toUtf8.asName := by
  by_cases word : text.isWord = true
  · have sequences := word_sequences word
    have apart : ∀ rest, characters (text ++ rest) = text.characters ++ rest.characters :=
      fun rest => by
      have split := characters_ofCharacters text.characters rest sequences
      rwa [ofCharacters_characters] at split
    have repairs := Repairs.of_characters apart
    have same : text.toUtf8 = text := by
      rw [toUtf8_eq, List.map_congr_left fun c member => (sequences c member).repaired,
        List.map_id', ofCharacters_characters]
    rw [same] at repairs ⊢
    unfold asName
    split
    · exact repairs
    · have quoted := repairs_inQuotes text
      rwa [same] at quoted
  · have bare : text.asName = text.inQuotes ∧ text.toUtf8.asName = text.toUtf8.inQuotes := by
      simp [asName, isWord_toUtf8, word]
    rw [bare.1, bare.2]
    exact repairs_inQuotes text

/-- A number is written in ASCII. -/
theorem repairs_number (x : Binary64) : Repairs x.text x.text :=
  of_ascii (Layout.write_ascii Layout.plain x)

/-- A count is written in ASCII. -/
theorem repairs_count (n : Int) : Repairs (ofInt n) (ofInt n) := by
  have digits (n : Nat) : Repairs (ofNat n) (ofNat n) :=
    of_ascii fun b member => Layout.numericBytes_ascii b
      (Layout.digit_numeric (ofNat_digits n b member))
  cases n with
  | ofNat n => exact digits n
  | negSucc n => exact (repairs_literal "-" (by decide)).append (digits (n + 1))

/-- The two outcomes fail in the same way, or the second repairs what the first wrote. -/
def RepairsOutcome : Except Missing Text → Except Missing Text → Prop
  | .ok text, .ok repaired => Repairs text repaired
  | .error e, .error e' => e = e'
  | _, _ => False

namespace RepairsOutcome

/-- Outcomes may be put together. -/
theorem bind {first first' : Except Missing Text} {next next' : Text → Except Missing Text}
    (repairs : RepairsOutcome first first')
    (following : ∀ text repaired, Repairs text repaired →
      RepairsOutcome (next text) (next' repaired)) :
    RepairsOutcome (first >>= next) (first' >>= next') := by
  match first, first', repairs with
  | .ok text, .ok repaired, repairs => exact following text repaired repairs
  | .error _, .error _, rfl => exact rfl

/-- A part that is missing stays missing. -/
theorem written {α : Type} {part : Part} {write : α → Except Missing Text} {f : α → α}
    (value : Option α) (repairs : ∀ x, RepairsOutcome (write x) (write (f x))) :
    RepairsOutcome (Persona.written .document part write value)
      (Persona.written .document part write (value.map f)) := by
  cases value with
  | none => exact rfl
  | some x => exact repairs x

/-- The same for parts that are always written. -/
theorem written_ok {α : Type} {part : Part} {write : α → Text} {f : α → α} (value : Option α)
    (repairs : ∀ x, Repairs (write x) (write (f x))) :
    RepairsOutcome (Persona.written .document part (fun x => .ok (write x)) value)
      (Persona.written .document part (fun x => .ok (write x)) (value.map f)) :=
  written value repairs

/-- What was written is repaired. -/
theorem map_toUtf8 {written repaired : Except Missing Text}
    (repairs : RepairsOutcome written repaired) :
    repaired = written.map toUtf8 := by
  match written, repaired, repairs with
  | .ok text, .ok repaired, repairs => exact congrArg Except.ok repairs.toUtf8_eq.symm
  | .error _, .error _, rfl => rfl

end RepairsOutcome

end Text

open Text (Repairs RepairsOutcome repairs_literal repairs_inQuotes repairs_asName
  repairs_number repairs_count)

/-- Printing and repairing a circumstance commute. -/
theorem Context.write_repairs (c : Context) :
    Repairs c.write (c.mapTexts Text.toUtf8).write := by
  cases c with
  | topic value => exact repairs_inQuotes value
  | situation value =>
    exact (repairs_literal "situation:" (by decide)).append (repairs_inQuotes value)
  | timeOfDay value =>
    exact (repairs_literal "time:" (by decide)).append (repairs_inQuotes value)
  | mood value => exact (repairs_literal "mood:" (by decide)).append (repairs_inQuotes value)

/-- The word for a unit is ASCII. -/
theorem TimeUnit.text_repairs (unit : TimeUnit) : Repairs unit.text unit.text := by
  apply repairs_literal
  cases unit with
  | unlisted code => exact (by decide : (Text.ofString "(unknown)").all (· < 0x80) = true)
  | day => decide
  | week => decide
  | month => decide
  | year => decide

/-- Printing and repairing a modifier commute. -/
theorem Modifier.write_repairs (m : Modifier) :
    RepairsOutcome m.write (m.mapTexts Text.toUtf8).write := by
  have between (head : Text) (ascii : head.all (· < 0x80) = true) (text repaired : Text)
      (repairs : Repairs text repaired) :
        Repairs (head ++ text ++ ")") (head ++ repaired ++ ")") :=
    ((repairs_literal head ascii).append repairs).append (repairs_literal ")" (by decide))
  cases m with
  | decay rate unit =>
    have inner := ((repairs_number rate).append (repairs_literal "/" (by decide))).append
      unit.text_repairs
    have outer := between "decay(" (by decide) _ _ inner
    simpa [Modifier.write, Modifier.mapTexts, RepairsOutcome] using outer
  | «when» context =>
    exact (RepairsOutcome.written_ok context Context.write_repairs).bind
      (between "when(" (by decide))
  | «unless» context =>
    exact (RepairsOutcome.written_ok context Context.write_repairs).bind
      (between "unless(" (by decide))
  | amplifies target factor =>
    have inner := ((repairs_asName target).append (repairs_literal ", " (by decide))).append
      (repairs_number factor)
    have outer := between "amplifies(" (by decide) _ _ inner
    simpa [Modifier.write, Modifier.mapTexts, RepairsOutcome] using outer
  | transformsTo target factor count =>
    have inner := (((repairs_asName target).append (repairs_literal ", " (by decide))).append
      (repairs_number factor)).append ((repairs_literal ", " (by decide)).append
        (repairs_count count))
    have outer := between "transforms_to(" (by decide) _ _ inner
    simpa [Modifier.write, Modifier.mapTexts, RepairsOutcome] using outer

/-- Printing and repairing a condition commute. -/
theorem Condition.write_repairs (c : Condition) :
    Repairs c.write (c.mapTexts Text.toUtf8).write := by
  cases c with
  | tired => exact repairs_literal "tired" (by decide)
  | motivated => exact repairs_literal "motivated" (by decide)
  | context value =>
    exact ((repairs_literal "context(" (by decide)).append (repairs_inQuotes value)).append
      (repairs_literal ")" (by decide))
  | traitAbove trait threshold =>
    exact ((repairs_asName trait).append (repairs_literal " > " (by decide))).append
      (repairs_number threshold)
  | timeRange start stop =>
    exact ((((repairs_literal "time(" (by decide)).append (repairs_inQuotes start)).append
      (repairs_literal ", " (by decide))).append (repairs_inQuotes stop)).append
      (repairs_literal ")" (by decide))

/-- Printing and repairing an action commute. -/
theorem Action.write_repairs (a : Action) :
    Repairs a.write (a.mapTexts Text.toUtf8).write := by
  cases a with
  | prefer value =>
    exact (repairs_literal "prefer " (by decide)).append (repairs_inQuotes value)
  | seek value => exact (repairs_literal "seek " (by decide)).append (repairs_inQuotes value)
  | avoid value => exact (repairs_literal "avoid " (by decide)).append (repairs_inQuotes value)
  | setStyle key value =>
    exact ((((repairs_literal "style(" (by decide)).append (repairs_asName key)).append
      (repairs_literal ", " (by decide))).append (repairs_inQuotes value)).append
      (repairs_literal ")" (by decide))

/-- Printing and repairing a behavior rule commute. -/
theorem BehaviorRule.write_repairs (r : BehaviorRule) :
    RepairsOutcome r.write (r.mapTexts Text.toUtf8).write := by
  refine (RepairsOutcome.written_ok r.condition Condition.write_repairs).bind
    fun condition condition' repairs => ?_
  refine (RepairsOutcome.written_ok r.action Action.write_repairs).bind
    fun action action' following => ?_
  exact (((repairs_literal "when " (by decide)).append repairs).append
    (repairs_literal " -> " (by decide))).append following

/-- Printing and repairing a trigger commute. -/
theorem Trigger.write_repairs (t : Trigger) :
    Repairs t.write (t.mapTexts Text.toUtf8).write := by
  cases t with
  | learns topic =>
    exact ((repairs_literal "learns(" (by decide)).append (repairs_inQuotes topic)).append
      (repairs_literal ")" (by decide))
  | timeIn domain unit count =>
    exact ((((((repairs_literal "time_in(" (by decide)).append (repairs_asName domain)).append
      (repairs_literal ", " (by decide))).append (repairs_count count)).append
      (repairs_literal " " (by decide))).append unit.text_repairs).append
        (repairs_literal "s)" (by decide))
  | interactions count =>
    exact ((repairs_literal "interactions(" (by decide)).append (repairs_count count)).append
      (repairs_literal ")" (by decide))
  | feedback score =>
    exact ((repairs_literal "feedback(" (by decide)).append (repairs_number score)).append
      (repairs_literal ")" (by decide))

/-- Printing and repairing an effect commute. -/
theorem Effect.write_repairs (e : Effect) :
    RepairsOutcome e.write (e.mapTexts Text.toUtf8).write := by
  cases e with
  | adjust trait delta =>
    simp only [Effect.write, Effect.mapTexts]
    split
    · exact ((repairs_asName trait).append (repairs_literal " -= " (by decide))).append
        (repairs_number _)
    · exact ((repairs_asName trait).append (repairs_literal " += " (by decide))).append
        (repairs_number _)
  | unlock domain =>
    exact ((repairs_literal "unlock(" (by decide)).append (repairs_asName domain)).append
      (repairs_literal ")" (by decide))
  | connect source target strength =>
    exact ((((((repairs_literal "connect(" (by decide)).append (repairs_asName source)).append
      (repairs_literal ", " (by decide))).append (repairs_asName target)).append
      (repairs_literal ", " (by decide))).append (repairs_number strength)).append
      (repairs_literal ")" (by decide))
  | adopt rule =>
    refine rule.write_repairs.bind fun inner inner' repairs => ?_
    exact ((repairs_literal "new_behavior \x7b " (by decide)).append repairs).append
      (repairs_literal " \x7d" (by decide))

/-- Repairing adds no quote and no line feed. -/
theorem Text.Quotable.toUtf8 {text : Text} (quotable : Text.Quotable text) :
    Text.Quotable text.toUtf8 := by
  intro b member
  obtain ⟨c, inText, inCharacter⟩ := List.mem_flatMap.mp member
  split at inCharacter
  · have safe : Text.Quotable (Character.encode Character.replacement) := by decide
    exact safe b inCharacter
  · have inBytes : b ∈ Text.ofCharacters text.characters :=
      List.mem_flatMap.mpr ⟨c, inText, inCharacter⟩
    rw [Text.ofCharacters_characters] at inBytes
    exact quotable b inBytes

/-- A part that is there is there after a change. -/
theorem Present.map {α : Type} {condition : α → Prop} {value : Option α} {f : α → α}
    (present : Present condition value) (kept : ∀ x, condition x → condition (f x)) :
    Present condition (value.map f) := by
  obtain ⟨x, rfl, holds⟩ := present
  exact ⟨f x, rfl, kept x holds⟩

/-- A repaired circumstance can be printed. -/
theorem Context.Printable.repaired {c : Context} (printable : c.Printable) :
    (c.mapTexts Text.toUtf8).Printable := by
  cases c <;> exact Text.Quotable.toUtf8 printable

/-- A repaired modifier can be printed. -/
theorem Modifier.Printable.repaired {m : Modifier} (printable : m.Printable) :
    (m.mapTexts Text.toUtf8).Printable := by
  cases m with
  | decay rate unit => exact printable
  | «when» context => exact Present.map printable fun _ => Context.Printable.repaired
  | «unless» context => exact Present.map printable fun _ => Context.Printable.repaired
  | amplifies target factor => exact ⟨printable.1.toUtf8, printable.2⟩
  | transformsTo target factor count => exact ⟨printable.1.toUtf8, printable.2⟩

/-- A repaired condition can be printed. -/
theorem Condition.Printable.repaired {c : Condition} (printable : c.Printable) :
    (c.mapTexts Text.toUtf8).Printable := by
  cases c with
  | tired => trivial
  | motivated => trivial
  | context value => exact Text.Quotable.toUtf8 printable
  | traitAbove trait threshold => exact ⟨printable.1.toUtf8, printable.2⟩
  | timeRange start stop => exact ⟨printable.1.toUtf8, printable.2.toUtf8⟩

/-- A repaired action can be printed. -/
theorem Action.Printable.repaired {a : Action} (printable : a.Printable) :
    (a.mapTexts Text.toUtf8).Printable := by
  cases a with
  | prefer value => exact Text.Quotable.toUtf8 printable
  | seek value => exact Text.Quotable.toUtf8 printable
  | avoid value => exact Text.Quotable.toUtf8 printable
  | setStyle key value => exact ⟨printable.1.toUtf8, printable.2.toUtf8⟩

/-- A repaired behavior rule can be printed. -/
theorem BehaviorRule.Printable.repaired {r : BehaviorRule} (printable : r.Printable) :
    (r.mapTexts Text.toUtf8).Printable :=
  ⟨printable.condition.map fun _ => Condition.Printable.repaired,
    printable.action.map fun _ => Action.Printable.repaired⟩

/-- A repaired trigger can be printed. -/
theorem Trigger.Printable.repaired {t : Trigger} (printable : t.Printable) :
    (t.mapTexts Text.toUtf8).Printable := by
  cases t with
  | learns topic => exact Text.Quotable.toUtf8 printable
  | timeIn domain unit count => exact ⟨printable.1.toUtf8, printable.2⟩
  | interactions count => exact printable
  | feedback score => exact printable

/-- A repaired effect can be printed. -/
theorem Effect.Printable.repaired {e : Effect} (printable : e.Printable) :
    (e.mapTexts Text.toUtf8).Printable := by
  cases e with
  | adjust trait delta => exact ⟨printable.1.toUtf8, printable.2⟩
  | unlock domain => exact Text.Quotable.toUtf8 printable
  | connect source target strength =>
    exact ⟨printable.1.toUtf8, printable.2.1.toUtf8, printable.2.2⟩
  | adopt rule => exact BehaviorRule.Printable.repaired printable

end Persona
