import Persona.Proofs.Compile
import Persona.Proofs.Grammar.Printable
import Persona.Proofs.Structured

/-!
# The lines of a prompt

A prompt is read line by line: a line that starts with a dash is a bullet, one that
starts with two number signs a heading. The texts of a personality stand in its bullets
without quotes, so nothing keeps them there but that they have no line feed. A text that
was read from a document has none, and putting it into words adds none. So up to the
heading of the context the lines of a prompt are those that the lists of the personality
call for, whatever the texts say. Behind that heading stands the context, of which nothing
is asked.
-/

namespace Persona

namespace Text

/-- There is no line feed in the text. -/
def OneLine (text : Text) : Prop := 10 ∉ text

instance (text : Text) : Decidable (OneLine text) := inferInstanceAs (Decidable (10 ∉ text))

/-- A text has one line exactly if both its parts do. -/
@[simp] theorem oneLine_append {first second : Text} :
    OneLine (first ++ second) ↔ OneLine first ∧ OneLine second := by
  simp [OneLine]

/-- A text has one line exactly if its first byte does not end it and the
others have one. -/
@[simp] theorem oneLine_cons {b : UInt8} {text : Text} : OneLine (b :: text) ↔
    b ≠ 10 ∧ OneLine text := by
  simp [OneLine, eq_comm]

/-- A text put together from texts of one line has one line. -/
theorem oneLine_flatMap {α : Type} {xs : List α} {write : α → Text}
    (each : ∀ x ∈ xs, OneLine (write x)) :
    OneLine (xs.flatMap write) := by
  intro feed
  obtain ⟨x, member, inside⟩ := List.mem_flatMap.mp feed
  exact each x member inside

/-- Texts of one line have one line together, if what stands between them has. -/
theorem oneLine_join {separator : Text} (apart : OneLine separator) {parts : List Text}
    (each : ∀ part ∈ parts, OneLine part) : OneLine (join separator parts) := by
  induction parts with
  | nil => exact List.not_mem_nil
  | cons part parts inductionHypothesis =>
    obtain ⟨first, others⟩ := List.forall_mem_cons.mp each
    cases parts with
    | nil => exact first
    | cons next parts =>
      rw [join, oneLine_append, oneLine_append]
      exact ⟨⟨first, apart⟩, inductionHypothesis others⟩

/-- What can be quoted has one line. -/
theorem Quotable.oneLine {text : Text} (quotable : Quotable text) : OneLine text :=
  fun feed => (quotable 10 feed).2 rfl

/-- A number is written on one line. -/
theorem oneLine_number (x : Binary64) : OneLine x.text := by
  intro feed
  exact absurd ((Layout.write_numeric Layout.plain x).1 10 feed) (by decide)

/-- A count is written on one line. -/
theorem oneLine_count (n : Int) : OneLine (ofInt n) := by
  have digits (n : Nat) : OneLine (ofNat n) :=
    fun feed => absurd (ofNat_digits n 10 feed) (by decide)
  cases n with
  | ofNat n => exact digits n
  | negSucc n => exact oneLine_append.mpr ⟨by decide, digits (n + 1)⟩

/-- A hexadecimal numeral is written on one line. -/
theorem oneLine_hex (width n : Nat) : OneLine (hex width n) := by
  have digits : ∀ n < 16, hexDigit n ≠ 10 := by decide
  induction width generalizing n with
  | zero => exact List.not_mem_nil
  | succ width inductionHypothesis =>
    rw [hex, oneLine_append]
    exact ⟨inductionHypothesis _, by
      simpa [OneLine, eq_comm] using digits (n % 16) (Nat.mod_lt _ (by decide))⟩

/-- The bytes of a character other than a line feed have no line feed among them. -/
theorem oneLine_encode {code : Nat} (other : code ≠ 10) : OneLine (Character.encode code) := by
  have apart {n : Nat} (small : n < 256) (other : n ≠ 10) : UInt8.ofNat n ≠ 10 := by
    intro same
    have value := congrArg UInt8.toNat same
    simp only [UInt8.toNat_ofNat', UInt8.reduceToNat] at value
    omega
  have empty : OneLine [] := by decide
  unfold Character.encode
  dsimp only
  split
  · exact oneLine_cons.mpr ⟨apart (by omega) other, empty⟩
  split
  · exact oneLine_cons.mpr ⟨apart (by omega) (by omega),
      oneLine_cons.mpr ⟨apart (by omega) (by omega), empty⟩⟩
  split
  · decide
  rename_i _ _ scalar
  simp only [Bool.or_eq_true, decide_eq_true_eq, not_or] at scalar
  split
  · exact oneLine_cons.mpr ⟨apart (by omega) (by omega),
      oneLine_cons.mpr ⟨apart (by omega) (by omega),
      oneLine_cons.mpr ⟨apart (by omega) (by omega), empty⟩⟩⟩
  · exact oneLine_cons.mpr ⟨apart (by omega) (by omega),
      oneLine_cons.mpr ⟨apart (by omega) (by omega),
      oneLine_cons.mpr ⟨apart (by omega) (by omega),
        oneLine_cons.mpr ⟨apart (by omega) (by omega), empty⟩⟩⟩⟩

/-- A character is shown between double quotes on one line: a line feed has a letter. -/
theorem oneLine_shown (code : Nat) : OneLine (Character.shown 34 code) := by
  unfold Character.shown
  split
  · rename_i escaped
    have quoteOrBackslash : code = 34 ∨ code = 92 := by simpa using escaped
    rcases quoteOrBackslash with rfl | rfl <;> decide
  split
  · rename_i printable
    refine oneLine_encode ?_
    rintro rfl
    revert printable
    decide
  split
  · rename_i letter named
    have letters : ∀ pair ∈ [(7, (97 : UInt8)), (8, 98), (12, 102), (10, 110), (13, 114),
        (9, 116), (11, 118)], pair.2 ≠ 10 := by decide
    obtain ⟨before, after, listed, -⟩ := List.lookup_eq_some_iff.mp named
    have other : letter ≠ 10 := letters (code, letter) (by rw [listed]; simp)
    exact oneLine_cons.mpr ⟨by decide, oneLine_cons.mpr ⟨other, List.not_mem_nil⟩⟩
  split
  · exact oneLine_append.mpr ⟨by decide, oneLine_hex _ _⟩
  split
  · exact oneLine_append.mpr ⟨by decide, oneLine_hex _ _⟩
  · exact oneLine_append.mpr ⟨by decide, oneLine_hex _ _⟩

/-- A text is shown between quotes on one line, whatever it is. -/
theorem oneLine_quoted (text : Text) : OneLine text.quoted := by
  refine oneLine_append.mpr
    ⟨oneLine_append.mpr ⟨by decide, oneLine_flatMap fun c _ => ?_⟩, by decide⟩
  split
  · exact oneLine_append.mpr ⟨by decide, oneLine_hex _ _⟩
  · exact oneLine_shown _

/-- There is always a part. -/
theorem splitAt_ne_nil (byte : UInt8) (text : Text) : splitAt byte text ≠ [] := by
  induction text with
  | nil => exact List.cons_ne_nil _ _
  | cons b text inductionHypothesis =>
    rw [splitAt]
    split
    · exact List.cons_ne_nil _ _
    · split <;> exact List.cons_ne_nil _ _

/-- A text can be cut in front of an occurrence of the byte and behind it. -/
theorem splitAt_append (byte : UInt8) (first second : Text) :
    splitAt byte (first ++ byte :: second) = splitAt byte first ++ splitAt byte second := by
  induction first with
  | nil => simp [splitAt]
  | cons b first inductionHypothesis =>
    rw [List.cons_append, splitAt, splitAt, inductionHypothesis]
    split
    · rfl
    · obtain ⟨part, parts, split⟩ := List.exists_cons_of_ne_nil (splitAt_ne_nil byte first)
      rw [split, List.cons_append]
      rfl

/-- A text of one line is its only line. -/
theorem splitAt_oneLine {text : Text} (oneLine : OneLine text) : splitAt 10 text = [text] := by
  induction text with
  | nil => rfl
  | cons b text inductionHypothesis =>
    obtain ⟨other, rest⟩ := oneLine_cons.mp oneLine
    rw [splitAt, if_neg other, inductionHypothesis rest]

/-- Lines that were joined are found again. -/
theorem splitAt_join {line : Text} {lines : List Text}
    (each : ∀ l ∈ line :: lines, OneLine l) :
    splitAt 10 (join [10] (line :: lines)) = line :: lines := by
  induction lines generalizing line with
  | nil => exact splitAt_oneLine (each line List.mem_cons_self)
  | cons next lines inductionHypothesis =>
    obtain ⟨first, others⟩ := List.forall_mem_cons.mp each
    rw [join, List.append_assoc, List.singleton_append, splitAt_append,
      splitAt_oneLine first, inductionHypothesis others]
    rfl

/-- Between paragraphs there is an empty line. -/
theorem splitAt_paragraphs (first : Text) (others : List Text) :
    splitAt 10 (join "\n\n" (first :: others)) =
      splitAt 10 first ++ others.flatMap fun paragraph => [] :: splitAt 10 paragraph := by
  induction others generalizing first with
  | nil => simp [join]
  | cons next others inductionHypothesis =>
    have gap : join "\n\n" (first :: next :: others) =
        first ++ 10 :: ([] ++ 10 :: join "\n\n" (next :: others)) := by
      simp [join, ofString, String.utf8EncodeChar]
    rw [gap, splitAt_append, splitAt_append, inductionHypothesis]
    rfl

end Text

namespace Prompt

open Text (OneLine oneLine_append oneLine_number oneLine_count oneLine_quoted oneLine_join
  oneLine_flatMap)

/-- The computation gives a text of one line. -/
abbrev Worded (x : Except Missing Text) : Prop := Ends (fun _ => False) OneLine x

/-- A part that is there is put into words, if its own words have one line. -/
theorem written_worded {α : Type} {part : Part} {write : α → Except Missing Text}
    {condition : α → Prop} {value : Option α} (present : Present condition value)
    (worded : ∀ x, condition x → Worded (write x)) :
    Worded (written .prompt part write value) := by
  obtain ⟨x, rfl, holds⟩ := present
  exact worded x holds

/-- A circumstance has one line. -/
theorem contextPhrase_oneLine {c : Context} (printable : c.Printable) :
    OneLine (contextPhrase c) := by
  cases c with
  | topic value => exact Text.Quotable.oneLine printable
  | situation value | timeOfDay value | mood value =>
    have text : OneLine value := Text.Quotable.oneLine printable
    simp +decide [contextPhrase, text]

/-- A circumstance that is there has one line. -/
theorem contextClause_worded {context : Option Context}
    (present : Present Context.Printable context) :
    Worded (contextClause context) :=
  written_worded present fun _ => contextPhrase_oneLine

/-- The word for a unit has one line. -/
theorem unit_oneLine (unit : TimeUnit) : OneLine unit.text := by
  cases unit <;> simp +decide [TimeUnit.text]

/-- The word for a level has one line. -/
theorem level_oneLine (level : Level) : OneLine level.text := by
  cases level <;> simp +decide [Level.text]

/-- A modifier has one line. -/
theorem modifierClause_worded {m : Option Modifier} (present : Present Modifier.Printable m) :
    Worded (modifierClause m) := by
  refine written_worded present fun modifier printable => ?_
  cases modifier with
  | «when» context =>
    exact Ends.bind (contextClause_worded printable) fun inner oneLine =>
      oneLine_append.mpr ⟨by decide, oneLine⟩
  | «unless» context =>
    exact Ends.bind (contextClause_worded printable) fun inner oneLine =>
      oneLine_append.mpr ⟨by decide, oneLine⟩
  | amplifies target factor =>
    have text : OneLine target := printable.1.oneLine
    simp +decide [Worded, Ends, text, oneLine_number]
  | decay rate unit => simp +decide [Worded, Ends, oneLine_number, unit_oneLine]
  | transformsTo target factor count =>
    have text : OneLine target := printable.1.oneLine
    simp +decide [Worded, Ends, text]

/-- A condition has one line. -/
theorem conditionPhrase_worded {condition : Option Condition}
    (present : Present Condition.Printable condition) :
    Worded (conditionPhrase condition) := by
  refine written_worded present fun condition printable => ?_
  cases condition with
  | tired | motivated => simp +decide [Worded, Ends]
  | context value => exact oneLine_append.mpr ⟨by decide, oneLine_quoted value⟩
  | traitAbove trait threshold =>
    have text : OneLine trait := printable.1.oneLine
    simp +decide [Worded, Ends, text, oneLine_number]
  | timeRange start stop =>
    have texts : OneLine start ∧ OneLine stop := ⟨printable.1.oneLine, printable.2.oneLine⟩
    simp +decide [Worded, Ends, texts]

/-- An action has one line. -/
theorem actionPhrase_worded {action : Option Action}
    (present : Present Action.Printable action) :
    Worded (actionPhrase action) := by
  refine written_worded present fun action printable => ?_
  cases action with
  | prefer value | seek value | avoid value =>
    have text : OneLine value := Text.Quotable.oneLine printable
    exact oneLine_append.mpr ⟨by decide, text⟩
  | setStyle key value =>
    have texts : OneLine key ∧ OneLine value := ⟨printable.1.oneLine, printable.2.oneLine⟩
    simp +decide [Worded, Ends, texts]

/-- A behavior has one line. -/
theorem behaviorClause_worded {r : BehaviorRule} (printable : r.Printable) :
    Worded (behaviorClause r) := by
  refine Ends.bind (conditionPhrase_worded printable.condition)
    fun condition conditionLine => ?_
  refine Ends.bind (actionPhrase_worded printable.action) fun action actionLine => ?_
  exact oneLine_append.mpr ⟨oneLine_append.mpr ⟨conditionLine, by decide⟩, actionLine⟩

/-- A number of things has one line. -/
theorem plural_oneLine (count : Int) {thing : Text} (oneLine : OneLine thing) :
    OneLine (plural count thing) := by
  unfold plural
  split <;> simp +decide [oneLine, oneLine_count]

/-- A trigger has one line. -/
theorem triggerPhrase_worded {trigger : Option Trigger}
    (present : Present Trigger.Printable trigger) :
    Worded (triggerPhrase trigger) := by
  refine written_worded present fun trigger printable => ?_
  cases trigger with
  | learns topic => exact oneLine_append.mpr ⟨by decide, Text.Quotable.oneLine printable⟩
  | timeIn domain unit count =>
    have text : OneLine domain := printable.1.oneLine
    simp +decide [Worded, Ends, text, plural_oneLine count (unit_oneLine unit)]
  | interactions count =>
    exact oneLine_append.mpr ⟨by decide, plural_oneLine count (by decide)⟩
  | feedback score => exact oneLine_append.mpr ⟨by decide, oneLine_number score⟩

/-- A small first letter is no line feed. -/
theorem uncapitalized_oneLine {clause : Text} (oneLine : OneLine clause) :
    OneLine (uncapitalized clause) := by
  cases clause with
  | nil => exact oneLine
  | cons first rest =>
    obtain ⟨other, following⟩ := Text.oneLine_cons.mp oneLine
    refine Text.oneLine_cons.mpr ⟨?_, following⟩
    unfold Text.lowerByte
    split
    · rename_i capital
      simp only [Bool.and_eq_true, decide_eq_true_eq, UInt8.le_iff_toNat_le,
        UInt8.reduceToNat] at capital
      intro same
      have value := congrArg UInt8.toNat same
      simp only [UInt8.toNat_add, UInt8.reduceToNat] at value
      omega
    · exact other

/-- An effect has one line. -/
theorem effectPhrase_worded {effect : Option Effect}
    (present : Present Effect.Printable effect) :
    Worded (effectPhrase effect) := by
  refine written_worded present fun effect printable => ?_
  cases effect with
  | adjust trait delta =>
    have text : OneLine trait := printable.1.oneLine
    dsimp only
    split <;> simp +decide [Worded, Ends, text, oneLine_number]
  | unlock domain => exact oneLine_append.mpr ⟨by decide, Text.Quotable.oneLine printable⟩
  | connect source target strength =>
    have texts : OneLine source ∧ OneLine target :=
      ⟨printable.1.oneLine, printable.2.1.oneLine⟩
    simp +decide [Worded, Ends, texts, oneLine_number]
  | adopt rule =>
    refine Ends.bind (behaviorClause_worded printable) fun clause oneLine => ?_
    exact oneLine_append.mpr ⟨by decide, uncapitalized_oneLine oneLine⟩

/-- The bullets of a list: one line for each member, in their order. A bullet is what its
member is put into, and it starts with a dash and the mark of the member. -/
def Bulleted {α : Type} (line : α → Except Missing Text) (mark : α → Text) (items : List α)
    (lines : List Text) :
    Prop :=
  List.Forall₂ (fun item l => line item = .ok l ∧ ("- " ++ mark item : Text) <+: l ∧
    OneLine l) items lines

/-- Members that are put into bullets one by one are put into the bullets of the list. -/
theorem bulleted_of_ends {α : Type} {line : α → Except Missing Text} {mark : α → Text}
    {items : List α} (each : ∀ item ∈ items, Ends (fun _ => False) (fun l =>
      ("- " ++ mark item : Text) <+: l ∧ OneLine l) (line item)) :
    ∃ lines, items.mapM line = .ok lines ∧ Bulleted line mark items lines := by
  induction items with
  | nil => exact ⟨[], rfl, .nil⟩
  | cons item items inductionHypothesis =>
    obtain ⟨first, others⟩ := List.forall_mem_cons.mp each
    obtain ⟨lines, written, bulleted⟩ := inductionHypothesis others
    cases outcome : line item with
    | error e =>
      rw [outcome] at first
      exact first.elim
    | ok l =>
      rw [outcome] at first
      exact ⟨l ::
        lines, by rw [List.mapM_cons, outcome, written]; rfl, .cons ⟨outcome, first⟩ bulleted⟩

/-- Bullets that cannot fail are made one by one. -/
theorem bulleted_map {α : Type} {line : α → Text} {mark : α → Text} {items : List α}
    (each : ∀ item ∈ items, ("- " ++ mark item : Text) <+: line item ∧ OneLine (line item)) :
    Bulleted (fun item => .ok (line item)) mark items (items.map line) :=
  List.forall₂_map_right_iff.mpr (List.forall₂_same.mpr fun item member =>
    ⟨rfl, each item member⟩)

/-- Bullets have one line each. -/
theorem Bulleted.oneLine {α : Type} {line : α → Except Missing Text} {mark : α → Text}
    {items : List α} {lines : List Text} (bulleted : Bulleted line mark items lines) :
    ∀ l ∈ lines, OneLine l := by
  induction bulleted with
  | nil => exact List.forall_mem_nil _
  | cons first _ inductionHypothesis =>
    exact List.forall_mem_cons.mpr ⟨first.2.2, inductionHypothesis⟩

/-- Bullets start with a dash, so none is a heading. -/
theorem Bulleted.ne_heading {α : Type} {line : α → Except Missing Text} {mark : α → Text}
    {items : List α}
    {lines : List Text} (bulleted : Bulleted line mark items lines) (heading : Text) :
    ∀ l ∈ lines, l ≠ "## " ++ heading := by
  induction bulleted with
  | nil => exact List.forall_mem_nil _
  | cons first _ inductionHypothesis =>
    refine List.forall_mem_cons.mpr ⟨?_, inductionHypothesis⟩
    rintro rfl
    obtain ⟨rest, same⟩ := first.2.1
    simp [Text.ofString, String.utf8EncodeChar] at same

/-- The bullet of a trait starts with its name. -/
theorem traitLine_ends {t : Trait} (printable : t.Printable) :
    Ends (fun _ => False) (fun l => ("- " ++ (t.name ++ ": ") : Text) <+: l ∧ OneLine l)
      (traitLine t) := by
  have clauses : Ends (fun _ : Missing => False) (fun ls => (∀ m ∈ t.modifiers, True) ∧
      ∀ l ∈ ls, OneLine l)
      (t.modifiers.mapM modifierClause) :=
    Ends.mapM fun m member => (modifierClause_worded (printable.modifiers m member)).imp
      (fun _ never => never)
      fun _ oneLine => ⟨trivial, oneLine⟩
  refine Ends.bind clauses fun clauses oneLines => ?_
  have name : OneLine t.name := printable.name.oneLine
  have band : OneLine (tier t.strength) := by
    unfold tier
    repeat' split
    all_goals decide
  have notes : OneLine (clauses.flatMap fun clause =>
      Text.ofString " (" ++ clause ++ Text.ofString ")") :=
    oneLine_flatMap fun clause member => by
      have inside : OneLine clause := oneLines.2 clause member
      simp +decide [inside]
  change _ ∧ OneLine _
  simp only [List.append_assoc, List.prefix_append_right_inj, List.prefix_append,
    oneLine_append] at notes ⊢
  exact ⟨trivial, by
    decide, name, by decide, band, by decide, oneLine_number _, by decide, notes⟩

/-- The note on a connection has one line. -/
theorem connectionNote_oneLine (owner : Text) {c : Connection} (printable : c.Printable) :
    OneLine (connectionNote owner c) := by
  have other : OneLine (if c.target = owner then c.source else c.target) := by
    split
    · exact printable.source.oneLine
    · exact printable.target.oneLine
  simp +decide [connectionNote, other, oneLine_number]

/-- The bullet of a domain starts with its name. -/
theorem domainLine_oneLine {d : Domain} (printable : d.Printable) :
    ("- " ++ (d.name ++ ": ") : Text) <+: domainLine d ∧ OneLine (domainLine d) := by
  have name : OneLine d.name := printable.name.oneLine
  have topics : OneLine (Text.join ", " (d.topics.map fun t =>
      t.name ++ " (" ++ t.level.text ++ ")")) := by
    refine oneLine_join (by decide) (List.forall_mem_map.mpr fun t member => ?_)
    have topic : OneLine t.name := (printable.topics t member).name.oneLine
    simp +decide [topic, level_oneLine]
  have notes : OneLine (d.connections.flatMap (connectionNote d.name)) :=
    oneLine_flatMap fun c member =>
      connectionNote_oneLine d.name (printable.connections c member)
  have known : OneLine (if d.topics.isEmpty then ("general familiarity" : Text)
      else Text.join ", " (d.topics.map fun t => t.name ++ " (" ++ t.level.text ++ ")")) := by
    split
    · decide
    · exact topics
  unfold domainLine
  simp only [List.append_assoc, List.prefix_append_right_inj, List.prefix_append,
    oneLine_append] at known ⊢
  exact ⟨trivial, by decide, name, by decide, known, notes⟩

/-- The bullet of a behavior starts with a dash. -/
theorem behaviorLine_ends {r : BehaviorRule} (printable : r.Printable) :
    Ends (fun _ => False) (fun l => ("- " ++ ([] : Text) : Text) <+: l ∧ OneLine l)
      (behaviorLine r) := by
  refine Ends.bind (behaviorClause_worded printable) fun clause oneLine => ?_
  exact ⟨⟨clause ++ ".", by simp⟩, by simp +decide [oneLine]⟩

/-- The bullet of an evolution rule starts with a dash. -/
theorem evolutionLine_ends {r : EvolutionRule} (printable : r.Printable) :
    Ends (fun _ => False) (fun l => ("- " ++ ([] : Text) : Text) <+: l ∧ OneLine l)
      (evolutionLine r) := by
  refine Ends.bind (triggerPhrase_worded printable.trigger) fun trigger triggerLine => ?_
  refine Ends.bind (effectPhrase_worded printable.effect) fun effect effectLine => ?_
  exact ⟨⟨trigger ++ ", " ++ effect ++ ".", by simp⟩, by
    simp +decide [triggerLine, effectLine]⟩

/-- The lines of a list: none if it is empty, and else an empty one, its heading and
its bullets. -/
def listLines (heading : Text) (lines : List Text) : List Text :=
  if lines.isEmpty then [] else [] :: ("## " ++ heading) :: lines

/-- The first line, which says who the model is. -/
def headLine (name : Text) : Text :=
  "You are " ++ name ++ ". Embody the following personality in every response."

/-- The heading of the context. -/
def contextHeading : Text := "## Context"

/-- The lines in front of the heading of the context: the first one, the lists, and
an empty one. -/
def leadingLines (name : Text) (traits knowledge behaviors evolution : List Text) :
    List Text :=
  headLine name :: (listLines "Personality Traits" traits ++
    listLines "Knowledge Areas" knowledge ++
    listLines "Behavioral Guidelines" behaviors ++
      listLines "Evolution Awareness" evolution ++ [[]])

/-- The section of a list has the lines of the list, after an empty one. -/
theorem lines_bullets {heading : Text} (headingLine : OneLine heading) {lines : List Text}
    (each : ∀ l ∈ lines, OneLine l) :
    (bullets heading lines).flatMap (fun paragraph => [] :: Text.splitAt 10 paragraph) =
      listLines heading lines := by
  unfold bullets listLines
  split
  · rfl
  · have whole : ∀ l ∈ ("## " ++ heading : Text) :: lines, OneLine l :=
      List.forall_mem_cons.mpr ⟨oneLine_append.mpr ⟨by decide, headingLine⟩, each⟩
    rw [List.flatMap_singleton, Text.splitAt_join whole]

/-- A final line feed is followed by an empty line. -/
theorem splitAt_ending (text : Text) :
    Text.splitAt 10 (text ++ "\n") = Text.splitAt 10 text ++ [[]] :=
  Text.splitAt_append 10 text []

/-- The section of the context has its heading and the lines of the context. -/
theorem lines_context (context : Text) :
    Text.splitAt 10 (("## Context\n" : Text) ++ context) =
      contextHeading :: Text.splitAt 10 context := by
  have cut : ("## Context\n" : Text) ++ context = contextHeading ++ 10 :: context := by
    rw [show ("## Context\n" : Text) = contextHeading ++ [10] by decide, List.append_assoc]
    rfl
  rw [cut, Text.splitAt_append, Text.splitAt_oneLine (by decide)]
  rfl

/-- The lines of a prompt whose bullets have one line each. -/
theorem lines_sections {name : Text} (nameLine : OneLine name)
    {traits knowledge behaviors evolution : List Text}
    (traitsLines : ∀ l ∈ traits, OneLine l) (knowledgeLines : ∀ l ∈ knowledge, OneLine l)
    (behaviorsLines : ∀ l ∈ behaviors, OneLine l)
    (evolutionLines : ∀ l ∈ evolution, OneLine l) (context : Text) :
    Text.splitAt 10 (Text.join "\n\n"
      ([headLine name] ++ bullets "Personality Traits" traits ++
      bullets "Knowledge Areas" knowledge ++ bullets "Behavioral Guidelines" behaviors ++
      bullets "Evolution Awareness" evolution ++ [("## Context\n" : Text) ++ context]) ++
      "\n") =
    leadingLines name traits knowledge behaviors evolution ++ contextHeading ::
      Text.splitAt 10 (context ++ "\n") := by
  have head : OneLine (headLine name) := by simp +decide [headLine, nameLine]
  simp only [splitAt_ending, List.append_assoc, List.cons_append, List.nil_append]
  rw [Text.splitAt_paragraphs, Text.splitAt_oneLine head]
  simp only [List.flatMap_append, List.flatMap_cons, List.flatMap_nil]
  rw [lines_bullets (by decide) traitsLines, lines_bullets (by decide) knowledgeLines,
    lines_bullets (by decide) behaviorsLines, lines_bullets (by decide) evolutionLines,
    lines_context]
  simp [leadingLines]

/-- No line in front of the heading of the context is that heading. -/
theorem contextHeading_not_mem {name : Text} {traits knowledge behaviors evolution : List Text}
    (traitsLines : ∀ l ∈ traits, l ≠ contextHeading)
    (knowledgeLines : ∀ l ∈ knowledge, l ≠ contextHeading)
    (behaviorsLines : ∀ l ∈ behaviors, l ≠ contextHeading)
    (evolutionLines : ∀ l ∈ evolution, l ≠ contextHeading) :
    contextHeading ∉ leadingLines name traits knowledge behaviors evolution := by
  have inList {heading : Text} {lines : List Text}
      (other : ("## " ++ heading : Text) ≠ contextHeading)
      (each : ∀ l ∈ lines, l ≠ contextHeading) : contextHeading ∉ listLines heading lines := by
    unfold listLines
    split
    · exact List.not_mem_nil
    · intro member
      rcases List.mem_cons.mp member with same | member
      · cases same
      rcases List.mem_cons.mp member with same | member
      · exact other same.symm
      · exact each _ member rfl
  have first : contextHeading ≠ headLine name := by
    intro same
    cases congrArg List.head? same
  intro member
  rcases List.mem_cons.mp member with same | member
  · exact first same
  simp only [List.mem_append] at member
  rcases member with (((member | member) | member) | member) | member
  · exact inList (by decide) traitsLines member
  · exact inList (by decide) knowledgeLines member
  · exact inList (by decide) behaviorsLines member
  · exact inList (by decide) evolutionLines member
  · cases List.mem_singleton.mp member

/-- The lines of a prompt for what was read from a document, whatever its texts say and
whatever the hint is. In front of the heading of the context stand the first line and, for
each list that is not empty, in their order, an empty line, the heading of the list and
one bullet for each of its members, in their order. Behind it stands the hint without the
white space around it, or the general context if nothing is left. -/
theorem emit_lines {options : ReadingOptions} {source : Text} {p : Personality}
    (read : (Personality.read options source).result = .ok p) (hint : Text) :
    ∃ output traits knowledge behaviors evolution, emit p hint = .ok output ∧
      Bulleted traitLine (fun t => t.name ++ ": ") p.traits traits ∧
      Bulleted (fun d => .ok (domainLine d)) (fun d => d.name ++ ": ") p.knowledge knowledge ∧
      Bulleted behaviorLine (fun _ => []) p.behaviors behaviors ∧
      Bulleted evolutionLine (fun _ => []) p.evolution evolution ∧
      contextHeading ∉ leadingLines p.name traits knowledge behaviors evolution ∧
      output.splitAt 10 = leadingLines p.name traits knowledge behaviors evolution ++
        contextHeading ::
        Text.splitAt 10 ((if hint.trim = [] then defaultContext else hint.trim) ++ "\n") := by
  have printable := Personality.printable_of_read read
  obtain ⟨traits, traitsWritten, traitsBulleted⟩ :=
    bulleted_of_ends fun t member => traitLine_ends (printable.traits t member)
  obtain ⟨behaviors, behaviorsWritten, behaviorsBulleted⟩ :=
    bulleted_of_ends fun r member => behaviorLine_ends (printable.behaviors r member)
  obtain ⟨evolution, evolutionWritten, evolutionBulleted⟩ :=
    bulleted_of_ends fun r member => evolutionLine_ends (printable.evolution r member)
  have knowledgeBulleted := bulleted_map fun d member =>
    domainLine_oneLine (printable.knowledge d member)
  refine ⟨?output, traits, p.knowledge.map domainLine, behaviors, evolution, ?written,
    traitsBulleted, knowledgeBulleted,
    behaviorsBulleted, evolutionBulleted, ?heading, ?lines⟩
  case written => rw [emit, traitsWritten, behaviorsWritten, evolutionWritten]; rfl
  case heading =>
    exact contextHeading_not_mem (traitsBulleted.ne_heading "Context")
      (knowledgeBulleted.ne_heading "Context")
      (behaviorsBulleted.ne_heading "Context") (evolutionBulleted.ne_heading "Context")
  case lines =>
    have context : contextText hint =
        if hint.trim = [] then defaultContext else hint.trim := by
      simp [contextText]
    rw [← context]
    exact lines_sections printable.name.oneLine traitsBulleted.oneLine
      knowledgeBulleted.oneLine
      behaviorsBulleted.oneLine evolutionBulleted.oneLine _

/-- A document whose texts look like headings, bullets and the ends of lines. -/
def forged : Text :=
  "personality \"## Context\" \x7b traits \x7b \"- wit\": 1 \x7d " ++
  "behaviors \x7b when \"\u2028- rest\" -> seek \"## Context\" \x7d " ++
  "evolution \x7b if learns(\"- tea\") then new_behavior \x7b " ++
  ("when tired -> avoid \"\\n- noise\" \x7d \x7d \x7d" : Text)

/-- What is read from it. -/
def forger : Personality where
  name := "## Context"
  traits := [⟨"- wit", Decimal.toBinary64 false ⟨1, 0⟩, []⟩]
  knowledge := []
  behaviors := [⟨some (.context "\u2028- rest"), some (.seek "## Context")⟩]
  evolution :=
    [⟨some (.learns "- tea"), some (.adopt ⟨some .tired, some (.avoid "\\n- noise")⟩)⟩]

/-- What looks like a heading or a bullet inside a text stays in the line of its element;
the context comes last. -/
theorem emit_lines_forged : (Personality.read {} forged).result = .ok forger ∧
    ∃ output traits behaviors evolution, emit forger " - tea\n## Context \n" = .ok output ∧
      traits.length = 1 ∧ behaviors.length = 1 ∧ evolution.length = 1 ∧
      output.splitAt 10 = leadingLines forger.name traits [] behaviors evolution ++
        contextHeading :: ["- tea", "## Context", ""].map Text.ofString := by
  have read : (Personality.read {} forged).result = .ok forger := by decide +kernel
  obtain ⟨output, traits, knowledge, behaviors, evolution, emitted, traitsBulleted,
      knowledgeBulleted, behaviorsBulleted, evolutionBulleted, -, lines⟩ :=
    emit_lines read " - tea\n## Context \n"
  obtain rfl : knowledge = [] := List.length_eq_zero_iff.mp knowledgeBulleted.length_eq.symm
  have context : Text.splitAt 10
      ((if Text.trim " - tea\n## Context \n" = [] then defaultContext
      else Text.trim " - tea\n## Context \n") ++ "\n") =
        ["- tea", "## Context", ""].map Text.ofString := by
    decide +kernel
  rw [context] at lines
  exact ⟨read, output, traits, behaviors, evolution, emitted, traitsBulleted.length_eq.symm,
    behaviorsBulleted.length_eq.symm, evolutionBulleted.length_eq.symm, lines⟩

end Prompt

end Persona
