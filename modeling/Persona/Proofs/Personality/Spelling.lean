import Mathlib.Data.List.Forall2
import Persona.Proofs.Token.Piece

/-!
# What a printed personality spells

Every part of a personality has a list of tokens that its printed form spells. The
lists are given here constructor by constructor, next to the condition under which
a part can be printed at all: nothing is missing, no text has a quote or a line feed
in it, every number is finite and every count is a number.
-/

namespace Persona

/-- The part is there and satisfies a condition. -/
def Present {α : Type} (condition : α → Prop) (part : Option α) : Prop :=
  ∃ value, part = some value ∧ condition value

/-- A count fits sixty-four bits and is the value of some number. -/
def IsCount (n : Int) : Prop :=
  -0x8000000000000000 ≤ n ∧ n < 0x8000000000000000 ∧ ∃ x : Binary64, x.toInt? = some n

open Text (Quotable)

/-- The text of a circumstance can be quoted. -/
def Context.Printable : Context → Prop
  | .topic value | .situation value | .timeOfDay value | .mood value => Quotable value

/-- A modifier that can be printed. -/
def Modifier.Printable : Modifier → Prop
  | .decay rate unit => rate.isFinite = true ∧ unit ∈ TimeUnit.all
  | .when context | .unless context => Present Context.Printable context
  | .amplifies target factor => Quotable target ∧ factor.isFinite = true
  | .transformsTo target factor count =>
    Quotable target ∧ factor.isFinite = true ∧ IsCount count

/-- A trait that can be printed. -/
structure Trait.Printable (t : Trait) : Prop where
  name : Quotable t.name
  strength : t.strength.isFinite = true
  modifiers : ∀ m ∈ t.modifiers, Present Modifier.Printable m

/-- A topic that can be printed. -/
structure Topic.Printable (t : Topic) : Prop where
  name : Quotable t.name
  level : t.level ∈ Level.all

/-- A connection that can be printed. -/
structure Connection.Printable (c : Connection) : Prop where
  source : Quotable c.source
  target : Quotable c.target
  strength : c.strength.isFinite = true
  rate : ∀ r ∈ c.rate, r.isFinite = true

/-- A domain that can be printed. -/
structure Domain.Printable (d : Domain) : Prop where
  name : Quotable d.name
  topics : ∀ t ∈ d.topics, t.Printable
  connections : ∀ c ∈ d.connections, c.Printable

/-- A condition that can be printed. -/
def Condition.Printable : Condition → Prop
  | .tired | .motivated => True
  | .context value => Quotable value
  | .traitAbove trait threshold => Quotable trait ∧ threshold.isFinite = true
  | .timeRange start stop => Quotable start ∧ Quotable stop

/-- An action that can be printed. -/
def Action.Printable : Action → Prop
  | .prefer value | .seek value | .avoid value => Quotable value
  | .setStyle key value => Quotable key ∧ Quotable value

/-- A behavior rule that can be printed. -/
structure BehaviorRule.Printable (r : BehaviorRule) : Prop where
  condition : Present Condition.Printable r.condition
  action : Present Action.Printable r.action

/-- A trigger that can be printed. -/
def Trigger.Printable : Trigger → Prop
  | .learns topic => Quotable topic
  | .timeIn domain unit count => Quotable domain ∧ unit ∈ TimeUnit.all ∧ IsCount count
  | .interactions count => IsCount count
  | .feedback score => score.isFinite = true

/-- An effect that can be printed. -/
def Effect.Printable : Effect → Prop
  | .adjust trait delta => Quotable trait ∧ delta.isFinite = true
  | .unlock domain => Quotable domain
  | .connect source target strength =>
    Quotable source ∧ Quotable target ∧ strength.isFinite = true
  | .adopt rule => rule.Printable

/-- An evolution rule that can be printed. -/
structure EvolutionRule.Printable (r : EvolutionRule) : Prop where
  trigger : Present Trigger.Printable r.trigger
  effect : Present Effect.Printable r.effect

/-- A personality that can be printed. -/
structure Personality.Printable (p : Personality) : Prop where
  name : Quotable p.name
  traits : ∀ t ∈ p.traits, t.Printable
  knowledge : ∀ d ∈ p.knowledge, d.Printable
  behaviors : ∀ r ∈ p.behaviors, r.Printable
  evolution : ∀ r ∈ p.evolution, r.Printable

namespace Spelling

/-- A part that is there; a missing one spells nothing. -/
def part {α : Type} (spelling : α → List Spelling) (value : Option α) : List Spelling :=
  (value.map spelling).getD []

/-- Several parts with a token between neighbours. -/
def join (separator : Kind) : List (List Spelling) → List Spelling
  | [] => []
  | [part] => part
  | part :: next :: parts => part ++ fixed separator :: join separator (next :: parts)

/-- A word and its arguments between parentheses. -/
def call (name : Spelling) (arguments : List Spelling) : List Spelling :=
  name :: fixed .parenOpen :: (arguments ++ [fixed .parenClose])

end Spelling

open Spelling

/-- The tokens of a circumstance. -/
def Context.spelling : Context → List Spelling
  | .topic value => [quoted value]
  | .situation value => [word "situation", fixed .colon, quoted value]
  | .timeOfDay value => [word "time", fixed .colon, quoted value]
  | .mood value => [word "mood", fixed .colon, quoted value]

/-- The tokens of a modifier. -/
def Modifier.spelling : Modifier → List Spelling
  | .decay rate unit => call (word "decay") (number rate ++ [fixed .divide, word unit.text])
  | .when context => call (fixed .when) (part Context.spelling context)
  | .unless context => call (word "unless") (part Context.spelling context)
  | .amplifies target factor =>
    call (word "amplifies") (named target :: fixed .comma :: number factor)
  | .transformsTo target factor n =>
    call (word "transforms_to")
      (named target :: fixed .comma :: (number factor ++ fixed .comma :: count n))

/-- The tokens of a trait. -/
def Trait.spelling (t : Trait) : List Spelling :=
  let modifiers := t.modifiers.map (part Modifier.spelling)
  named t.name :: fixed .colon :: (number t.strength ++
    if modifiers.isEmpty then [] else fixed .with :: join .comma modifiers)

/-- The tokens of a topic. -/
def Topic.spelling (t : Topic) : List Spelling :=
  [named t.name, fixed .colon, word t.level.text]

/-- The tokens of a connection in the domain called `owner`. -/
def Connection.spelling (owner : Text) (c : Connection) : List Spelling :=
  let rate : List Spelling := match c.rate with
    | some r => fixed .comma :: number r
    | none => []
  (if c.source = owner then [] else [named c.source]) ++
    fixed .arrow :: call (named c.target) (number c.strength ++ rate)

/-- The tokens of a condition. -/
def Condition.spelling : Condition → List Spelling
  | .tired => [word "tired"]
  | .motivated => [word "motivated"]
  | .context value => call (word "context") [quoted value]
  | .traitAbove trait threshold => named trait :: fixed .greater :: number threshold
  | .timeRange start stop => call (word "time") [quoted start, fixed .comma, quoted stop]

/-- The tokens of an action. -/
def Action.spelling : Action → List Spelling
  | .prefer value => [word "prefer", quoted value]
  | .seek value => [word "seek", quoted value]
  | .avoid value => [word "avoid", quoted value]
  | .setStyle key value => call (word "style") [named key, fixed .comma, quoted value]

/-- The tokens of a behavior rule. -/
def BehaviorRule.spelling (r : BehaviorRule) : List Spelling :=
  fixed .when :: (part Condition.spelling r.condition ++
    fixed .arrow :: part Action.spelling r.action)

/-- The tokens of a trigger. -/
def Trigger.spelling : Trigger → List Spelling
  | .learns topic => call (word "learns") [quoted topic]
  | .timeIn domain unit n =>
    call (word "time_in") (named domain :: fixed .comma ::
      (count n ++ [word (unit.text ++ "s")]))
  | .interactions n => call (word "interactions") (count n)
  | .feedback score => call (word "feedback") (number score)

/-- The tokens of an effect. -/
def Effect.spelling : Effect → List Spelling
  | .adjust trait delta =>
    if delta.lt .zero then named trait :: fixed .minusAssign :: number delta.neg
    else named trait :: fixed .plusAssign :: number delta
  | .unlock domain => call (word "unlock") [named domain]
  | .connect source target strength =>
    call (word "connect")
      (named source :: fixed .comma :: named target :: fixed .comma :: number strength)
  | .adopt rule =>
    word "new_behavior" :: fixed .braceOpen :: (rule.spelling ++ [fixed .braceClose])

/-- The tokens of an evolution rule. -/
def EvolutionRule.spelling (r : EvolutionRule) : List Spelling :=
  fixed .if :: (part Trigger.spelling r.trigger ++ fixed .then ::
    part Effect.spelling r.effect)

/-- The tokens of a domain. -/
def Domain.spelling (d : Domain) : List Spelling :=
  fixed .domain :: fixed .parenOpen :: named d.name :: fixed .parenClose :: fixed .braceOpen ::
    (join .semicolon (d.topics.map Topic.spelling ++
      d.connections.map (Connection.spelling d.name)) ++
      [fixed .braceClose])

/-- The tokens of a section; without entries there are none. -/
def sectionSpelling (keyword : Kind) (entries : List (List Spelling)) : List Spelling :=
  if entries.isEmpty then []
  else fixed keyword :: fixed .braceOpen :: (join .semicolon entries ++ [fixed .braceClose])

/-- The tokens of the knowledge section, whose entries have no separators. -/
def knowledgeSpelling (domains : List Domain) : List Spelling :=
  if domains.isEmpty then []
  else fixed .knowledge :: fixed .braceOpen ::
    (domains.flatMap Domain.spelling ++ [fixed .braceClose])

/-- The tokens of a personality. -/
def Personality.spelling (p : Personality) : List Spelling :=
  fixed .personality :: quoted p.name :: fixed .braceOpen ::
    (sectionSpelling .traits (p.traits.map Trait.spelling) ++ (knowledgeSpelling p.knowledge ++
      (sectionSpelling .behaviors (p.behaviors.map BehaviorRule.spelling) ++
        (sectionSpelling .evolution (p.evolution.map EvolutionRule.spelling) ++
          [fixed .braceClose]))))

/-- The fixed texts that begin a part or follow a closed piece, with the tokens that they
spell. They are scanned once, and the parts refer to them. -/
def openings : List (Text × List Spelling) :=
  [("situation:", [word "situation", fixed .colon]), ("time:", [word "time", fixed .colon]),
   ("mood:", [word "mood", fixed .colon]), ("decay(", [word "decay", fixed .parenOpen]),
   ("when(", [fixed .when, fixed .parenOpen]),
   ("unless(", [word "unless", fixed .parenOpen]),
   ("amplifies(", [word "amplifies", fixed .parenOpen]),
   ("transforms_to(", [word "transforms_to", fixed .parenOpen]), ("-> ", [fixed .arrow]),
   ("context(", [word "context", fixed .parenOpen]),
   ("time(", [word "time", fixed .parenOpen]), ("prefer ", [word "prefer"]),
   ("seek ", [word "seek"]), ("avoid ", [word "avoid"]),
   ("style(", [word "style", fixed .parenOpen]), ("when ", [fixed .when]),
   ("learns(", [word "learns", fixed .parenOpen]),
   ("time_in(", [word "time_in", fixed .parenOpen]),
   ("interactions(", [word "interactions", fixed .parenOpen]),
   ("feedback(", [word "feedback", fixed .parenOpen]),
   ("unlock(", [word "unlock", fixed .parenOpen]),
   ("connect(", [word "connect", fixed .parenOpen]),
   ("new_behavior \x7b ", [word "new_behavior", fixed .braceOpen]),
   (" \x7d", [fixed .braceClose]), ("if ", [fixed .if]), (" then ", [fixed .then])]

/-- The fixed texts around domains and sections. -/
def frames : List (Text × List Spelling) :=
  [("    domain(", [fixed .domain, fixed .parenOpen]), ("\x7d\n", [fixed .braceClose]),
   ("\n      ", []), ("  ", []), ("personality ", [fixed .personality]),
   (" \x7b\n", [fixed .braceOpen]),
   ("  knowledge \x7b\n", [fixed .knowledge, fixed .braceOpen]),
   ("  \x7d\n", [fixed .braceClose])]

/-- The fixed texts that may follow any piece, because they start with a delimiter. -/
def followers : List (Text × List Spelling) :=
  [(")", [fixed .parenClose]), (", ", [fixed .comma]), (": ", [fixed .colon]),
   (" with ", [fixed .with]), (" ", []), ("(", [fixed .parenOpen]),
   (" > ", [fixed .greater]), (" -> ", [fixed .arrow]), (" -= ", [fixed .minusAssign]),
   (" += ", [fixed .plusAssign]), (") \x7b", [fixed .parenClose, fixed .braceOpen]),
   ("\n    \x7d\n", [fixed .braceClose]), (" \x7b\n    ", [fixed .braceOpen]),
   ("\n  \x7d\n", [fixed .braceClose]), (";\n      ", [fixed .semicolon]),
   (";\n    ", [fixed .semicolon])]

/-- The words that stand for themselves. -/
def bareWords : List Text :=
  TimeUnit.all.map TimeUnit.text ++ TimeUnit.all.map (fun unit =>
    unit.text ++ Text.ofString "s") ++
    Level.all.map Level.text ++ ([("tired" : Text), "motivated"] : List Text)

namespace Text

/-- A fixed text that begins a part is closed. -/
theorem closed_opening (text : Text) (spellings : List Spelling)
    (listed : (text, spellings) ∈ openings) :
    Closed text spellings := by
  have all : ∀ piece ∈ openings, closes piece.1 piece.2 = true := by decide +kernel
  exact closed_literal text spellings (all _ listed)

/-- A fixed text around a section or a domain is closed. -/
theorem closed_frame (text : Text) (spellings : List Spelling)
    (listed : (text, spellings) ∈ frames) :
    Closed text spellings := by
  have all : ∀ piece ∈ frames, closes piece.1 piece.2 = true := by decide +kernel
  exact closed_literal text spellings (all _ listed)

/-- A fixed text that may follow any piece closes it. -/
theorem closes_followers :
    ∀ piece ∈ followers, (closes piece.1 piece.2 && startsDelimited piece.1) = true := by
  decide +kernel

/-- An open piece is closed by what may follow it. -/
theorem Open.follow {piece : Text} {before : List Spelling} (isOpen : Open piece before)
    (text : Text) (spellings : List Spelling) (listed : (text, spellings) ∈ followers) :
    Closed (piece ++ text) (before ++ spellings) :=
  isOpen.literal text spellings (closes_followers _ listed)

/-- A comma closes an open piece. -/
theorem Open.comma {piece : Text} {before : List Spelling} (isOpen : Open piece before) :
    Closed (piece ++ Text.ofString ", ") (before ++ [fixed .comma]) :=
  isOpen.follow ", " [fixed .comma] (by simp [followers])

/-- A closing parenthesis closes an open piece. -/
theorem Open.parenClose {piece : Text} {before : List Spelling} (isOpen : Open piece before) :
    Closed (piece ++ Text.ofString ")") (before ++ [fixed .parenClose]) :=
  isOpen.follow ")" [fixed .parenClose] (by simp [followers])

/-- A word that stands for itself is one token. -/
theorem open_bareWord (text : Text) (listed : text ∈ bareWords) : Open text [word text] := by
  have all : ∀ text ∈ bareWords, text.isWord = true ∧ Kind.ofWord? text = none := by
    decide +kernel
  obtain ⟨isWord, noKeyword⟩ := all text listed
  have isOpen := open_word isWord
  rwa [noKeyword] at isOpen

/-- Open pieces with a closed separator between neighbours are open. -/
theorem open_join (separator : Text) (kind : Kind)
    (listed : (separator, [fixed kind]) ∈ followers) {texts : List Text}
    {parts : List (List Spelling)} (isOpen : List.Forall₂ Open texts parts) :
    Open (Text.join separator texts) (Spelling.join kind parts) := by
  induction isOpen with
  | nil => exact closed_nil.toOpen
  | cons first others inductionHypothesis =>
    cases others with
    | nil => exact first
    | cons second others =>
      have joined := (first.follow separator [fixed kind] listed).appendOpen
        inductionHypothesis
      simpa [Text.join, Spelling.join] using joined

end Text

open Text (Open Closed closed_opening closed_frame open_bareWord closed_inQuotes open_asName
  open_number open_count
  open_join)

/-- The printed form of a part spells its tokens. -/
def Prints (piece : Text → List Spelling → Prop) (written : Except Missing Text)
    (spellings : List Spelling) :
    Prop :=
  ∃ text, written = .ok text ∧ piece text spellings

/-- An optional part that is there is printed as the part is. -/
theorem prints_part {α : Type} {piece : Text → List Spelling → Prop} {condition : α → Prop}
    {value : Option α} (part : Part) {write : α → Except Missing Text}
    {spelling : α → List Spelling} (printable : Present condition value)
    (prints : ∀ x, condition x → Prints piece (write x) (spelling x)) :
    Prints piece (written .document part write value) (Spelling.part spelling value) := by
  obtain ⟨x, rfl, holds⟩ := printable
  exact prints x holds

/-- Parts that are printed one by one are printed together. -/
theorem prints_mapM {α : Type} {piece : Text → List Spelling → Prop}
    {write : α → Except Missing Text} {spelling : α → List Spelling} {xs : List α}
    (prints : ∀ x ∈ xs, Prints piece (write x) (spelling x)) :
    ∃ texts, xs.mapM write = .ok texts ∧ List.Forall₂ piece texts (xs.map spelling) := by
  induction xs with
  | nil => exact ⟨[], rfl, .nil⟩
  | cons x xs inductionHypothesis =>
    obtain ⟨text, written, spelled⟩ := prints x List.mem_cons_self
    obtain ⟨texts, others, allSpelled⟩ :=
      inductionHypothesis fun y member => prints y (List.mem_cons_of_mem x member)
    refine ⟨text :: texts, ?_, .cons spelled allSpelled⟩
    rw [List.mapM_cons, written, others]
    rfl

/-- A circumstance is printed as its tokens. -/
theorem Context.write_closed {c : Context} (printable : c.Printable) :
    Closed c.write c.spelling := by
  cases c with
  | topic value => exact closed_inQuotes printable
  | situation value =>
    exact (closed_opening "situation:" [word "situation", fixed .colon]
      (by simp [openings])).append
      (closed_inQuotes printable)
  | timeOfDay value =>
    exact (closed_opening "time:" [word "time", fixed .colon] (by simp [openings])).append
      (closed_inQuotes printable)
  | mood value =>
    exact (closed_opening "mood:" [word "mood", fixed .colon] (by simp [openings])).append
      (closed_inQuotes printable)

/-- An optional circumstance is printed as its tokens. -/
theorem prints_context {context : Option Context}
    (printable : Present Context.Printable context) :
    Prints Closed (written .document .context (fun c => .ok c.write) context)
      (part Context.spelling context) :=
  prints_part .context printable fun c holds => ⟨c.write, rfl, c.write_closed holds⟩

/-- The words for the four units are names, with and without the plural ending. -/
theorem TimeUnit.text_open {unit : TimeUnit} (listed : unit ∈ TimeUnit.all) :
    Open unit.text [word unit.text] ∧ Open (unit.text ++ "s") [word (unit.text ++ "s")] := by
  refine ⟨open_bareWord _ ?_, open_bareWord _ ?_⟩
  · simp only [bareWords, List.mem_append, List.mem_map]
    exact .inl (.inl (.inl ⟨unit, listed, rfl⟩))
  · simp only [bareWords, List.mem_append, List.mem_map]
    exact .inl (.inl (.inr ⟨unit, listed, rfl⟩))

/-- A modifier is printed as its tokens. -/
theorem Modifier.write_closed {m : Modifier} (printable : m.Printable) :
    Prints Closed m.write m.spelling := by
  cases m with
  | decay rate unit =>
    obtain ⟨finite, listed⟩ := printable
    refine ⟨_, rfl, ?_⟩
    have rateOpen :=
      (closed_opening "decay(" [word "decay", fixed .parenOpen]
        (by simp [openings])).appendOpen
      (open_number finite)
    have unitStarts : ∃ b ∈ unit.text.head?, b < 0x80 ∧ b ≠ 42 ∧ b ≠ 47 := by
      cases unit with
      | unlisted code => simp [TimeUnit.all] at listed
      | day => exact ⟨100, rfl, by decide⟩
      | week => exact ⟨119, rfl, by decide⟩
      | month => exact ⟨109, rfl, by decide⟩
      | year => exact ⟨121, rfl, by decide⟩
    have closed := (rateOpen.slash (TimeUnit.text_open listed).1 unitStarts).parenClose
    simpa [Modifier.spelling, call] using closed
  | «when» context =>
    obtain ⟨inner, written, spelled⟩ := prints_context printable
    refine ⟨"when(" ++ inner ++ ")", by simp [Modifier.write, written], ?_⟩
    have closed :=
      ((closed_opening "when(" [fixed .when, fixed .parenOpen] (by simp [openings])).append
      spelled).toOpen.parenClose
    simpa [Modifier.spelling, call] using closed
  | «unless» context =>
    obtain ⟨inner, written, spelled⟩ := prints_context printable
    refine ⟨"unless(" ++ inner ++ ")", by simp [Modifier.write, written], ?_⟩
    have closed :=
      ((closed_opening "unless(" [word "unless", fixed .parenOpen] (by simp [openings])).append
      spelled).toOpen.parenClose
    simpa [Modifier.spelling, call] using closed
  | amplifies target factor =>
    obtain ⟨quotable, finite⟩ := printable
    refine ⟨_, rfl, ?_⟩
    have targetOpen := (closed_opening "amplifies(" [word "amplifies", fixed .parenOpen]
      (by simp [openings])).appendOpen (open_asName quotable)
    have closed := (targetOpen.comma.appendOpen (open_number finite)).parenClose
    simpa [Modifier.spelling, call] using closed
  | transformsTo target factor n =>
    obtain ⟨quotable, finite, _⟩ := printable
    refine ⟨_, rfl, ?_⟩
    have targetOpen :=
      (closed_opening "transforms_to(" [word "transforms_to", fixed .parenOpen]
      (by simp [openings])).appendOpen (open_asName quotable)
    have factorOpen := targetOpen.comma.appendOpen (open_number finite)
    have closed := (factorOpen.comma.appendOpen (open_count n)).parenClose
    simpa [Modifier.spelling, call] using closed

/-- An optional modifier is printed as its tokens. -/
theorem prints_modifier {m : Option Modifier} (printable : Present Modifier.Printable m) :
    Prints Closed (writeModifier m) (part Modifier.spelling m) :=
  prints_part .modifier printable fun _ holds => Modifier.write_closed holds

/-- A trait is printed as its tokens. -/
theorem Trait.write_open {t : Trait} (printable : t.Printable) :
    Prints Open t.write t.spelling := by
  obtain ⟨modifiers, written, spelled⟩ := prints_mapM fun m member =>
    prints_modifier (printable.modifiers m member)
  have head :=
    ((open_asName printable.name).follow ": " [fixed .colon] (by simp [followers])).appendOpen
    (open_number printable.strength)
  have sameLength : modifiers.length = t.modifiers.length := by simpa using spelled.length_eq
  by_cases none : t.modifiers = []
  · refine ⟨t.name.asName ++ ": " ++ t.strength.text,
      ?_, by simpa [Trait.spelling, none] using head⟩
    simp [Trait.write, none]
    rfl
  · have some : modifiers ≠ [] := by
      intro empty
      rw [empty] at sameLength
      exact none (List.length_eq_zero_iff.mp sameLength.symm)
    refine ⟨t.name.asName ++ ": " ++ t.strength.text ++ " with " ++
      Text.join ", " modifiers, ?_, ?_⟩
    · simp [Trait.write, written, some]
    · have isOpen := (head.follow " with " [fixed .with] (by simp [followers])).appendOpen
        (open_join ", " .comma (by simp [followers]) (spelled.imp fun _ _ closed =>
          closed.toOpen))
      simpa [Trait.spelling, none] using isOpen

/-- A topic is printed as its tokens. -/
theorem Topic.write_open {t : Topic} (printable : t.Printable) : Open t.write t.spelling := by
  have levelOpen : Open t.level.text [word t.level.text] := by
    refine open_bareWord _ ?_
    simp only [bareWords, List.mem_append, List.mem_map]
    exact .inl (.inr ⟨t.level, printable.level, rfl⟩)
  exact ((open_asName printable.name).follow ": " [fixed .colon]
    (by simp [followers])).appendOpen levelOpen

/-- A connection is printed as its tokens. -/
theorem Connection.write_open (owner : Text) {c : Connection} (printable : c.Printable) :
    Open (c.write owner) (c.spelling owner) := by
  have arrow := closed_opening "-> " [fixed .arrow] (by simp [openings])
  have head :
      Closed ((if c.source = owner then [] else c.source.asName ++ Text.ofString " ") ++
        Text.ofString "-> ")
      ((if c.source = owner then [] else [named c.source]) ++ [fixed .arrow]) := by
    split
    · exact arrow
    · have source := (open_asName printable.source).follow " " [] (by simp [followers])
      simpa using source.append arrow
  have weighed :=
    ((head.appendOpen (open_asName printable.target)).follow "(" [fixed .parenOpen]
    (by simp [followers])).appendOpen (open_number printable.strength)
  unfold Connection.write Connection.spelling
  cases rated : c.rate with
  | none =>
    have closed := weighed.parenClose
    refine Closed.toOpen ?_
    simpa [call] using closed
  | some r =>
    have closed := (weighed.comma.appendOpen (open_number (printable.rate r rated))).parenClose
    refine Closed.toOpen ?_
    simpa [call] using closed

/-- A condition is printed as its tokens. -/
theorem Condition.write_open {c : Condition} (printable : c.Printable) :
    Open c.write c.spelling := by
  cases c with
  | tired => exact open_bareWord "tired" (by simp [bareWords])
  | motivated => exact open_bareWord "motivated" (by simp [bareWords])
  | context value =>
    have closed :=
      ((closed_opening "context(" [word "context", fixed .parenOpen]
        (by simp [openings])).append
      (closed_inQuotes printable)).toOpen.parenClose
    exact closed.toOpen
  | traitAbove trait threshold =>
    obtain ⟨quotable, finite⟩ := printable
    exact ((open_asName quotable).follow " > " [fixed .greater]
      (by simp [followers])).appendOpen
      (open_number finite)
  | timeRange start stop =>
    obtain ⟨startQuotable, stopQuotable⟩ := printable
    have closed :=
      ((((closed_opening "time(" [word "time", fixed .parenOpen] (by simp [openings])).append
      (closed_inQuotes startQuotable)).toOpen.comma).append
      (closed_inQuotes stopQuotable)).toOpen.parenClose
    exact closed.toOpen

/-- An action is printed as its tokens. -/
theorem Action.write_closed {a : Action} (printable : a.Printable) :
    Closed a.write a.spelling := by
  cases a with
  | prefer value =>
    exact (closed_opening "prefer " [word "prefer"] (by simp [openings])).append
      (closed_inQuotes printable)
  | seek value =>
    exact (closed_opening "seek " [word "seek"] (by simp [openings])).append
      (closed_inQuotes printable)
  | avoid value =>
    exact (closed_opening "avoid " [word "avoid"] (by simp [openings])).append
      (closed_inQuotes printable)
  | setStyle key value =>
    obtain ⟨keyQuotable, valueQuotable⟩ := printable
    have closed :=
      ((((closed_opening "style(" [word "style", fixed .parenOpen]
        (by simp [openings])).appendOpen
      (open_asName keyQuotable)).comma).append
      (closed_inQuotes valueQuotable)).toOpen.parenClose
    exact closed

/-- A behavior rule is printed as its tokens. -/
theorem BehaviorRule.write_closed {r : BehaviorRule} (printable : r.Printable) :
    Prints Closed r.write r.spelling := by
  obtain ⟨c, condition, conditionPrintable⟩ := printable.condition
  obtain ⟨a, action, actionPrintable⟩ := printable.action
  refine ⟨"when " ++ c.write ++ " -> " ++ a.write, ?_, ?_⟩
  · simp [BehaviorRule.write, writeCondition, writeAction, condition, action, written]
    rfl
  · have closed := (((closed_opening "when " [fixed .when] (by simp [openings])).appendOpen
      (c.write_open conditionPrintable)).follow " -> " [fixed .arrow]
        (by simp [followers])).append
      (a.write_closed actionPrintable)
    simpa [BehaviorRule.spelling, condition, action, part] using closed

/-- A trigger is printed as its tokens. -/
theorem Trigger.write_closed {t : Trigger} (printable : t.Printable) :
    Closed t.write t.spelling := by
  cases t with
  | learns topic =>
    exact ((closed_opening "learns(" [word "learns", fixed .parenOpen]
      (by simp [openings])).append
      (closed_inQuotes printable)).toOpen.parenClose
  | timeIn domain unit n =>
    obtain ⟨quotable, listed, _⟩ := printable
    have domainOpen := (closed_opening "time_in(" [word "time_in", fixed .parenOpen]
      (by simp [openings])).appendOpen (open_asName quotable)
    have counted := (domainOpen.comma.appendOpen (open_count n)).follow " " []
      (by simp [followers])
    have closed := (counted.appendOpen (TimeUnit.text_open listed).2).parenClose
    have ending : Text.ofString "s)" = Text.ofString "s" ++ Text.ofString ")" := rfl
    simpa [Trigger.write, ending, Trigger.spelling, call] using closed
  | interactions n =>
    have closed := ((closed_opening "interactions(" [word "interactions", fixed .parenOpen]
      (by simp [openings])).appendOpen (open_count n)).parenClose
    exact closed
  | feedback score =>
    have closed := ((closed_opening "feedback(" [word "feedback", fixed .parenOpen]
      (by simp [openings])).appendOpen (open_number printable)).parenClose
    exact closed

/-- An effect is printed as its tokens. -/
theorem Effect.write_open {e : Effect} (printable : e.Printable) :
    Prints Open e.write e.spelling := by
  cases e with
  | adjust trait delta =>
    obtain ⟨quotable, finite⟩ := printable
    simp only [Effect.write, Effect.spelling]
    split
    · have negated : delta.neg.isFinite = true := by cases delta <;> first | rfl | cases finite
      exact ⟨_, rfl, ((open_asName quotable).follow " -= " [fixed .minusAssign]
        (by simp [followers])).appendOpen
        (open_number negated)⟩
    · exact ⟨_, rfl, ((open_asName quotable).follow " += " [fixed .plusAssign]
        (by simp [followers])).appendOpen
        (open_number finite)⟩
  | unlock domain =>
    have closed :=
      ((closed_opening "unlock(" [word "unlock", fixed .parenOpen]
        (by simp [openings])).appendOpen
      (open_asName printable)).parenClose
    exact ⟨_, rfl, closed.toOpen⟩
  | connect source target strength =>
    obtain ⟨sourceQuotable, targetQuotable, finite⟩ := printable
    have sourceOpen := (closed_opening "connect(" [word "connect", fixed .parenOpen]
      (by simp [openings])).appendOpen (open_asName sourceQuotable)
    have targetOpen := sourceOpen.comma.appendOpen (open_asName targetQuotable)
    have closed := (targetOpen.comma.appendOpen (open_number finite)).parenClose
    refine ⟨_, rfl, Closed.toOpen ?_⟩
    simpa [Effect.spelling, call] using closed
  | adopt rule =>
    obtain ⟨inner, written, spelled⟩ := BehaviorRule.write_closed printable
    refine ⟨"new_behavior \x7b " ++ inner ++
      " \x7d", by simp [Effect.write, written], Closed.toOpen ?_⟩
    have closed :=
      ((closed_opening "new_behavior \x7b " [word "new_behavior", fixed .braceOpen]
      (by simp [openings])).append spelled).append
        (closed_opening " \x7d" [fixed .braceClose] (by simp [openings]))
    simpa [Effect.spelling] using closed

/-- An evolution rule is printed as its tokens. -/
theorem EvolutionRule.write_open {r : EvolutionRule} (printable : r.Printable) :
    Prints Open r.write r.spelling := by
  obtain ⟨t, trigger, triggerPrintable⟩ := printable.trigger
  obtain ⟨e, effect, effectPrintable⟩ := printable.effect
  obtain ⟨effectText, effectWritten, effectSpelled⟩ := e.write_open effectPrintable
  refine ⟨"if " ++ t.write ++ " then " ++ effectText, ?_, ?_⟩
  · simp [EvolutionRule.write, writeTrigger, writeEffect, trigger, effect, written,
      effectWritten]
    rfl
  · have isOpen := (((closed_opening "if " [fixed .if] (by simp [openings])).append
      (t.write_closed triggerPrintable)).append (closed_opening " then " [fixed .then]
      (by simp [openings]))).appendOpen effectSpelled
    simpa [EvolutionRule.spelling, trigger, effect, part] using isOpen

/-- A domain is printed as its tokens. -/
theorem Domain.write_closed {d : Domain} (printable : d.Printable) :
    Closed d.write d.spelling := by
  have topics : List.Forall₂ Open (d.topics.map Topic.write)
      (d.topics.map Topic.spelling) := by
    rw [List.forall₂_map_left_iff, List.forall₂_map_right_iff, List.forall₂_same]
    exact fun t member => t.write_open (printable.topics t member)
  have connections : List.Forall₂ Open (d.connections.map (Connection.write d.name))
      (d.connections.map (Connection.spelling d.name)) := by
    rw [List.forall₂_map_left_iff, List.forall₂_map_right_iff, List.forall₂_same]
    exact fun c member => c.write_open d.name (printable.connections c member)
  have entries := List.rel_append topics connections
  have head :=
    (((closed_frame "    domain(" [fixed .domain, fixed .parenOpen]
      (by simp [frames])).appendOpen
    (open_asName printable.name)).follow ") \x7b" [fixed .parenClose, fixed .braceOpen]
      (by simp [followers]))
  unfold Domain.write Domain.spelling
  split
  · rename_i none
    have noEntries : d.topics.map Topic.spelling ++ d.connections.map (Connection.spelling
        d.name) = [] := by
      simpa [Domain.entries] using none
    have closed := head.append (closed_frame "\x7d\n" [fixed .braceClose] (by simp [frames]))
    rw [noEntries]
    simpa [Spelling.join] using closed
  · have joined := open_join ";\n      " .semicolon (by simp [followers]) entries
    have closed :=
      ((head.append (closed_frame "\n      " [] (by simp [frames]))).appendOpen joined).follow
      "\n    \x7d\n" [fixed .braceClose] (by simp [followers])
    simpa [Domain.entries] using closed

/-- A section is printed as its tokens. -/
theorem writeSection_closed (keyword : Kind)
    (listed : keyword ∈ [Kind.traits, .behaviors, .evolution]) {entries : List Text}
    {parts : List (List Spelling)} (spelled : List.Forall₂ Open entries parts) :
    Closed (writeSection keyword.text entries) (sectionSpelling keyword parts) := by
  have words : ∀ kind ∈ [Kind.traits, .behaviors, .evolution],
      kind.text.isWord = true ∧ Kind.ofWord? kind.text = some kind := by decide +kernel
  obtain ⟨isWord, known⟩ := words keyword listed
  have name : Open keyword.text [fixed keyword] := by
    have isOpen := Text.open_word isWord
    rwa [known] at isOpen
  unfold writeSection sectionSpelling
  have joined := open_join ";\n    " .semicolon (by simp [followers]) spelled
  have opened := ((closed_frame "  " [] (by simp [frames])).appendOpen name).follow
    " \x7b\n    " [fixed .braceOpen]
    (by simp [followers])
  have closed := (opened.appendOpen joined).follow "\n  \x7d\n" [fixed .braceClose]
    (by simp [followers])
  cases spelled with
  | nil => exact Text.closed_nil
  | cons first others => simpa using closed

/-- Pieces that are closed one by one are closed together. -/
theorem closed_flatMap {α : Type} {write : α → Text} {spelling : α → List Spelling}
    {xs : List α} (closed : ∀ x ∈ xs, Closed (write x) (spelling x)) :
    Closed (xs.flatMap write) (xs.flatMap spelling) := by
  induction xs with
  | nil => exact Text.closed_nil
  | cons x xs inductionHypothesis =>
    rw [List.flatMap_cons, List.flatMap_cons]
    exact (closed x List.mem_cons_self).append
      (inductionHypothesis fun y member => closed y (List.mem_cons_of_mem x member))

/-- A personality that can be printed is printed as its tokens. -/
theorem Personality.write_closed {p : Personality} (printable : p.Printable) :
    Prints Closed p.write p.spelling := by
  obtain ⟨traits, traitsWritten, traitsSpelled⟩ := prints_mapM fun t member =>
    Trait.write_open (printable.traits t member)
  obtain ⟨behaviors, behaviorsWritten, behaviorsSpelled⟩ := prints_mapM fun r member =>
    BehaviorRule.write_closed (printable.behaviors r member)
  obtain ⟨evolution, evolutionWritten, evolutionSpelled⟩ := prints_mapM fun r member =>
    EvolutionRule.write_open (printable.evolution r member)
  have head := ((closed_frame "personality " [fixed .personality] (by simp [frames])).append
    (closed_inQuotes printable.name)).append
      (closed_frame " \x7b\n" [fixed .braceOpen] (by simp [frames]))
  have traitSection := writeSection_closed .traits (by simp) traitsSpelled
  have knowledge : Closed (if p.knowledge.isEmpty then ([] : Text)
      else "  knowledge \x7b\n" ++ p.knowledge.flatMap Domain.write ++ "  \x7d\n")
      (knowledgeSpelling p.knowledge) := by
    unfold knowledgeSpelling
    split
    · exact Text.closed_nil
    · have closed := ((closed_frame "  knowledge \x7b\n" [fixed .knowledge, fixed .braceOpen]
        (by simp [frames])).append (closed_flatMap fun d member =>
        Domain.write_closed (printable.knowledge d member))).append
        (closed_frame "  \x7d\n" [fixed .braceClose] (by simp [frames]))
      simpa using closed
  have behaviorSection := writeSection_closed .behaviors (by simp)
    (behaviorsSpelled.imp fun _ _ closed => closed.toOpen)
  have evolutionSection := writeSection_closed .evolution (by simp) evolutionSpelled
  have closed := ((((head.append traitSection).append knowledge).append behaviorSection).append
    evolutionSection).append (closed_frame "\x7d\n" [fixed .braceClose] (by simp [frames]))
  unfold Prints Personality.write
  rw [traitsWritten, behaviorsWritten, evolutionWritten]
  refine ⟨_, rfl, ?_⟩
  simpa [Personality.spelling, Kind.text] using closed

end Persona
